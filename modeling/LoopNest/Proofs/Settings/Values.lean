import LoopNest.Settings.Parse
import LoopNest.Proofs.Failure

/-! What the assignment of a value to a key says. Counts are decimal numbers that fit in a word,
flags are `true` or `false`, and an assignment that is neither has one thing wrong with it. -/

namespace LoopNest

/-- Decimal digits after at most one plus sign, and the number they write. -/
def IsCount (value : List Char) (n : UInt64) : Prop :=
  ∃ digits, (value = digits ∨ value = '+' :: digits) ∧ digits ≠ [] ∧
    (∀ c ∈ digits, c.isDigit) ∧ Nat.ofDigitChars 10 digits 0 = n.toNat

variable {key value digits : List Char} {n : UInt64}

theorem foldlM_digits_eq_some_iff {start result : Nat} :
    digits.foldlM (fun n c => if c.isDigit then some (10 * n + (c.toNat - '0'.toNat)) else none)
        start = some result ↔
      (∀ c ∈ digits, c.isDigit) ∧ Nat.ofDigitChars 10 digits start = result := by
  induction digits generalizing start with
  | nil => simp [Nat.ofDigitChars]
  | cons c digits ih =>
    rw [List.foldlM_cons, List.forall_mem_cons, Nat.ofDigitChars_cons]
    by_cases hc : c.isDigit
    · rw [if_pos hc]
      simpa [hc] using ih
    · rw [if_neg hc]
      simp [hc]

theorem digitsValue?_eq_some_iff {result : Nat} : digitsValue? digits = some result ↔
    (∀ c ∈ digits, c.isDigit) ∧ Nat.ofDigitChars 10 digits 0 = result :=
  foldlM_digits_eq_some_iff

theorem unsigned_eq_some_iff :
    (if digits.isEmpty then none
      else (digitsValue? digits).bind fun n => if n < UInt64.size then some n.toUInt64 else none) =
        some n ↔
      digits ≠ [] ∧ (∀ c ∈ digits, c.isDigit) ∧ Nat.ofDigitChars 10 digits 0 = n.toNat := by
  rw [← digitsValue?_eq_some_iff]
  cases digits with
  | nil => simp
  | cons c digits =>
    rw [if_neg (by simp), Option.bind_eq_some_iff]
    constructor
    · rintro ⟨result, hresult, hword⟩
      split at hword
      · rename_i hlt
        cases hword
        refine ⟨List.cons_ne_nil c digits, ?_⟩
        rw [hresult, Nat.toUInt64, UInt64.toNat_ofNat_of_lt' hlt]
      · cases hword
    · rintro ⟨-, hresult⟩
      refine ⟨n.toNat, hresult, ?_⟩
      rw [if_pos n.toNat_lt_size, Nat.toUInt64, UInt64.ofNat_toNat]

theorem parseCount?_eq_some_iff : parseCount? value = some n ↔ IsCount value n := by
  by_cases hplus : ∃ digits, value = '+' :: digits
  · obtain ⟨digits, rfl⟩ := hplus
    rw [parseCount?, unsigned_eq_some_iff]
    constructor
    · exact fun hcount => ⟨digits, .inr rfl, hcount⟩
    · rintro ⟨digits', rfl | heq, hcount⟩
      · exact absurd (hcount.2.1 '+' List.mem_cons_self) (by decide)
      · cases heq
        exact hcount
  · rw [not_exists] at hplus
    rw [parseCount?, unsigned_eq_some_iff]
    · constructor
      · exact fun hcount => ⟨value, .inl rfl, hcount⟩
      · rintro ⟨digits, rfl | heq, hcount⟩
        · exact hcount
        · exact absurd heq (hplus digits)
    · exact hplus

theorem isCount_toDigits (n : UInt64) : IsCount (Nat.toDigits 10 n.toNat) n :=
  ⟨_, .inl rfl, Nat.toDigits_ne_nil, fun _ => Nat.isDigit_of_mem_toDigits (by decide) (by decide),
    Nat.ofDigitChars_toDigits (by decide) (by decide)⟩

inductive Setting where
  | workers (n : UInt64) (h : n ≠ 0)
  | unrollLimit (n : UInt64)
  | arityWarnings (flag : Bool)

def Setting.apply (s : LaunchSettings) : Setting → LaunchSettings
  | workers n _ => { s with workers := some n }
  | unrollLimit n => { s with unrollLimit := n }
  | arityWarnings flag => { s with arityWarnings := flag }

def flagText : Bool → List Char
  | true => "true".toList
  | false => "false".toList

inductive Asks : List Char → List Char → Setting → Prop where
  | workers {value : List Char} {n : UInt64} (hcount : IsCount value n) (h : n ≠ 0) :
    Asks SettingsKey.workers.name.toList value (.workers n h)
  | unrollLimit {value : List Char} {n : UInt64} (hcount : IsCount value n) :
    Asks SettingsKey.unrollLimit.name.toList value (.unrollLimit n)
  | arityWarnings (flag : Bool) :
    Asks SettingsKey.arityWarnings.name.toList (flagText flag) (.arityWarnings flag)

inductive Faults : List Char → List Char → SettingsError → Prop where
  | unknownKey {key value : List Char} (h : ∀ known : SettingsKey, key ≠ known.name.toList) :
    Faults key value (.unknownKey (String.ofList key))
  | notCount {known : SettingsKey} {value : List Char} (hknown : known ≠ .arityWarnings)
    (h : ∀ n, ¬IsCount value n) :
    Faults known.name.toList value (.notCount known.name (String.ofList value))
  | zeroWorkers {value : List Char} (h : IsCount value 0) :
    Faults SettingsKey.workers.name.toList value .zeroWorkers
  | notFlag {value : List Char} (h : ∀ flag, value ≠ flagText flag) :
    Faults SettingsKey.arityWarnings.name.toList value
      (.notFlag SettingsKey.arityWarnings.name (String.ofList value))

theorem ofName?_name (known : SettingsKey) :
    SettingsKey.ofName? (String.ofList known.name.toList) = some known := by
  rw [String.ofList_toList]
  cases known <;> rfl

theorem ofName?_eq_none (h : ∀ known : SettingsKey, key ≠ known.name.toList) :
    SettingsKey.ofName? (String.ofList key) = none := by
  refine List.find?_eq_none.mpr fun known _ heq => h known ?_
  rw [eq_of_beq heq, String.toList_ofList]

namespace LaunchSettings

variable {known : SettingsKey} (s : LaunchSettings)

theorem assignCount_of_isCount (h : IsCount value n) : assignCount known value = .ok n := by
  rw [assignCount, parseCount?_eq_some_iff.mpr h]

theorem assignCount_of_not (h : ∀ n, ¬IsCount value n) :
    assignCount known value = .error (.notCount known.name (String.ofList value)) := by
  have hnone : parseCount? value = none :=
    Option.eq_none_iff_forall_ne_some.mpr fun n hn => h n (parseCount?_eq_some_iff.mp hn)
  rw [assignCount, hnone]

theorem assignFlag_flagText (flag : Bool) : assignFlag known (flagText flag) = .ok flag := by
  cases flag <;> rfl

theorem assignFlag_of_not (h : ∀ flag, value ≠ flagText flag) :
    assignFlag known value = .error (.notFlag known.name (String.ofList value)) := by
  have hnone : parseFlag? value = none := by
    rw [parseFlag?, if_neg (show value ≠ "true".toList from h true),
      if_neg (show value ≠ "false".toList from h false)]
  rw [assignFlag, hnone]

theorem assign_workers : s.assign SettingsKey.workers.name.toList value =
    (do
      let n ← assignCount .workers value
      if n = 0 then .error .zeroWorkers else return { s with workers := some n }) := by
  rw [assign, ofName?_name]

theorem assign_unrollLimit : s.assign SettingsKey.unrollLimit.name.toList value =
    (do return { s with unrollLimit := ← assignCount .unrollLimit value }) := by
  rw [assign, ofName?_name]

theorem assign_arityWarnings : s.assign SettingsKey.arityWarnings.name.toList value =
    (do return { s with arityWarnings := ← assignFlag .arityWarnings value }) := by
  rw [assign, ofName?_name]

theorem assign_of_asks {setting : Setting} (h : Asks key value setting) :
    s.assign key value = .ok (setting.apply s) := by
  cases h with
  | workers hcount hn =>
    rw [assign_workers, assignCount_of_isCount hcount]
    exact if_neg hn
  | unrollLimit hcount =>
    rw [assign_unrollLimit, assignCount_of_isCount hcount]
    rfl
  | arityWarnings flag =>
    rw [assign_arityWarnings, assignFlag_flagText]
    rfl

theorem assign_of_faults {error : SettingsError} (h : Faults key value error) :
    s.assign key value = .error error := by
  cases h with
  | unknownKey h => rw [assign, ofName?_eq_none h]
  | @notCount known value hknown h =>
    cases known with
    | workers =>
      rw [assign_workers, assignCount_of_not h]
      rfl
    | unrollLimit =>
      rw [assign_unrollLimit, assignCount_of_not h]
      rfl
    | arityWarnings => exact absurd rfl hknown
  | zeroWorkers h =>
    rw [assign_workers, assignCount_of_isCount h]
    rfl
  | notFlag h =>
    rw [assign_arityWarnings, assignFlag_of_not h]
    rfl

end LaunchSettings

/-- Every assignment asks for something or has something wrong with it. -/
theorem asks_or_faults (key value : List Char) :
    (∃ setting, Asks key value setting) ∨ ∃ error, Faults key value error := by
  by_cases hknown : ∃ known : SettingsKey, key = known.name.toList
  · obtain ⟨known, rfl⟩ := hknown
    cases known with
    | workers =>
      by_cases hcount : ∃ n, IsCount value n
      · obtain ⟨n, hn⟩ := hcount
        by_cases hzero : n = 0
        · exact .inr ⟨_, .zeroWorkers (hzero ▸ hn)⟩
        · exact .inl ⟨_, .workers hn hzero⟩
      · exact .inr ⟨.notCount SettingsKey.workers.name (String.ofList value),
          .notCount (by decide) (not_exists.mp hcount)⟩
    | unrollLimit =>
      by_cases hcount : ∃ n, IsCount value n
      · obtain ⟨n, hn⟩ := hcount
        exact .inl ⟨_, .unrollLimit hn⟩
      · exact .inr ⟨.notCount SettingsKey.unrollLimit.name (String.ofList value),
          .notCount (by decide) (not_exists.mp hcount)⟩
    | arityWarnings =>
      by_cases hflag : ∃ flag, value = flagText flag
      · obtain ⟨flag, rfl⟩ := hflag
        exact .inl ⟨_, .arityWarnings flag⟩
      · exact .inr ⟨_, .notFlag (not_exists.mp hflag)⟩
  · exact .inr ⟨_, .unknownKey (not_exists.mp hknown)⟩

end LoopNest
