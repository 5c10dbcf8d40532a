import LoopNest.Proofs.Settings.Lines
import LoopNest.Proofs.Settings.Values

/-! Assignments as they are written: white space around the key and the value, a key by itself or in
double quotes, and perhaps a comment at the end. -/

namespace LoopNest

variable {known : SettingsKey} {key value indent gap after : List Char}

def Spells (known : SettingsKey) (key : List Char) : Prop :=
  key = known.name.toList ∨ key = '"' :: (known.name.toList ++ ['"'])

theorem Spells.strips (h : Spells known key) : Strips (· == '"') key known.name.toList := by
  have hhead : ∀ c, known.name.toList.head? = some c → (c == '"') = false := fun c hc => by
    cases known <;> cases hc <;> rfl
  have hlast : ∀ c, known.name.toList.getLast? = some c → (c == '"') = false := fun c hc => by
    cases known <;> cases hc <;> rfl
  obtain rfl | rfl := h
  · exact ⟨[], [], by simp, by simp, by simp, hhead, hlast⟩
  · exact ⟨['"'], ['"'], by simp, by simp, by simp, hhead, hlast⟩

theorem Spells.exists_cons (h : Spells known key) :
    ∃ c rest, key = c :: rest ∧ isBlank c = false ∧ c ≠ '#' ∧ c ≠ '[' := by
  obtain rfl | rfl := h
  · cases known <;> exact ⟨_, _, rfl, rfl, by decide, by decide⟩
  · exact ⟨_, _, rfl, rfl, by decide, by decide⟩

theorem Spells.equals_not_mem (h : Spells known key) : '=' ∉ key := by
  obtain rfl | rfl := h <;> cases known <;> decide

theorem Spells.getLast? {c : Char} (h : Spells known key) (hc : key.getLast? = some c) :
    isBlank c = false := by
  obtain rfl | rfl := h
  · cases known <;> cases hc <;> rfl
  · rw [← List.cons_append, List.getLast?_concat] at hc
    cases hc
    rfl

theorem isBlank_of_isDigit {c : Char} (h : c.isDigit) : isBlank c = false := by
  have hrange : 48 ≤ c.toNat ∧ c.toNat ≤ 57 := by
    simpa [Char.isDigit, UInt32.le_iff_toNat_le] using h
  simp only [isBlank, Bool.or_eq_false_iff, Bool.and_eq_false_iff, decide_eq_false_iff_not,
    beq_eq_false_iff_ne]
  omega

theorem Asks.char {setting : Setting} {c : Char} (h : Asks key value setting) (hc : c ∈ value) :
    isBlank c = false ∧ c ≠ '#' := by
  have hcount : ∀ n, IsCount value n → isBlank c = false ∧ c ≠ '#' := by
    rintro n ⟨digits, hdigits, -, hall, -⟩
    have hmem : c ∈ digits ∨ c = '+' := by
      obtain rfl | rfl := hdigits
      · exact .inl hc
      · exact (List.mem_cons.mp hc).symm
    obtain hmem | rfl := hmem
    · exact ⟨isBlank_of_isDigit (hall c hmem), fun heq => by simpa [heq] using hall c hmem⟩
    · decide
  cases h with
  | workers h => exact hcount _ h
  | unrollLimit h => exact hcount _ h
  | arityWarnings flag =>
    have hall : (flagText flag).all fun c => !isBlank c && c != '#' := by cases flag <;> rfl
    simpa using List.all_eq_true.mp hall c hc

theorem Asks.isValue {setting : Setting} {pad trail comment : List Char}
    (h : Asks key value setting) (hpad : ∀ c ∈ pad, isBlank c) (htrail : ∀ c ∈ trail, isBlank c)
    (hcomment : comment = [] ∨ comment.head? = some '#') :
    IsValue (pad ++ value ++ trail ++ comment) value := by
  refine ⟨pad ++ value ++ trail, ⟨pad, trail, rfl, hpad, htrail, ?_, ?_⟩, ?_, ?_⟩
  · exact fun c hc => (h.char (List.mem_of_mem_head? hc)).1
  · exact fun c hc => (h.char (List.mem_of_getLast? hc)).1
  · rw [List.mem_append, List.mem_append]
    rintro ((hmem | hmem) | hmem)
    · exact not_mem_of_forall hpad rfl hmem
    · exact (h.char hmem).2 rfl
    · exact not_mem_of_forall htrail rfl hmem
  · obtain rfl | hhead := hcomment
    · exact .inl (List.append_nil _)
    · obtain ⟨rest, rfl⟩ := List.head?_eq_some_iff.mp hhead
      exact .inr ⟨rest, rfl⟩

/-- A well-formed assignment with any white space around the key and the value and perhaps a comment
after it. -/
theorem Asks.assigns {setting : Setting} {pad trail comment : List Char}
    (h : Asks known.name.toList value setting) (hkey : Spells known key)
    (hindent : ∀ c ∈ indent, isBlank c) (hgap : ∀ c ∈ gap, isBlank c)
    (hpad : ∀ c ∈ pad, isBlank c) (htrail : ∀ c ∈ trail, isBlank c)
    (hcomment : comment = [] ∨ comment.head? = some '#') :
    Assigns (indent ++ key ++ gap ++ '=' :: (pad ++ value ++ trail ++ comment))
      known.name.toList value := by
  obtain ⟨c, rest, hcons, hc, hhash, hbracket⟩ := hkey.exists_cons
  have hopens : OpensWith c (indent ++ key ++ gap ++ '=' :: (pad ++ value ++ trail ++ comment)) :=
    ⟨indent, rest ++ gap ++ '=' :: (pad ++ value ++ trail ++ comment), by rw [hcons]; simp, hindent⟩
  refine ⟨?_, ?_, _, _, rfl, ?_, ⟨key, ⟨indent, gap, rfl, hindent, hgap, ?_, ?_⟩, hkey.strips⟩,
    h.isValue hpad htrail hcomment⟩
  · rw [isIdle_iff]
    rintro (hblank | hidle)
    · exact not_mem_of_forall hblank hc (by simp [hcons])
    · exact hhash (hopens.unique hc hidle rfl)
  · exact fun name hheader =>
      hbracket (hopens.unique hc (exists_isHeader_iff.mp ⟨name, hheader⟩).1 rfl)
  · rw [List.mem_append, List.mem_append]
    rintro ((hmem | hmem) | hmem)
    · exact not_mem_of_forall hindent rfl hmem
    · exact hkey.equals_not_mem hmem
    · exact not_mem_of_forall hgap rfl hmem
  · rw [hcons]
    rintro c' ⟨⟩
    exact hc
  · exact fun c' hc' => hkey.getLast? hc'

end LoopNest
