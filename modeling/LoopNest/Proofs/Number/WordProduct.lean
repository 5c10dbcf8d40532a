import LoopNest.Number.Word
import Mathlib.Algebra.BigOperators.Ring.List
import Mathlib.Data.List.Infix
import Mathlib.Tactic.Linarith

/-! Products of machine words. A product that wraps is the exact product modulo the word size; one
that is checked at every factor fails exactly when the whole product does not fit, as long as no
factor is zero. -/

namespace LoopNest

theorem toNat_toUInt64_of_lt {n : Nat} (h : n < UInt64.size) : n.toUInt64.toNat = n :=
  UInt64.toNat_ofNat_of_lt' h

theorem toNat_succ {w : UInt64} (h : w.toNat + 1 < UInt64.size) : (w + 1).toNat = w.toNat + 1 := by
  rw [UInt64.toNat_add]
  exact Nat.mod_eq_of_lt h

theorem mulCount?_eq (a b : UInt64) :
    mulCount? a b =
      if a.toNat * b.toNat < UInt64.size then some (a.toNat * b.toNat).toUInt64 else none := by
  have hmul : a * b = (a.toNat * b.toNat).toUInt64 := by
    rw [← UInt64.toNat_inj, UInt64.toNat_mul]
    rfl
  rw [mulCount?, hmul]

theorem prod_map_toNat_eq_zero_iff {words : List UInt64} :
    (words.map UInt64.toNat).prod = 0 ↔ 0 ∈ words := by
  rw [List.prod_eq_zero_iff, List.mem_map]
  constructor
  · rintro ⟨s, hs, h⟩
    have hzero : s = 0 := UInt64.toNat_inj.mp h
    exact hzero ▸ hs
  · intro h
    exact ⟨0, h, rfl⟩

/-- Without a zero among them, words fail to multiply exactly when their product does not fit. -/
theorem foldlM_mulCount? {words : List UInt64} {start : UInt64} (hstart : 0 < start.toNat)
    (hwords : 0 ∉ words) :
    words.foldlM mulCount? start =
      if start.toNat * (words.map UInt64.toNat).prod < UInt64.size then
        some (start.toNat * (words.map UInt64.toNat).prod).toUInt64
      else none := by
  induction words generalizing start with
  | nil =>
    simp only [List.foldlM_nil, List.map_nil, List.prod_nil, mul_one]
    rw [if_pos start.toNat_lt]
    simp
  | cons s words ih =>
    rw [List.mem_cons, not_or] at hwords
    have hs : 0 < s.toNat := Nat.pos_of_ne_zero fun h => hwords.1 (UInt64.toNat_inj.mp h.symm)
    have hrest : 0 < (words.map UInt64.toNat).prod :=
      Nat.pos_of_ne_zero fun h => hwords.2 (prod_map_toNat_eq_zero_iff.mp h)
    rw [List.foldlM_cons, mulCount?_eq, List.map_cons, List.prod_cons, ← mul_assoc]
    by_cases hfit : start.toNat * s.toNat < UInt64.size
    · have hvalue := toNat_toUInt64_of_lt hfit
      rw [if_pos hfit]
      have hpos : 0 < (start.toNat * s.toNat).toUInt64.toNat := by
        rw [hvalue]
        exact Nat.mul_pos hstart hs
      have hnext := ih hpos hwords.2
      rw [hvalue] at hnext
      exact hnext
    · have hle := Nat.le_mul_of_pos_right (start.toNat * s.toNat) hrest
      rw [if_neg hfit, if_neg (by omega)]
      rfl

/-- The words multiply to a word at every step from the left. -/
def ProductsFit (words : List UInt64) : Prop :=
  ∀ front ∈ words.inits, (front.map UInt64.toNat).prod < UInt64.size

instance (words : List UInt64) : Decidable (ProductsFit words) :=
  inferInstanceAs (Decidable (∀ front ∈ words.inits, _))

theorem mulCount?_eq_some_iff {a b c : UInt64} :
    mulCount? a b = some c ↔ c.toNat = a.toNat * b.toNat := by
  refine ⟨mulCount?_eq_some, fun h => ?_⟩
  rw [mulCount?_eq, ← h, if_pos c.toNat_lt]
  simp

theorem foldlM_mulCount?_eq_some_iff {words : List UInt64} {start c : UInt64} :
    words.foldlM mulCount? start = some c ↔
      (∀ front ∈ words.inits, start.toNat * (front.map UInt64.toNat).prod < UInt64.size) ∧
        c.toNat = start.toNat * (words.map UInt64.toNat).prod := by
  induction words generalizing start with
  | nil =>
    have hlt : start.toNat < UInt64.size := start.toNat_lt
    simp [← UInt64.toNat_inj, hlt, eq_comm]
  | cons w words ih =>
    have hlt : start.toNat < UInt64.size := start.toNat_lt
    simp only [List.foldlM_cons, Option.bind_eq_bind, Option.bind_eq_some_iff, ih,
      mulCount?_eq_some_iff, List.inits_cons, List.forall_mem_cons, List.forall_mem_map,
      List.map_nil, List.prod_nil, mul_one, List.map_cons, List.prod_cons, ← mul_assoc, hlt,
      true_and]
    constructor
    · rintro ⟨next, hnext, hsteps, hc⟩
      exact ⟨by simpa only [hnext] using hsteps, by rw [hc, hnext]⟩
    · rintro ⟨hsteps, hc⟩
      have hword : start.toNat * w.toNat < UInt64.size := by
        simpa using hsteps [] (by simp)
      refine ⟨(start.toNat * w.toNat).toUInt64, toNat_toUInt64_of_lt hword, ?_⟩
      rw [toNat_toUInt64_of_lt hword]
      exact ⟨hsteps, hc⟩

theorem mulCounts?_eq_some_iff {words : List UInt64} {c : UInt64} :
    mulCounts? words = some c ↔ ProductsFit words ∧ c.toNat = (words.map UInt64.toNat).prod := by
  rw [mulCounts?, foldlM_mulCount?_eq_some_iff, ProductsFit]
  simp only [UInt64.toNat_one, one_mul]

theorem prod_le_of_mem_inits {words front : List UInt64} (h : 0 ∉ words)
    (hfront : front ∈ words.inits) :
    (front.map UInt64.toNat).prod ≤ (words.map UInt64.toNat).prod := by
  obtain ⟨rest, rfl⟩ := (List.mem_inits front words).mp hfront
  have hrest : 0 ∉ rest := fun hzero => h (List.mem_append_right _ hzero)
  rw [List.map_append, List.prod_append]
  exact Nat.le_mul_of_pos_right _ (Nat.pos_of_ne_zero (mt prod_map_toNat_eq_zero_iff.mp hrest))

theorem toNat_foldl_mul (words : List UInt64) (start : UInt64) :
    (words.foldl (· * ·) start).toNat =
      start.toNat * (words.map UInt64.toNat).prod % UInt64.size := by
  induction words generalizing start with
  | nil =>
    simp only [List.foldl_nil, List.map_nil, List.prod_nil, mul_one]
    exact (Nat.mod_eq_of_lt start.toNat_lt).symm
  | cons w words ih =>
    rw [List.foldl_cons, ih, UInt64.toNat_mul, List.map_cons, List.prod_cons, ← mul_assoc]
    exact Nat.mod_mul_mod _ _ _

end LoopNest
