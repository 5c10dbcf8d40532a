import LoopNest.Domain.Basic
import LoopNest.Proofs.Bound.Parts
import LoopNest.Proofs.Scalar.Reading

/-! Which bounds a call accepts. Two recursions look for what is wrong, one for floats and one for
literals that are too large; together they look at every part of a bound. -/

namespace LoopNest

namespace IntLiteral

theorem toInt64?_eq_none_iff (l : IntLiteral) :
    l.toInt64? = none ↔ l.kind = .u64 ∧ wordBound ≤ l.value := by
  rw [toInt64?, narrow?_eq_none_iff]
  by_cases hk : l.kind = .u64
  · have hleast : 0 ≤ l.value := by
      have h := l.least_le
      rw [hk] at h
      exact h
    simp only [hk, true_and, InWord]
    omega
  · simp [hk, IntKind.inWord_of_range ⟨l.least_le, l.le_greatest⟩ hk]

end IntLiteral

namespace Bound

def IsFloating : Bound → Prop
  | .float _ => True
  | .param _ kind | .load _ _ kind _ => kind.isFloat
  | .int _ | .arith .. => False

def IsOversized : Bound → Prop
  | .int literal => literal.kind = .u64 ∧ wordBound ≤ literal.value
  | .float _ | .param .. | .load .. | .arith .. => False

/-- No part is a float or an oversized literal. -/
def Acceptable (b : Bound) : Prop := ∀ part ∈ b.parts, ¬part.IsFloating ∧ ¬part.IsOversized

theorem allIntegral_iff {bs : List Bound} : allIntegral bs ↔ ∀ b ∈ bs, b.isIntegral := by
  induction bs with
  | nil => simp [allIntegral]
  | cons b bs ih => simp [allIntegral, ih]

theorem firstUnrepresentable?_eq_none_iff {bs : List Bound} :
    firstUnrepresentable? bs = none ↔ ∀ b ∈ bs, b.unrepresentable? = none := by
  induction bs with
  | nil => simp [firstUnrepresentable?]
  | cons b bs ih => simp [firstUnrepresentable?, ih]

theorem isIntegral_iff {b : Bound} : b.isIntegral ↔ ∀ part ∈ b.parts, ¬part.IsFloating := by
  induction b with
  | int literal => simp [isIntegral, parts, IsFloating]
  | float value => simp [isIntegral, parts, IsFloating]
  | param name kind => simp [isIntegral, parts, IsFloating, ScalarKind.isFloat]
  | load field name kind index ih =>
    have hindex : allIntegral index ↔ ∀ i ∈ index, ∀ part ∈ i.parts, ¬part.IsFloating :=
      allIntegral_iff.trans (forall₂_congr ih)
    rw [isIntegral, Bool.and_eq_true, hindex, forall_mem_parts_load, and_comm]
    simp [IsFloating, ScalarKind.isFloat]
  | arith op left right ihl ihr =>
    rw [isIntegral, Bool.and_eq_true, ihl, ihr, forall_mem_parts_arith]
    simp [IsFloating]

theorem unrepresentable?_eq_none_iff {b : Bound} :
    b.unrepresentable? = none ↔ ∀ part ∈ b.parts, ¬part.IsOversized := by
  induction b with
  | int literal =>
    simp [unrepresentable?, parts, IsOversized, IntLiteral.toInt64?_eq_none_iff]
  | float value => simp [unrepresentable?, parts, IsOversized]
  | param name kind => simp [unrepresentable?, parts, IsOversized]
  | load field name kind index ih =>
    have hindex : firstUnrepresentable? index = none ↔
        ∀ i ∈ index, ∀ part ∈ i.parts, ¬part.IsOversized :=
      firstUnrepresentable?_eq_none_iff.trans (forall₂_congr ih)
    rw [unrepresentable?, hindex, forall_mem_parts_load]
    simp [IsOversized]
  | arith op left right ihl ihr =>
    rw [unrepresentable?, Option.or_eq_none_iff, ihl, ihr, forall_mem_parts_arith]
    simp [IsOversized]

theorem check_eq_ok_iff {b : Bound} {u : Unit} : b.check = .ok u ↔ b.Acceptable := by
  simp only [Acceptable, forall_and, ← isIntegral_iff, ← unrepresentable?_eq_none_iff]
  rw [check]
  cases b.isIntegral with
  | false => simp
  | true => cases b.unrepresentable? <;> simp

theorem check_ne_components {b : Bound} {count : Nat} : b.check ≠ .error (.components count) := by
  rw [check]
  split
  · split <;> simp
  · simp

end Bound

end LoopNest
