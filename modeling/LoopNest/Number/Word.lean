/-!
Exact integers narrowed to 64-bit words: an operation is done on `Int` and its result is kept only
if the word represents it.
-/

namespace LoopNest

/-- Two to the 63rd: the signed words are the integers from its negative up to, not including, it. -/
abbrev wordBound : Int := 0x8000000000000000

def narrow? (n : Int) : Option Int64 :=
  if -wordBound ≤ n ∧ n < wordBound then some (Int64.ofInt n) else none

def mulCount? (a b : UInt64) : Option UInt64 :=
  if a.toNat * b.toNat < UInt64.size then some (a * b) else none

/-- The product from the left, as long as every step of it fits. -/
def mulCounts? (counts : List UInt64) : Option UInt64 := counts.foldlM mulCount? 1

def mulAddCount? (a b c : UInt64) : Option UInt64 :=
  if a.toNat * b.toNat + c.toNat < UInt64.size then some (a * b + c) else none

theorem narrow?_isSome_iff {n : Int} : (narrow? n).isSome ↔ -wordBound ≤ n ∧ n < wordBound := by
  simp [narrow?]

theorem narrow?_eq_some {n : Int} {v : Int64} (h : narrow? n = some v) : v.toInt = n := by
  unfold narrow? at h
  split at h
  · cases h
    exact Int64.toInt_ofInt_of_le (by grind) (by grind)
  · cases h

theorem narrow?_toInt (v : Int64) : narrow? v.toInt = some v := by
  rw [narrow?, if_pos ⟨v.le_toInt, v.toInt_lt⟩, Int64.ofInt_toInt]

theorem mulCount?_eq_some {a b c : UInt64} (h : mulCount? a b = some c) :
    c.toNat = a.toNat * b.toNat := by
  unfold mulCount? at h
  split at h
  · cases h
    rw [UInt64.toNat_mul]
    exact Nat.mod_eq_of_lt (by assumption)
  · cases h

theorem mulAddCount?_eq_some_iff {a b c d : UInt64} :
    mulAddCount? a b c = some d ↔ d.toNat = a.toNat * b.toNat + c.toNat := by
  unfold mulAddCount?
  split
  · rename_i h
    have hvalue : (a * b + c).toNat = a.toNat * b.toNat + c.toNat := by
      rw [UInt64.toNat_add, UInt64.toNat_mul, Nat.mod_add_mod]
      exact Nat.mod_eq_of_lt h
    rw [Option.some.injEq, ← UInt64.toNat_inj, hvalue, eq_comm]
  · rename_i h
    have hlt : d.toNat < UInt64.size := d.toNat_lt
    simp only [reduceCtorEq, false_iff]
    omega

end LoopNest
