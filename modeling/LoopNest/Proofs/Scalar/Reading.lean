import LoopNest.Scalar.Kind
import Mathlib.Algebra.Ring.Int.Defs
import Mathlib.Algebra.Ring.Nat

/-! What the bits of an integer cell stand for. Cells of signed kinds are read as signed words and
the others as unsigned ones; whatever is encoded reads back as a value of the kind. A signed word
holds every such value, those of `u64` from two to the 63rd on apart. -/

namespace LoopNest

def InWord (n : Int) : Prop := -wordBound ≤ n ∧ n < wordBound

instance (n : Int) : Decidable (InWord n) := inferInstanceAs (Decidable (_ ∧ _))

theorem inWord_toInt (v : Int64) : InWord v.toInt := ⟨v.le_toInt, v.toInt_lt⟩

theorem narrow?_eq_some_iff {n : Int} {v : Int64} : narrow? n = some v ↔ n = v.toInt := by
  constructor
  · exact fun h => (narrow?_eq_some h).symm
  · rintro rfl
    exact narrow?_toInt v

theorem narrow?_eq_none_iff {n : Int} : narrow? n = none ↔ ¬InWord n := by
  rw [← Option.not_isSome_iff_eq_none, narrow?_isSome_iff, InWord]

theorem toInt_toInt64 (bits : UInt64) : bits.toInt64.toInt = (bits.toNat : Int).bmod (2 ^ 64) := by
  rw [← Int64.toInt_toBitVec, UInt64.toBitVec_toInt64, BitVec.toInt_eq_toNat_bmod]
  rfl

theorem toInt_toInt64_of_lt {bits : UInt64} (h : (bits.toNat : Int) < wordBound) :
    bits.toInt64.toInt = bits.toNat := by
  rw [wordBound] at h
  rw [toInt_toInt64]
  exact Int.bmod_eq_of_le (by omega) (by omega)

theorem toInt64_neg_iff {bits : UInt64} : bits.toInt64 < 0 ↔ wordBound ≤ (bits.toNat : Int) := by
  have hlt := bits.toNat_lt
  rw [Int64.lt_iff_toInt_lt, toInt_toInt64, Int64.toInt_zero, wordBound, Int.bmod_def]
  split <;> omega

theorem natCast_toNat_ofInt (n : Int) : ((UInt64.ofInt n).toNat : Int) = n % 2 ^ 64 := by
  rw [UInt64.ofInt, UInt64.toNat_ofNat']
  omega

namespace IntKind

/-- The integer that the bits of a cell of this kind stand for. -/
def read (k : IntKind) (bits : UInt64) : Int :=
  if k.signed then bits.toInt64.toInt else bits.toNat

def Range (k : IntKind) (n : Int) : Prop := k.least ≤ n ∧ n ≤ k.greatest

instance (k : IntKind) (n : Int) : Decidable (k.Range n) := inferInstanceAs (Decidable (_ ∧ _))

variable {k : IntKind}

theorem range_wrap (k : IntKind) (n : Int) : k.Range (k.wrap n) := by
  cases k <;> simp [Range, wrap, least, greatest, width, signed, Int.bmod_def] <;> omega

theorem inWord_of_range {n : Int} (h : k.Range n) (hk : k ≠ .u64) : InWord n := by
  have hbounds : -wordBound ≤ k.least ∧ k.greatest < wordBound := by
    cases k with
    | u64 => exact absurd rfl hk
    | _ => decide
  exact ⟨Int.le_trans hbounds.1 h.1, Int.lt_of_le_of_lt h.2 hbounds.2⟩

theorem read_ofInt {n : Int} (h : k.Range n) : k.read (UInt64.ofInt n) = n := by
  rw [read, toInt_toInt64, natCast_toNat_ofInt]
  cases k <;> simp [Range, least, greatest, width, signed, Int.bmod_def] at h ⊢ <;> omega

theorem toInt_toInt64_of_inWord {bits : UInt64} (h : InWord (k.read bits)) :
    bits.toInt64.toInt = k.read bits := by
  rw [read] at h ⊢
  split at h
  · rw [if_pos ‹_›]
  · rw [if_neg ‹_›, toInt_toInt64_of_lt h.2]

/-- Only cells of `u64` can hold what a signed word does not, and then the word is negative. -/
theorem inWord_read_iff {bits : UInt64} (h : k.Range (k.read bits)) :
    InWord (k.read bits) ↔ ¬(k = .u64 ∧ bits.toInt64 < 0) := by
  by_cases hk : k = .u64
  · have hread : k.read bits = bits.toNat := hk ▸ rfl
    rw [hread, InWord, toInt64_neg_iff, wordBound]
    simp only [hk, true_and]
    omega
  · simp [hk, inWord_of_range h hk]

theorem range_read_encodeInt (k : IntKind) (v : Int64) :
    k.Range (k.read ((ScalarKind.int k).encodeInt v)) := by
  rw [ScalarKind.encodeInt, read_ofInt (k.range_wrap _)]
  exact k.range_wrap _

/-- A word after it went through a cell of the kind. -/
def wrapWord (k : IntKind) (v : Int64) : Int64 := .ofInt (k.wrap v.toInt)

theorem decodeInt_encodeInt (k : IntKind) (v : Int64) :
    (ScalarKind.int k).decodeInt ((ScalarKind.int k).encodeInt v) = k.wrapWord v := by
  rw [ScalarKind.decodeInt, ScalarKind.encodeInt, wrapWord, ← Int64.toInt_inj, toInt_toInt64,
    natCast_toNat_ofInt, Int64.toInt_ofInt]
  exact Int.emod_bmod _ (2 ^ 64)

theorem wrap_emod (k : IntKind) (n : Int) : k.wrap n % 2 ^ k.width = n % 2 ^ k.width := by
  cases k <;> simp [wrap, width, signed, Int.bmod_def] <;> omega

theorem toInt_wrapWord (h : k ≠ .u64) (v : Int64) :
    k.Range (k.wrapWord v).toInt ∧ (k.wrapWord v).toInt % 2 ^ k.width = v.toInt % 2 ^ k.width := by
  have hrange := k.range_wrap v.toInt
  have hword := inWord_of_range hrange h
  have hvalue : (k.wrapWord v).toInt = k.wrap v.toInt :=
    Int64.toInt_ofInt_of_le hword.1 hword.2
  rw [hvalue]
  exact ⟨hrange, k.wrap_emod _⟩

theorem wrapWord_u64 (v : Int64) : wrapWord .u64 v = v := by
  rw [wrapWord, ← Int64.toInt_inj, Int64.toInt_ofInt]
  have hwrap : IntKind.wrap .u64 v.toInt = v.toInt % 2 ^ 64 := rfl
  rw [hwrap]
  exact (Int.emod_bmod _ (2 ^ 64)).trans (Int64.toInt_bmod_size v)

theorem range_read_zeroBits (k : IntKind) : k.Range (k.read (ScalarKind.int k).zeroBits) := by
  cases k <;> decide

end IntKind

end LoopNest
