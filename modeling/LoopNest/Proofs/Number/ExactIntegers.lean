import LoopNest.Number.Binary64
import LoopNest.Proofs.Number.WordProduct
import Mathlib.Tactic.Ring

/-! The integers among the doubles. A double that is an integer truncates to it, and the double
nearest to such an integer is that integer again: its leading 53 bits are all there is of it, so that
rounding has nothing to cut off. -/

namespace LoopNest

/-- Whether a value is an integer. Both zeros are the same one. -/
def BinaryValue.Is : BinaryValue → Int → Prop
  | .finite negative significand exponent, n =>
    ∃ magnitude : Nat, n = (if negative then -(magnitude : Int) else magnitude) ∧
      significand * 2 ^ exponent.toNat = magnitude * 2 ^ (-exponent).toNat
  | _, _ => False

namespace BinaryValue.Is

variable {v : BinaryValue} {m n : Int}

theorem truncate_eq (h : v.Is n) : v.truncate = some n := by
  cases v with
  | nan => cases h
  | infinite => cases h
  | finite negative significand exponent =>
    obtain ⟨magnitude, rfl, hscale⟩ := h
    have hmagnitude : significand <<< exponent.toNat >>> (-exponent).toNat = magnitude := by
      rw [Nat.shiftLeft_eq, hscale, Nat.shiftRight_eq_div_pow,
        Nat.mul_div_cancel _ (Nat.two_pow_pos _)]
    rw [truncate, hmagnitude]

theorem unique (h : v.Is n) (h' : v.Is m) : n = m :=
  Option.some.inj (h.truncate_eq.symm.trans h'.truncate_eq)

theorem toInt_toInt64 (h : v.Is n) :
    v.toInt64.toInt = max (-wordBound) (min n (wordBound - 1)) := by
  have hword : v.toInt64 = .ofInt (max (-wordBound) (min n (wordBound - 1))) := by
    simp only [toInt64, h.truncate_eq]
  rw [hword]
  exact Int64.toInt_ofInt_of_le (by grind) (by grind)

end BinaryValue.Is

theorem roundHalfEven_mul (q : Nat) {den : Nat} (h : 0 < den) : roundHalfEven (q * den) den = q := by
  simp [roundHalfEven, Nat.mul_div_cancel q h, h]

theorem log2Quotient_one {n : Nat} (h : n ≠ 0) : log2Quotient n 1 = n.log2 := by
  have hle := Nat.log2_self_le h
  have hone : Nat.log2 1 = 0 := by decide
  simp [log2Quotient, Nat.shiftLeft_eq, hone, Nat.not_lt.mpr hle]

namespace BinaryFormat

theorem decode_double_eq (word : Nat) :
    double.decode word =
      if word / 2 ^ 52 % 2 ^ 11 = 2047 then
        if word % 2 ^ 52 = 0 then .infinite (word / 2 ^ 63 % 2 == 1) else .nan
      else if word / 2 ^ 52 % 2 ^ 11 = 0 then
        .finite (word / 2 ^ 63 % 2 == 1) (word % 2 ^ 52) (-1074)
      else .finite (word / 2 ^ 63 % 2 == 1) (2 ^ 52 + word % 2 ^ 52)
        (-1074 + (word / 2 ^ 52 % 2 ^ 11 - 1 : Nat)) := by
  rw [← Nat.shiftRight_eq_div_pow word 52]
  rfl

theorem withSign_double (negative : Bool) (magnitude : Nat) :
    double.withSign negative magnitude = (if negative then 2 ^ 63 else 0) + magnitude := by
  cases negative
  · exact (Nat.zero_add magnitude).symm
  · rfl

theorem decode_withSign (negative : Bool) {exponent fraction : Nat} (hpos : 0 < exponent)
    (hexponent : exponent < 2047) (hfraction : fraction < 2 ^ 52) :
    double.decode (double.withSign negative (exponent * 2 ^ 52 + fraction)) =
      .finite negative (2 ^ 52 + fraction) (exponent - 1075) := by
  rw [decode_double_eq, withSign_double]
  set word := (if negative then 2 ^ 63 else 0) + (exponent * 2 ^ 52 + fraction) with hword
  have hsign : (word / 2 ^ 63 % 2 == 1) = negative := by
    cases negative <;> simp [hword] <;> omega
  have hexponentField : word / 2 ^ 52 % 2 ^ 11 = exponent := by
    cases negative <;> simp [hword] <;> omega
  have hfractionField : word % 2 ^ 52 = fraction := by
    cases negative <;> simp [hword] <;> omega
  rw [hsign, hexponentField, hfractionField, if_neg (by omega), if_neg (by omega)]
  congr 1
  omega

theorem bounds_of_decode {word significand : Nat} {negative : Bool} {exponent : Int}
    (h : double.decode word = .finite negative significand exponent) :
    significand < 2 ^ 53 ∧ exponent ≤ 971 := by
  rw [decode_double_eq] at h
  split at h
  · split at h <;> cases h
  · split at h
    · cases h
      omega
    · cases h
      omega

variable {n significand : Nat}

theorem significand_bounds (hn : n ≠ 0)
    (hbits : n * 2 ^ (52 - n.log2) = significand * 2 ^ (n.log2 - 52)) :
    2 ^ 52 ≤ significand ∧ significand < 2 ^ 53 := by
  have hpos : 0 < 2 ^ (n.log2 - 52) := Nat.two_pow_pos _
  have hscale : 2 ^ n.log2 * 2 ^ (52 - n.log2) = 2 ^ 52 * 2 ^ (n.log2 - 52) := by
    rw [← Nat.pow_add, ← Nat.pow_add]
    congr 1
    omega
  constructor
  · refine Nat.le_of_mul_le_mul_right ?_ hpos
    rw [← hscale, ← hbits]
    exact Nat.mul_le_mul_right _ (Nat.log2_self_le hn)
  · refine Nat.lt_of_mul_lt_mul_right (a := 2 ^ (n.log2 - 52)) ?_
    calc
      significand * 2 ^ (n.log2 - 52) = n * 2 ^ (52 - n.log2) := hbits.symm
      _ < 2 ^ (n.log2 + 1) * 2 ^ (52 - n.log2) :=
        Nat.mul_lt_mul_of_pos_right Nat.lt_log2_self (Nat.two_pow_pos _)
      _ = 2 * (2 ^ n.log2 * 2 ^ (52 - n.log2)) := by ring
      _ = 2 ^ 53 * 2 ^ (n.log2 - 52) := by rw [hscale]; ring

theorem ofScaled_double (hn : n ≠ 0)
    (hbits : n * 2 ^ (52 - n.log2) = significand * 2 ^ (n.log2 - 52)) (hlog : n.log2 ≤ 1023) :
    double.ofScaled n 0 = (n.log2 + 1022) * 2 ^ 52 + significand := by
  have hbounds := significand_bounds hn hbits
  have hunit : max double.minExponent (log2Quotient n 1 - double.fractionBits) = n.log2 - 52 := by
    rw [log2Quotient_one hn]
    exact max_eq_right (by simp [minExponent, double]; omega)
  have hround : roundHalfEven (n <<< (-((n.log2 : Int) - 52)).toNat)
      (1 <<< ((n.log2 : Int) - 52).toNat) = significand := by
    have hleft : (-((n.log2 : Int) - 52)).toNat = 52 - n.log2 := by omega
    have hright : ((n.log2 : Int) - 52).toNat = n.log2 - 52 := by omega
    rw [hleft, hright, Nat.shiftLeft_eq, Nat.shiftLeft_eq, Nat.one_mul, hbits]
    exact roundHalfEven_mul significand (Nat.two_pow_pos _)
  have hfield : ((n.log2 : Int) - 52 - double.minExponent).toNat = n.log2 + 1022 := by
    simp [minExponent, double]
    omega
  have hone : double.ofScaled n 0 = double.ofQuotient n 1 := rfl
  rw [hone, ofQuotient, if_neg hn]
  simp only [hunit, hround, hfield]
  have hword : (n.log2 + 1022) <<< double.fractionBits = (n.log2 + 1022) * 2 ^ 52 :=
    Nat.shiftLeft_eq ..
  have hinfinity : double.infinity = 2047 * 2 ^ 52 := by decide
  rw [hword, hinfinity]
  exact min_eq_right (by omega)

/-- A double that is an integer other than zero has a significand of 53 bits for it. -/
theorem exists_significand {word : Nat} {m : Int} (h : (double.decode word).Is m) (hm : m ≠ 0) :
    m.natAbs.log2 ≤ 1023 ∧ ∃ significand,
      m.natAbs * 2 ^ (52 - m.natAbs.log2) = significand * 2 ^ (m.natAbs.log2 - 52) := by
  cases hvalue : double.decode word with
  | nan => rw [hvalue] at h; cases h
  | infinite => rw [hvalue] at h; cases h
  | finite negative significand exponent =>
    obtain ⟨hsignificand, hexponent⟩ := bounds_of_decode hvalue
    rw [hvalue] at h
    obtain ⟨n, rfl, hscale⟩ := h
    have hmagnitude : (if negative then -(n : Int) else n).natAbs = n := by
      cases negative <;> simp
    rw [hmagnitude]
    have hn : n ≠ 0 := by
      rintro rfl
      simp at hm
    have hlt : n < 2 ^ (53 + exponent.toNat) := calc
      n ≤ n * 2 ^ (-exponent).toNat := Nat.le_mul_of_pos_right n (Nat.two_pow_pos _)
      _ = significand * 2 ^ exponent.toNat := hscale.symm
      _ < 2 ^ 53 * 2 ^ exponent.toNat :=
        Nat.mul_lt_mul_of_pos_right hsignificand (Nat.two_pow_pos _)
      _ = 2 ^ (53 + exponent.toNat) := (Nat.pow_add ..).symm
    have hlog : n.log2 < 53 + exponent.toNat := (Nat.log2_lt hn).mpr hlt
    refine ⟨by omega, ?_⟩
    by_cases hsmall : n.log2 ≤ 52
    · exact ⟨n * 2 ^ (52 - n.log2), by simp [Nat.sub_eq_zero_of_le hsmall]⟩
    · have hinteger : (-exponent).toNat = 0 := by omega
      have hdigits : exponent.toNat = exponent.toNat - (n.log2 - 52) + (n.log2 - 52) := by omega
      have hbits : 52 - n.log2 = 0 := by omega
      rw [hinteger, Nat.pow_zero, Nat.mul_one, hdigits, Nat.pow_add, ← Nat.mul_assoc] at hscale
      exact ⟨significand * 2 ^ (exponent.toNat - (n.log2 - 52)), by simp [hbits, hscale]⟩

end BinaryFormat

namespace Binary64

open BinaryFormat

theorem is_ofInt {x : Binary64} {n : Int} (h : x.value.Is n) : (ofInt n).value.Is n := by
  by_cases hn : n = 0
  · subst hn
    have hzero : (ofInt 0).value = .finite false 0 (-1074) := by decide
    rw [hzero]
    exact ⟨0, rfl, by rw [Nat.zero_mul, Nat.zero_mul]⟩
  obtain ⟨hlog, significand, hbits⟩ := exists_significand h hn
  have hmagnitude : n.natAbs ≠ 0 := Int.natAbs_ne_zero.mpr hn
  obtain ⟨hlow, hhigh⟩ := significand_bounds hmagnitude hbits
  obtain ⟨fraction, rfl⟩ := Nat.exists_eq_add_of_le hlow
  have hword : (n.natAbs.log2 + 1022) * 2 ^ 52 + (2 ^ 52 + fraction) =
      (n.natAbs.log2 + 1023) * 2 ^ 52 + fraction := by omega
  have hsize : double.withSign (n < 0) ((n.natAbs.log2 + 1023) * 2 ^ 52 + fraction) <
      UInt64.size := by
    rw [withSign_double]
    simp only [UInt64.size]
    split <;> omega
  have hvalue : (ofInt n).value =
      .finite (n < 0) (2 ^ 52 + fraction) ((n.natAbs.log2 + 1023 : Nat) - 1075) := by
    rw [value, ofInt, ofValue, BinaryFormat.ofValue, ofScaled_double hmagnitude hbits hlog, hword,
      toNat_toUInt64_of_lt hsize]
    exact decode_withSign _ (by omega) (by omega) (by omega)
  have hexponent : ((n.natAbs.log2 + 1023 : Nat) - 1075 : Int).toNat = n.natAbs.log2 - 52 := by
    omega
  have hexponent' : (-((n.natAbs.log2 + 1023 : Nat) - 1075 : Int)).toNat = 52 - n.natAbs.log2 := by
    omega
  rw [hvalue]
  refine ⟨n.natAbs, ?_, ?_⟩
  · simp only [decide_eq_true_eq]
    split <;> omega
  · rw [hexponent, hexponent']
    exact hbits.symm

end Binary64

end LoopNest
