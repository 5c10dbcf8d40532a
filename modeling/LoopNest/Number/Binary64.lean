import LoopNest.Number.Word

/-!
Binary interchange formats: a sign bit, a biased exponent field and a fraction field. A word is a
`Nat`; decoding splits it into fields, and rounding takes an exact quotient of naturals to the word
of the nearest representable magnitude, ties to the even significand, overflow to infinity.

Double-precision numbers are kept as their 64 bits. Conversions go through the exact value: integers
and quotients round to nearest, the way back truncates toward zero and saturates at the ends of the
64-bit signed range.
-/

namespace LoopNest

structure BinaryFormat where
  fractionBits : Nat
  exponentBits : Nat
deriving DecidableEq, Repr

/-- What a word stands for. A finite value is `significand * 2 ^ exponent` with its sign kept apart,
so that the two zeros stay distinct; the payload of a NaN is not kept. -/
inductive BinaryValue where
  | nan
  | infinite (negative : Bool)
  | finite (negative : Bool) (significand : Nat) (exponent : Int)
deriving DecidableEq, Repr

def roundHalfEven (num den : Nat) : Nat :=
  let q := num / den
  let r := num % den
  if 2 * r < den then q
  else if den < 2 * r then q + 1
  else if q % 2 = 0 then q else q + 1

/-- The integer `k` with `2 ^ k ≤ num / den < 2 ^ (k + 1)`, for positive arguments. The difference
of the two logarithms is `k` or `k + 1`. -/
def log2Quotient (num den : Nat) : Int :=
  let k : Int := (num.log2 : Int) - den.log2
  let below := num <<< (-k).toNat < den <<< k.toNat
  if below then k - 1 else k

namespace BinaryFormat

def single : BinaryFormat := ⟨23, 8⟩

def double : BinaryFormat := ⟨52, 11⟩

def minExponent (f : BinaryFormat) : Int :=
  2 - (1 <<< (f.exponentBits - 1) + f.fractionBits : Nat)

def infinity (f : BinaryFormat) : Nat := (1 <<< f.exponentBits - 1) <<< f.fractionBits

def signWeight (f : BinaryFormat) : Nat := 1 <<< (f.fractionBits + f.exponentBits)

def quietNaN (f : BinaryFormat) : Nat := f.infinity + 1 <<< (f.fractionBits - 1)

def withSign (f : BinaryFormat) (negative : Bool) (magnitude : Nat) : Nat :=
  if negative then f.signWeight + magnitude else magnitude

def decode (f : BinaryFormat) (word : Nat) : BinaryValue :=
  let fraction := word % (1 <<< f.fractionBits)
  let exponent := word >>> f.fractionBits % (1 <<< f.exponentBits)
  let negative := word / f.signWeight % 2 == 1
  if exponent = 1 <<< f.exponentBits - 1 then
    if fraction = 0 then .infinite negative else .nan
  else if exponent = 0 then .finite negative fraction f.minExponent
  else .finite negative (1 <<< f.fractionBits + fraction) (f.minExponent + (exponent - 1 : Nat))

/-- The word of the representable magnitude nearest to `num / den`. Words of one sign are ordered
like their values, so a significand that rounds up to the next power of two carries into the
exponent field by itself. -/
def ofQuotient (f : BinaryFormat) (num den : Nat) : Nat :=
  if num = 0 then 0
  else
    let unit := max f.minExponent (log2Quotient num den - f.fractionBits)
    let significand := roundHalfEven (num <<< (-unit).toNat) (den <<< unit.toNat)
    min f.infinity ((unit - f.minExponent).toNat <<< f.fractionBits + significand)

def ofScaled (f : BinaryFormat) (significand : Nat) (exponent : Int) : Nat :=
  f.ofQuotient (significand <<< exponent.toNat) (1 <<< (-exponent).toNat)

def ofValue (f : BinaryFormat) : BinaryValue → Nat
  | .nan => f.quietNaN
  | .infinite negative => f.withSign negative f.infinity
  | .finite negative significand exponent => f.withSign negative (f.ofScaled significand exponent)

end BinaryFormat

/-- The integer part, rounded toward zero. NaN has none and counts as zero; an infinity is `none`. -/
def BinaryValue.truncate : BinaryValue → Option Int
  | .nan => some 0
  | .infinite _ => none
  | .finite negative significand exponent =>
    let magnitude : Nat := significand <<< exponent.toNat >>> (-exponent).toNat
    some (if negative then -magnitude else magnitude)

structure Binary64 where
  bits : UInt64
deriving DecidableEq, Repr

namespace Binary64

def value (x : Binary64) : BinaryValue := BinaryFormat.double.decode x.bits.toNat

def ofValue (v : BinaryValue) : Binary64 := ⟨(BinaryFormat.double.ofValue v).toUInt64⟩

def isNaN (x : Binary64) : Bool := x.value == .nan

def ofInt (n : Int) : Binary64 := ofValue (.finite (n < 0) n.natAbs 0)

def ofDecimal (negative : Bool) (digits : Nat) (exponent : Int) : Binary64 :=
  let magnitude :=
    BinaryFormat.double.ofQuotient (digits * Nat.pow 10 exponent.toNat)
      (Nat.pow 10 (-exponent).toNat)
  ⟨(BinaryFormat.double.withSign negative magnitude).toUInt64⟩

def toSingle (x : Binary64) : UInt32 := (BinaryFormat.single.ofValue x.value).toUInt32

/-- The double equal to a 32-bit word. Every such value has one. -/
def ofSingle (word : UInt32) : Binary64 := ofValue (BinaryFormat.single.decode word.toNat)

end Binary64

/-- The value cut to an integer and clamped to the signed 64-bit range; NaN becomes zero. -/
def BinaryValue.toInt64 (v : BinaryValue) : Int64 :=
  match v.truncate with
  | some n => Int64.ofInt (max (-wordBound) (min n (wordBound - 1)))
  | none => match v with
    | .infinite true => Int64.minValue
    | _ => Int64.maxValue

def Binary64.toInt64 (x : Binary64) : Int64 := x.value.toInt64

end LoopNest
