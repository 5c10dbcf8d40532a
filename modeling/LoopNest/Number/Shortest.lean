import LoopNest.Number.Binary64

/-!
The shortest decimal text of a double. Among the decimals that read back to the same double one with
the fewest digits is taken; of two of that length the nearer, and the larger if both are equally
near. The search tries one digit, then two, and so on: on each decimal grid only the two neighbours
of the exact value can be nearest.
-/

namespace LoopNest

structure Decimal where
  digits : Nat
  exponent : Int
deriving DecidableEq, Repr

def decimalLength (n : Nat) : Nat := (Nat.toDigits 10 n).length

def log10Quotient (num den : Nat) : Int :=
  let k : Int := (decimalLength num : Int) - decimalLength den
  if num * Nat.pow 10 (-k).toNat < den * Nat.pow 10 k.toNat then k - 1 else k

namespace Decimal

def compareScaled (d : Decimal) (m : Nat) (e : Int) : Ordering :=
  compare ((d.digits * Nat.pow 10 d.exponent.toNat) <<< (-e).toNat)
    ((m * Nat.pow 10 (-d.exponent).toNat) <<< e.toNat)

/-- Whether `d` lies among the reals that round to `significand * 2 ^ exponent`. The gap below a
power of two is half as wide as the gap above it, and a value with an even significand also takes
both ends of its interval. -/
def readsBack (significand : Nat) (exponent : Int) (d : Decimal) : Bool :=
  let format := BinaryFormat.double
  let narrow := significand == 1 <<< format.fractionBits && exponent != format.minExponent
  let lower := if narrow then 4 * significand - 1 else 4 * significand - 2
  let upper := 4 * significand + 2
  let closed := significand % 2 == 0
  let below := d.compareScaled lower (exponent - 2)
  let above := d.compareScaled upper (exponent - 2)
  (below == .gt || closed && below == .eq) && (above == .lt || closed && above == .eq)

def onGrid? (significand : Nat) (exponent : Int) (count : Nat) : Option Decimal :=
  let num := significand <<< exponent.toNat
  let den := 1 <<< (-exponent).toNat
  let unit := log10Quotient num den - count + 1
  let scaledNum := num * Nat.pow 10 (-unit).toNat
  let scaledDen := den * Nat.pow 10 unit.toNat
  let floor := scaledNum / scaledDen
  let lower : Decimal := ⟨floor, unit⟩
  let upper : Decimal := ⟨floor + 1, unit⟩
  let nearer := if 2 * (scaledNum % scaledDen) < scaledDen then lower else upper
  if nearer.readsBack significand exponent then some nearer
  else if lower.readsBack significand exponent then some lower
  else if upper.readsBack significand exponent then some upper
  else none

/-- The fewest digits that read back to a positive double. Seventeen always suffice. -/
def shortest (significand : Nat) (exponent : Int) : Decimal :=
  ((List.range 17).findSome? fun n => onGrid? significand exponent (n + 1)).getD
    ⟨(significand * Nat.pow 5 (-exponent).toNat) <<< exponent.toNat, min exponent 0⟩

def positional (digits : List Char) (leading : Int) : List Char :=
  if leading < 0 then
    '0' :: '.' :: List.replicate (-leading - 1).toNat '0' ++ digits
  else
    let whole := leading.toNat + 1
    let fraction := digits.drop whole
    digits.take whole ++ List.replicate (whole - digits.length) '0' ++
      '.' :: (if fraction.isEmpty then ['0'] else fraction)

def scientific (digits : List Char) (leading : Int) : List Char :=
  digits.take 1 ++ (if digits.length ≤ 1 then [] else '.' :: digits.drop 1) ++
    'e' :: (toString leading).toList

end Decimal

def stripTrailingZeros (digits : List Char) : List Char :=
  (digits.reverse.dropWhile (· == '0')).reverse

namespace Binary64

/-- Positional notation covers zero and magnitudes from `10 ^ -4` up to, not including,
`10 ^ 16`. -/
def magnitudeText (significand : Nat) (exponent : Int) : List Char :=
  if significand = 0 then ['0', '.', '0']
  else
    let d := Decimal.shortest significand exponent
    let all := Nat.toDigits 10 d.digits
    let leading : Int := d.exponent + all.length - 1
    let digits := stripTrailingZeros all
    if -4 ≤ leading ∧ leading < 16 then Decimal.positional digits leading
    else Decimal.scientific digits leading

def text (x : Binary64) : String :=
  match x.value with
  | .nan => "NaN"
  | .infinite negative => if negative then "-inf" else "inf"
  | .finite negative significand exponent =>
    let magnitude := String.ofList (magnitudeText significand exponent)
    if negative then "-" ++ magnitude else magnitude

end Binary64

end LoopNest
