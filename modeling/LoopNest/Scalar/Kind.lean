import LoopNest.Number.Binary64
import LoopNest.Number.Word

/-!
Element kinds. An integer kind is a width and a signedness; its values are the integers between
`least` and `greatest`, and `wrap` takes any integer to the value congruent to it modulo two to the
width.

A cell is a 64-bit word for every kind: integers are extended to the full word by their sign (by
zeros if the kind has none), floats sit in the low bits in their interchange format. A literal
carries the proof that its kind represents it, so an out-of-range literal cannot be written down.
-/

namespace LoopNest

inductive IntKind where
  | i8 | i16 | i32 | i64 | u8 | u16 | u32 | u64
deriving DecidableEq, Repr

inductive FloatKind where
  | f32 | f64
deriving DecidableEq, Repr

inductive ScalarKind where
  | int (kind : IntKind)
  | float (kind : FloatKind)
deriving DecidableEq, Repr

namespace IntKind

def width : IntKind → Nat
  | i8 | u8 => 8
  | i16 | u16 => 16
  | i32 | u32 => 32
  | i64 | u64 => 64

def signed : IntKind → Bool
  | i8 | i16 | i32 | i64 => true
  | u8 | u16 | u32 | u64 => false

def least (k : IntKind) : Int := if k.signed then -(1 <<< (k.width - 1) : Nat) else 0

def greatest (k : IntKind) : Int :=
  (1 <<< (if k.signed then k.width - 1 else k.width) : Nat) - 1

def wrap (k : IntKind) (n : Int) : Int :=
  if k.signed then n.bmod (1 <<< k.width) else n % (1 <<< k.width : Nat)

def name : IntKind → String
  | i8 => "i8" | i16 => "i16" | i32 => "i32" | i64 => "i64"
  | u8 => "u8" | u16 => "u16" | u32 => "u32" | u64 => "u64"

def all : List IntKind := [i8, i16, i32, i64, u8, u16, u32, u64]

end IntKind

namespace FloatKind

def name : FloatKind → String
  | f32 => "f32"
  | f64 => "f64"

end FloatKind

namespace ScalarKind

def isIntegral : ScalarKind → Bool
  | int _ => true
  | float _ => false

def isFloat (k : ScalarKind) : Bool := !k.isIntegral

def name : ScalarKind → String
  | int k => k.name
  | float k => k.name

def all : List ScalarKind := IntKind.all.map int ++ [float .f32, float .f64]

def ofName? (s : String) : Option ScalarKind := all.find? (·.name == s)

end ScalarKind

namespace ScalarKind

def zeroBits (_ : ScalarKind) : UInt64 := 0

def encodeInt : ScalarKind → Int64 → UInt64
  | int k, v => UInt64.ofInt (k.wrap v.toInt)
  | float .f32, v =>
    (BinaryFormat.single.ofValue (.finite (v < 0) v.toInt.natAbs 0)).toUInt64
  | float .f64, v => (Binary64.ofInt v.toInt).bits

/-- Integer kinds go through the signed 64-bit value, truncated and clamped. -/
def encodeFloat : ScalarKind → Binary64 → UInt64
  | int k, x => encodeInt (int k) x.toInt64
  | float .f32, x => x.toSingle.toUInt64
  | float .f64, x => x.bits

def decodeInt : ScalarKind → UInt64 → Int64
  | int _, bits => bits.toInt64
  | float .f32, bits => (Binary64.ofSingle bits.toUInt32).toInt64
  | float .f64, bits => (Binary64.mk bits).toInt64

/-- Only `u64` cells are read as unsigned words. -/
def decodeFloat : ScalarKind → UInt64 → Binary64
  | int .u64, bits => Binary64.ofInt bits.toNat
  | int _, bits => Binary64.ofInt bits.toInt64.toInt
  | float .f32, bits => Binary64.ofSingle bits.toUInt32
  | float .f64, bits => ⟨bits⟩

end ScalarKind

structure IntLiteral where
  kind : IntKind
  value : Int
  least_le : kind.least ≤ value
  le_greatest : value ≤ kind.greatest
deriving DecidableEq

inductive ScalarValue where
  | int (literal : IntLiteral)
  | float (value : Binary64)
deriving DecidableEq

namespace IntLiteral

def ofInt? (kind : IntKind) (value : Int) : Option IntLiteral :=
  if h : kind.least ≤ value ∧ value ≤ kind.greatest then some ⟨kind, value, h.1, h.2⟩ else none

def ofInt64 (v : Int64) : IntLiteral where
  kind := .i64
  value := v.toInt
  least_le := v.le_toInt
  le_greatest := Int.le_sub_one_of_lt v.toInt_lt

def zero : IntLiteral := ⟨.i32, 0, by decide, by decide⟩

/-- Only `u64` literals of `2 ^ 63` and above have no signed 64-bit word. -/
def toInt64? (l : IntLiteral) : Option Int64 := narrow? l.value

def text (l : IntLiteral) : String := toString l.value

end IntLiteral

def ScalarValue.kind : ScalarValue → ScalarKind
  | .int l => .int l.kind
  | .float _ => .float .f64

end LoopNest
