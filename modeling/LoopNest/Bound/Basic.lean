import LoopNest.Number.Shortest
import LoopNest.Scalar.Kind
import LoopNest.Storage.Registry

/-!
Bound expressions: the ends of an axis as a caller writes them. Literals are known at once;
parameters and field elements only when a kernel is launched. Every bound has a text, which messages
quote. A folder decides which bounds are known without a launch; the standard one knows literals and
arithmetic over them.
-/

namespace LoopNest

inductive ArithOp where
  | add | sub | mul
deriving DecidableEq, Repr

namespace ArithOp

def symbol : ArithOp → String
  | add => "+"
  | sub => "-"
  | mul => "*"

def apply : ArithOp → Int → Int → Int
  | add, a, b => a + b
  | sub, a, b => a - b
  | mul, a, b => a * b

def checked? (op : ArithOp) (a b : Int64) : Option Int64 := narrow? (op.apply a.toInt b.toInt)

end ArithOp

inductive Bound where
  | int (literal : IntLiteral)
  /-- Never valid; kept so that it can be reported. -/
  | float (value : Binary64)
  | param (name : String) (kind : ScalarKind)
  /-- An element of a field's primary buffer. The kind is the one the caller declares. -/
  | load (field : FieldId) (name : String) (kind : ScalarKind) (index : List Bound)
  | arith (op : ArithOp) (left right : Bound)

namespace Bound

def ofInt64 (v : Int64) : Bound := .int (.ofInt64 v)

mutual

def text : Bound → String
  | .int literal => literal.text
  | .float value => value.text
  | .param name _ => name
  | .load _ name _ [] => name ++ "[None]"
  | .load _ name _ (i :: index) => name ++ "[" ++ commaSeparated (texts (i :: index)) ++ "]"
  | .arith op left right => "(" ++ left.text ++ " " ++ op.symbol ++ " " ++ right.text ++ ")"

def texts : List Bound → List String
  | [] => []
  | b :: bs => b.text :: texts bs

end

mutual

def isIntegral : Bound → Bool
  | .int _ => true
  | .float _ => false
  | .param _ kind => kind.isIntegral
  | .load _ _ kind index => kind.isIntegral && allIntegral index
  | .arith _ left right => left.isIntegral && right.isIntegral

def allIntegral : List Bound → Bool
  | [] => true
  | b :: bs => b.isIntegral && allIntegral bs

end

def isDynamic : Bound → Bool
  | .int _ | .float _ => false
  | .param .. | .load .. => true
  | .arith _ left right => left.isDynamic || right.isDynamic

mutual

/-- The first literal from the left that has no signed 64-bit word, load indices included. -/
def unrepresentable? : Bound → Option IntLiteral
  | .int literal => if literal.toInt64?.isNone then some literal else none
  | .float _ | .param .. => none
  | .load _ _ _ index => firstUnrepresentable? index
  | .arith _ left right => left.unrepresentable?.or right.unrepresentable?

def firstUnrepresentable? : List Bound → Option IntLiteral
  | [] => none
  | b :: bs => b.unrepresentable?.or (firstUnrepresentable? bs)

end

end Bound

abbrev Folder := Bound → Option Int64

/-- Literals, and sums, differences and products of known bounds that fit in 64 bits. -/
def foldConstants : Folder
  | .int literal => literal.toInt64?
  | .float _ | .param .. | .load .. => none
  | .arith op left right => do op.checked? (← foldConstants left) (← foldConstants right)

theorem isDynamic_of_foldConstants_eq_some {b : Bound} {v : Int64} (h : foldConstants b = some v) :
    b.isDynamic = false := by
  fun_induction foldConstants b generalizing v with
  | case1 => rfl
  | case2 => simp at h
  | case3 => simp at h
  | case4 => simp at h
  | case5 op left right hl hr =>
    simp only [Option.bind_eq_bind, Option.bind_eq_some_iff] at h
    obtain ⟨x, hx, y, hy, _⟩ := h
    simp [Bound.isDynamic, hl hx, hr hy]

/-- Knows the parameters of a table by name, and of all other bounds what the standard folder
knows. Arithmetic over a known parameter stays unknown. -/
def foldParams (table : List (String × Int64)) : Folder
  | .param name _ => table.lookup name
  | bound => foldConstants bound

end LoopNest
