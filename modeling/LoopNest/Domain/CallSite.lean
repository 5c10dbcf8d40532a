import LoopNest.Bound.Basic
import LoopNest.GroupedIndex
import LoopNest.Text.Basic

/-!
Arguments of a range call, as they are written: a scalar `n` for the axis from zero to `n`, a
sequence of bounds of which only pairs are valid, or a splat that splices a list of arguments in
place.

The source text of a call and where its parts stand in it: splats are expanded into leaves, the
scalars and sequences they hold; each leaf knows the top-level argument it belongs to and the bytes
it covers.
-/

namespace LoopNest

inductive RangeArg where
  | scalar (upper : Bound)
  | seq (items : List Bound)
  | splat (args : List RangeArg)

namespace RangeArg

/-- One pair per component that both indices have. The components become literals, so the inner
domain never refers back to the iteration they come from. -/
def between (lower upper : GroupedIndex) : RangeArg :=
  .splat (List.zipWith (fun l u => .seq [Bound.ofInt64 l, Bound.ofInt64 u]) lower.toList
    upper.toList)

def ofGrouped (upper : GroupedIndex) : RangeArg :=
  .splat (upper.toList.map fun u => .scalar (Bound.ofInt64 u))

/-- A sequence of one bound keeps a comma, so that it is no parenthesised scalar. -/
def seqText (items : List Bound) : String :=
  "(" ++ commaSeparated (Bound.texts items) ++ (if items.length = 1 then ",)" else ")")

mutual

def text : RangeArg → String
  | .scalar upper => upper.text
  | .seq items => seqText items
  | .splat args => "*[" ++ commaSeparated (texts args) ++ "]"

def texts : List RangeArg → List String
  | [] => []
  | a :: as => a.text :: texts as

end

def width (a : RangeArg) : Nat := a.text.utf8ByteSize

end RangeArg

structure AxisOrigin where
  position : Nat
  span : Span
deriving DecidableEq, Repr

inductive LeafArg where
  | scalar (upper : Bound)
  | seq (items : List Bound)

def LeafArg.text : LeafArg → String
  | scalar upper => upper.text
  | seq items => RangeArg.seqText items

structure Leaf where
  arg : LeafArg
  origin : AxisOrigin

/-- The source of a call, the spans of its arguments and the origins of its axes. -/
structure CallSite where
  source : String
  args : List Span
  axes : List AxisOrigin
deriving DecidableEq

def callHead : String := "ndrange("

def callText (args : List RangeArg) : String :=
  callHead ++ commaSeparated (RangeArg.texts args) ++ ")"

def RangeArg.nextOffset (a : RangeArg) (offset : Nat) : Nat := offset + a.width + 2

namespace RangeArg

mutual

def leavesAt (position : Nat) (offset : Nat) : RangeArg → List Leaf
  | .scalar upper =>
    [⟨.scalar upper, position, .ofLength offset (RangeArg.width (.scalar upper))⟩]
  | .seq items => [⟨.seq items, position, .ofLength offset (RangeArg.width (.seq items))⟩]
  | .splat args => splicedLeaves position (offset + 2) args

/-- The leaves of the elements of one splat. They belong to one argument. -/
def splicedLeaves (position : Nat) (offset : Nat) : List RangeArg → List Leaf
  | [] => []
  | a :: as => a.leavesAt position offset ++ splicedLeaves position (a.nextOffset offset) as

end

def callLeaves (position : Nat) (offset : Nat) : List RangeArg → List Leaf
  | [] => []
  | a :: as => a.leavesAt position offset ++ callLeaves (position + 1) (a.nextOffset offset) as

def callSpans (offset : Nat) : List RangeArg → List Span
  | [] => []
  | a :: as => .ofLength offset a.width :: callSpans (a.nextOffset offset) as

def leaves (args : List RangeArg) : List Leaf := callLeaves 0 callHead.utf8ByteSize args

end RangeArg

namespace CallSite

def render (args : List RangeArg) : CallSite where
  source := callText args
  args := RangeArg.callSpans callHead.utf8ByteSize args
  axes := []

/-- The whole call stands for an axis it does not have. -/
def axisOrigin (site : CallSite) (axis : Nat) : AxisOrigin :=
  site.axes.getD axis ⟨0, .whole site.source⟩

end CallSite

end LoopNest
