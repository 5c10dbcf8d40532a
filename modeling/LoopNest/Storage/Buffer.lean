import LoopNest.Number.Word
import LoopNest.Scalar.Kind
import LoopNest.Text.Basic

/-!
Row-major addressing. An index has one component per extent; the last axis varies fastest. Counts
and offsets are machine words, and each step towards one has to fit.

Typed buffers: the cells of one field. A position is an index into the shape followed by the
component of the element found there; scalar elements have no component. Every access is checked
against the shape first, and a failing one changes nothing. A buffer is only built where its cells
can be counted in a word and allocated.
-/

namespace LoopNest

/-- The number of cells under the extents of a shape and of an element, each multiplied by itself
first. -/
def cellCount? (shape elementShape : List UInt64) : Option UInt64 := do
  mulCount? (← mulCounts? shape) (← mulCounts? elementShape)

inductive OffsetError where
  /-- A component is negative or not below its extent. -/
  | outside
  /-- The offset up to some component does not fit in a word. -/
  | overflow
deriving DecidableEq

/-- Extends the offset reached so far by one axis at a time. -/
def rowMajorFrom (offset : UInt64) : List UInt64 → List Int64 → Except OffsetError UInt64
  | extent :: extents, i :: index =>
    if 0 ≤ i ∧ i.toUInt64 < extent then
      match mulAddCount? offset extent i.toUInt64 with
      | some offset => rowMajorFrom offset extents index
      | none => .error .overflow
    else .error .outside
  | _, _ => .ok offset

def rowMajor (extents : List UInt64) (index : List Int64) : Except OffsetError UInt64 :=
  rowMajorFrom 0 extents index

/-- An index inside the extents: one component per axis, each non-negative and below its extent. -/
def InExtents (extents : List UInt64) (index : List Int64) : Prop :=
  extents.length = index.length ∧
    ∀ p ∈ extents.zip index, 0 ≤ p.2.toInt ∧ p.2.toInt < p.1.toNat

-- By a walk over the pairs, whatever other instances for words are in scope.
instance (extents : List UInt64) (index : List Int64) : Decidable (InExtents extents index) :=
  @instDecidableAnd _ _ _ (List.decidableBAll _ _)

theorem toUInt64_lt_iff {extent : UInt64} {i : Int64} (h : 0 ≤ i) :
    i.toUInt64 < extent ↔ i.toInt < extent.toNat := by
  have hi : 0 ≤ i.toInt := by simpa [Int64.le_iff_toInt_le] using h
  rw [UInt64.lt_iff_toNat_lt, Int64.toNat_toUInt64_of_le h, Int64.toNatClampNeg]
  omega

theorem inRange_iff {extent : UInt64} {i : Int64} :
    0 ≤ i ∧ i.toUInt64 < extent ↔ 0 ≤ i.toInt ∧ i.toInt < extent.toNat := by
  rw [← Int64.toInt_zero, ← Int64.le_iff_toInt_le]
  exact and_congr_right toUInt64_lt_iff

structure Buffer where
  kind : ScalarKind
  shape : List UInt64
  elementShape : List UInt64
  cells : Array UInt64
deriving DecidableEq

inductive AccessFault where
  /-- The index or the component has the wrong number of axes. -/
  | rank (index element shape elementShape : Nat)
  | outOfBounds (index element : List Int64) (shape elementShape : List UInt64)
  /-- An offset that leaves the words before a component is found to be outside. -/
  | overflow
  /-- A position inside the shape whose offset is past the last cell. -/
  | noCell (offset : UInt64) (size : Nat)
deriving DecidableEq

def AccessFault.message : AccessFault → String
  | .rank index element shape elementShape =>
    s!"index rank {index}+{element} does not match buffer rank {shape}+{elementShape}"
  | .outOfBounds index element shape elementShape =>
    s!"index {bracketed index}{bracketed element} out of bounds for shape " ++
      s!"{bracketed shape}{bracketed elementShape}"
  | .overflow => "attempt to multiply or add with overflow"
  | .noCell offset size => s!"index out of bounds: the len is {size} but the index is {offset}"

/-- Whether the whole run ends with the fault, so that nobody gets an answer. -/
def AccessFault.aborts : AccessFault → Bool
  | .rank .. | .outOfBounds .. => false
  | .overflow | .noCell .. => true

namespace Buffer

def extents (b : Buffer) : List UInt64 := b.shape ++ b.elementShape

def cellBytes : Nat := 8

def maxBytes : Nat := 0x7fffffffffffffff

/-- A new buffer of zeros. There is none if its cells cannot be counted or allocated. -/
def zeroed? (kind : ScalarKind) (shape elementShape : List UInt64) : Option Buffer := do
  let count ← cellCount? shape elementShape
  if count.toNat * cellBytes ≤ maxBytes then
    return ⟨kind, shape, elementShape, Array.replicate count.toNat kind.zeroBits⟩
  else none

def size (b : Buffer) : Nat := b.cells.size

def offset (b : Buffer) (index element : List Int64) : Except AccessFault UInt64 :=
  if index.length ≠ b.shape.length ∨ element.length ≠ b.elementShape.length then
    .error (.rank index.length element.length b.shape.length b.elementShape.length)
  else
    match rowMajor b.extents (index ++ element) with
    | .ok offset => .ok offset
    | .error .outside => .error (.outOfBounds index element b.shape b.elementShape)
    | .error .overflow => .error .overflow

def cell (b : Buffer) (index element : List Int64) : Except AccessFault UInt64 := do
  let offset ← b.offset index element
  if offset.toNat < b.size then return offset else .error (.noCell offset b.size)

def load (b : Buffer) (index element : List Int64) : Except AccessFault UInt64 := do
  let offset ← b.cell index element
  return b.cells.getD offset.toNat b.kind.zeroBits

def setCell (b : Buffer) (offset : UInt64) (bits : UInt64) : Buffer :=
  { b with cells := b.cells.setIfInBounds offset.toNat bits }

@[simp]
theorem size_setCell (b : Buffer) (offset bits : UInt64) : (b.setCell offset bits).size = b.size := by
  simp [setCell, size]

def store (b : Buffer) (index element : List Int64) (bits : UInt64) : Except AccessFault Buffer := do
  let offset ← b.cell index element
  return b.setCell offset bits

def getInt (b : Buffer) (index element : List Int64) : Except AccessFault Int64 :=
  b.kind.decodeInt <$> b.load index element

def getFloat (b : Buffer) (index element : List Int64) : Except AccessFault Binary64 :=
  b.kind.decodeFloat <$> b.load index element

def setInt (b : Buffer) (index element : List Int64) (value : Int64) : Except AccessFault Buffer :=
  b.store index element (b.kind.encodeInt value)

def setFloat (b : Buffer) (index element : List Int64) (value : Binary64) :
    Except AccessFault Buffer :=
  b.store index element (b.kind.encodeFloat value)

def toIntList (b : Buffer) : List Int64 := b.cells.toList.map b.kind.decodeInt

def toFloatList (b : Buffer) : List Binary64 := b.cells.toList.map b.kind.decodeFloat

def clear (b : Buffer) : Buffer :=
  { b with cells := Array.replicate b.cells.size b.kind.zeroBits }

@[simp]
theorem size_clear (b : Buffer) : b.clear.size = b.size := by
  simp [clear, size]

end Buffer

end LoopNest
