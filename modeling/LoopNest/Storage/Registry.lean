import LoopNest.Storage.Buffer
import LoopNest.Storage.Graph

/-!
The storage registry: a frozen tree of nodes and the buffers of the fields placed in it. A node
names its parent and comes after it, so the tree is a list in which every prefix is a tree. Only
buffer contents change.
-/

namespace LoopNest

structure FieldId where
  index : Nat
deriving DecidableEq, Repr

structure FieldDecl where
  name : String
  kind : ScalarKind
  /-- Empty for scalar elements. -/
  elementShape : List UInt64
  needsGrad : Bool
deriving DecidableEq

inductive BlockKind where
  | dense | pointer | bitmasked
deriving DecidableEq, Repr

inductive NodeKind where
  | root
  | block (kind : BlockKind) (extents : List UInt64)
  | place (fields : List FieldId)
deriving DecidableEq

structure Node where
  kind : NodeKind
  /-- Only the root has none. -/
  parent : Option NodeId
  /-- The extents from the root down to this node. -/
  shape : List UInt64
deriving DecidableEq

namespace NodeKind

def extents : NodeKind → List UInt64
  | block _ extents => extents
  | root | place _ => []

def fields : NodeKind → List FieldId
  | place fields => fields
  | root | block .. => []

def isPlace : NodeKind → Bool
  | place _ => true
  | root | block .. => false

end NodeKind

def Node.root : Node := ⟨.root, none, []⟩

/-- The buffers of a placed field. The adjoint has the shape of the primary. -/
structure Placement where
  primary : Buffer
  adjoint : Option Buffer
deriving DecidableEq

structure Registry where
  nodes : Array Node
  fields : Array FieldDecl
  placements : Array Placement
deriving DecidableEq

structure ClearStats where
  nodes : Nat
  fields : Nat
  buffers : Nat
  elements : Nat
deriving DecidableEq, Repr

inductive BufferRole where
  | primary | adjoint
deriving DecidableEq, Repr

structure CellAddress where
  field : FieldId
  role : BufferRole
  kind : ScalarKind
  offset : UInt64
deriving DecidableEq, Repr

def Placement.buffer? (p : Placement) : BufferRole → Option Buffer
  | .primary => some p.primary
  | .adjoint => p.adjoint

def Placement.modify (p : Placement) (f : Buffer → Buffer) : BufferRole → Placement
  | .primary => { p with primary := f p.primary }
  | .adjoint => { p with adjoint := p.adjoint.map f }

namespace Registry

def empty : Registry := ⟨#[Node.root], #[], #[]⟩

def decl? (r : Registry) (field : FieldId) : Option FieldDecl := r.fields[field.index]?

def lookup? (r : Registry) (name : String) : Option FieldId :=
  (r.fields.findIdx? (·.name == name)).map FieldId.mk

def placement? (r : Registry) (field : FieldId) : Option Placement := r.placements[field.index]?

def buffer? (r : Registry) (field : FieldId) (role : BufferRole) : Option Buffer := do
  (← r.placement? field).buffer? role

def primary? (r : Registry) (field : FieldId) : Option Buffer := r.buffer? field .primary

def modifyBuffer (r : Registry) (field : FieldId) (role : BufferRole) (f : Buffer → Buffer) :
    Registry :=
  { r with placements := r.placements.modify field.index (·.modify f role) }

/-- Finds a position in a buffer; `none` if the field has no such buffer. -/
def locate? (r : Registry) (field : FieldId) (role : BufferRole) (index element : List Int64) :
    Option (Except AccessFault CellAddress) :=
  (r.buffer? field role).map fun b => do
    return ⟨field, role, b.kind, ← b.cell index element⟩

def setBits (r : Registry) (cell : CellAddress) (bits : UInt64) : Registry :=
  r.modifyBuffer cell.field cell.role (·.setCell cell.offset bits)

def store? (r : Registry) (field : FieldId) (role : BufferRole) (index element : List Int64)
    (bits : ScalarKind → UInt64) : Option (Except AccessFault Registry) :=
  (r.locate? field role index element).map fun found =>
    found.map fun cell => r.setBits cell (bits cell.kind)

def setInt? (r : Registry) (field : FieldId) (role : BufferRole) (index element : List Int64)
    (value : Int64) : Option (Except AccessFault Registry) :=
  r.store? field role index element (·.encodeInt value)

def setFloat? (r : Registry) (field : FieldId) (role : BufferRole) (index element : List Int64)
    (value : Binary64) : Option (Except AccessFault Registry) :=
  r.store? field role index element (·.encodeFloat value)

def tree (r : Registry) : Graph where
  size := r.nodes.size
  edges := r.nodes.toList.zipIdx.filterMap fun (node, k) => node.parent.map fun above => (above, ⟨k⟩)

def fieldsAt (r : Registry) (node : NodeId) : List FieldId :=
  match r.nodes[node.index]? with
  | some node => node.kind.fields
  | none => []

def clearLeaf (state : Registry × ClearStats) (field : FieldId) : Registry × ClearStats :=
  let (r, stats) := state
  match r.buffer? field .adjoint with
  | some adjoint =>
    (r.modifyBuffer field .adjoint Buffer.clear,
      { stats with buffers := stats.buffers + 1, elements := stats.elements + adjoint.size })
  | none => (r, stats)

section Clear

variable (r : Registry) (search : Search)

def visited : List NodeId := search.order r.tree ⟨0⟩

def leaves : List FieldId :=
  ((r.visited search).flatMap r.fieldsAt).filter fun field => (r.placement? field).isSome

def clearLeaves (leaves : List FieldId) : Registry × ClearStats :=
  leaves.foldl clearLeaf (r, ⟨(r.visited search).length, leaves.length, 0, 0⟩)

/-- Sets every adjoint cell reachable from the root to zero. The order of the leaves does not
matter; here it is that of the search. -/
def clearGradients : Registry × ClearStats := r.clearLeaves search (r.leaves search)

end Clear

end Registry

end LoopNest
