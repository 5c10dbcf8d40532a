import LoopNest.Storage.Registry

/-!
Building a storage layout. Fields are declared and placed under nodes of a growing tree; the rules
that a step breaks are recorded in order and reported when the layout is finished, which is also
when every buffer is allocated.
-/

namespace LoopNest

inductive LayoutError where
  | placedTwice (name : String)
  | notPlaced (name : String)
  | childOfPlace
  | unknownField (field : FieldId)
  /-- The buffers of a field cannot be allocated. -/
  | tooLarge (name : String)
deriving DecidableEq

def LayoutError.message : LayoutError → String
  | placedTwice name => s!"field '{name}' is placed more than once"
  | notPlaced name => s!"field '{name}' is declared but never placed"
  | childOfPlace => "cannot attach children to a place node"
  | unknownField field => s!"unknown field id {field.index}"
  | tooLarge name => s!"capacity overflow: field '{name}' cannot be allocated"

/-- Whether the whole run ends with the error, so that nobody gets an answer. -/
def LayoutError.aborts : LayoutError → Bool
  | tooLarge _ => true
  | placedTwice _ | notPlaced _ | childOfPlace | unknownField _ => false

inductive LayoutStep where
  | declare (decl : FieldDecl)
  | block (parent : NodeId) (kind : BlockKind) (extents : List UInt64)
  | place (parent : NodeId) (fields : List FieldId)
  /-- Gives every field declared so far an adjoint. -/
  | lazyGrad
deriving DecidableEq

structure LayoutBuilder where
  nodes : Array Node
  fields : Array FieldDecl
  /-- For each field the node that it was placed under first. -/
  placedAt : Array (Option NodeId)
  errors : Array LayoutError
deriving DecidableEq

namespace LayoutBuilder

def empty : LayoutBuilder := ⟨#[Node.root], #[], #[], #[]⟩

def declare (b : LayoutBuilder) (decl : FieldDecl) : LayoutBuilder :=
  { b with fields := b.fields.push decl, placedAt := b.placedAt.push none }

/-- Adds a node below `parent`. A parent that is no node of this builder leaves it as it was. -/
def attach (b : LayoutBuilder) (parent : NodeId) (kind : NodeKind) : LayoutBuilder :=
  match b.nodes[parent.index]? with
  | none => b
  | some above =>
    { b with
      nodes := b.nodes.push ⟨kind, some parent, above.shape ++ kind.extents⟩
      errors := if above.kind.isPlace then b.errors.push .childOfPlace else b.errors }

def placeField (node : NodeId) (b : LayoutBuilder) (field : FieldId) : LayoutBuilder :=
  match b.fields[field.index]?, b.placedAt[field.index]? with
  | some _, some none =>
    { b with placedAt := b.placedAt.setIfInBounds field.index (some node) }
  | some decl, some (some _) => { b with errors := b.errors.push (.placedTwice decl.name) }
  | _, _ => { b with errors := b.errors.push (.unknownField field) }

/-- Attaches a place node and records where its fields are. Without a parent nothing is placed. -/
def place (b : LayoutBuilder) (parent : NodeId) (fields : List FieldId) : LayoutBuilder :=
  if parent.index < b.nodes.size then
    fields.foldl (placeField ⟨b.nodes.size⟩) (b.attach parent (.place fields))
  else b

def lazyGrad (b : LayoutBuilder) : LayoutBuilder :=
  { b with fields := b.fields.map fun decl => { decl with needsGrad := true } }

def step (b : LayoutBuilder) : LayoutStep → LayoutBuilder
  | .declare decl => b.declare decl
  | .block parent kind extents => b.attach parent (.block kind extents)
  | .place parent fields => b.place parent fields
  | .lazyGrad => b.lazyGrad

def ofSteps (steps : List LayoutStep) : LayoutBuilder := steps.foldl step empty

def allocate (decl : FieldDecl) (shape : List UInt64) : Except LayoutError Placement :=
  match Buffer.zeroed? decl.kind shape decl.elementShape with
  | some buffer => .ok ⟨buffer, if decl.needsGrad then some buffer else none⟩
  | none => .error (.tooLarge decl.name)

def placement (b : LayoutBuilder) (decl : FieldDecl) (placed : Option NodeId) :
    Except LayoutError Placement :=
  match placed.bind fun node => b.nodes[node.index]? with
  | some node => allocate decl node.shape
  | none => .error (.notPlaced decl.name)

/-- Reports the first broken rule, or allocates every buffer. -/
def finalize (b : LayoutBuilder) : Except LayoutError Registry :=
  match b.errors[0]? with
  | some error => .error error
  | none => do
    let placements ← (b.fields.toList.zip b.placedAt.toList).mapM fun (decl, placed) =>
      b.placement decl placed
    return ⟨b.nodes, b.fields, placements.toArray⟩

end LayoutBuilder

end LoopNest
