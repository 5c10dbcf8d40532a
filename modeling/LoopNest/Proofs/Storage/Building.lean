import LoopNest.Proofs.Failure
import LoopNest.Proofs.Storage.Walk
import LoopNest.Storage.Layout
import Mathlib.Data.List.Basic

/-! What a layout has built as long as no rule is broken: a tree, and place nodes that name every
placed field once. Broken rules are never taken back, so a layout that ends without any had none
before. -/

namespace LoopNest

def placedFields (nodes : Array Node) : List FieldId := nodes.toList.flatMap (·.kind.fields)

@[simp] theorem placedFields_push (nodes : Array Node) (node : Node) :
    placedFields (nodes.push node) = placedFields nodes ++ node.kind.fields := by
  simp [placedFields]

theorem Rooted.push {nodes : Array Node} {node : Node} {above : NodeId} (h : Rooted nodes)
    (hparent : node.parent = some above) (hlt : above.index < nodes.size) :
    Rooted (nodes.push node) where
  size_pos := by simp
  root_parent := by
    intro n hn
    rw [Array.getElem?_push, if_neg (Nat.ne_of_lt h.size_pos)] at hn
    exact h.root_parent hn
  parent_lt := by
    intro k n hk hn
    rw [Array.getElem?_push] at hn
    split at hn
    · rename_i hlast
      cases hn
      exact ⟨above, hparent, hlast ▸ hlt⟩
    · exact h.parent_lt hk hn

namespace LayoutBuilder

def IsPlaced (b : LayoutBuilder) (field : FieldId) : Prop :=
  ∃ node, b.placedAt[field.index]? = some (some node)

structure WellFormed (b : LayoutBuilder) : Prop where
  rooted : Rooted b.nodes
  size_placedAt : b.placedAt.size = b.fields.size
  nodup_placed : b.errors = #[] → (placedFields b.nodes).Nodup
  mem_placed : b.errors = #[] → ∀ field, field ∈ placedFields b.nodes ↔ b.IsPlaced field

section Attach

variable {b : LayoutBuilder} {parent : NodeId} {kind : NodeKind}

theorem attach_of_le (h : b.nodes.size ≤ parent.index) : b.attach parent kind = b := by
  simp [attach, Array.getElem?_eq_none h]

theorem attach_of_lt (kind : NodeKind) (h : parent.index < b.nodes.size) :
    ∃ shape, (b.attach parent kind).nodes = b.nodes.push ⟨kind, some parent, shape⟩ := by
  refine ⟨b.nodes[parent.index].shape ++ kind.extents, ?_⟩
  simp [attach, Array.getElem?_eq_getElem h]

@[simp] theorem fields_attach : (b.attach parent kind).fields = b.fields := by
  rw [attach]
  split <;> rfl

@[simp] theorem placedAt_attach : (b.attach parent kind).placedAt = b.placedAt := by
  rw [attach]
  split <;> rfl

theorem errors_of_attach (h : (b.attach parent kind).errors = #[]) : b.errors = #[] := by
  rw [attach] at h
  split at h
  · exact h
  · simp only at h
    split at h
    · simp at h
    · exact h

end Attach

section PlaceField

variable {b : LayoutBuilder} {node : NodeId}

@[simp] theorem nodes_placeField (field : FieldId) :
    (b.placeField node field).nodes = b.nodes := by
  rw [placeField]
  split <;> rfl

@[simp] theorem fields_placeField (field : FieldId) :
    (b.placeField node field).fields = b.fields := by
  rw [placeField]
  split <;> rfl

@[simp] theorem size_placedAt_placeField (field : FieldId) :
    (b.placeField node field).placedAt.size = b.placedAt.size := by
  rw [placeField]
  split <;> simp

theorem placeField_of_errors_eq {field : FieldId} (h : (b.placeField node field).errors = #[]) :
    b.errors = #[] ∧ ¬b.IsPlaced field ∧
      ∀ other, (b.placeField node field).IsPlaced other ↔ b.IsPlaced other ∨ other = field := by
  rw [placeField] at h ⊢
  split at h
  · rename_i hdecl hplaced
    obtain ⟨hlt, -⟩ := Array.getElem?_eq_some_iff.mp hplaced
    refine ⟨h, by simp [IsPlaced, hplaced], fun other => ?_⟩
    by_cases heq : other = field
    · subst heq
      simp [IsPlaced, hlt]
    · have hne : field.index ≠ other.index := fun hidx =>
        heq (by cases other; cases field; exact congrArg _ hidx.symm)
      simp [IsPlaced, Array.getElem?_setIfInBounds_ne hne, heq]
  · simp at h
  · simp at h

variable {fields : List FieldId}

theorem foldl_placeField_eq {α : Type} (f : LayoutBuilder → α)
    (hf : ∀ (b : LayoutBuilder) field, f (b.placeField node field) = f b) :
    f (fields.foldl (placeField node) b) = f b := by
  induction fields generalizing b with
  | nil => rfl
  | cons field fields ih => rw [List.foldl_cons, ih, hf]

@[simp] theorem nodes_foldl_placeField : (fields.foldl (placeField node) b).nodes = b.nodes :=
  foldl_placeField_eq LayoutBuilder.nodes fun _ => nodes_placeField

@[simp] theorem fields_foldl_placeField : (fields.foldl (placeField node) b).fields = b.fields :=
  foldl_placeField_eq LayoutBuilder.fields fun _ => fields_placeField

@[simp] theorem size_placedAt_foldl_placeField :
    (fields.foldl (placeField node) b).placedAt.size = b.placedAt.size :=
  foldl_placeField_eq (·.placedAt.size) fun _ => size_placedAt_placeField

/-- The fields of one place node are distinct and new, unless a rule is broken. -/
theorem foldl_placeField_of_errors_eq (h : (fields.foldl (placeField node) b).errors = #[]) :
    b.errors = #[] ∧ fields.Nodup ∧ (∀ field ∈ fields, ¬b.IsPlaced field) ∧
      ∀ field, (fields.foldl (placeField node) b).IsPlaced field ↔
        b.IsPlaced field ∨ field ∈ fields := by
  induction fields generalizing b with
  | nil => simpa using h
  | cons first fields ih =>
    obtain ⟨hrest, hnodup, hnew, hplaced⟩ := ih h
    obtain ⟨herrors, hfirst, hafter⟩ := placeField_of_errors_eq hrest
    refine ⟨herrors, List.nodup_cons.mpr ⟨?_, hnodup⟩, ?_, fun field => ?_⟩
    · exact fun hmem => hnew first hmem ((hafter first).mpr (.inr rfl))
    · intro field hmem hbefore
      rcases List.mem_cons.mp hmem with rfl | hmem
      · exact hfirst hbefore
      · exact hnew field hmem ((hafter field).mpr (.inl hbefore))
    · rw [List.foldl_cons, hplaced, hafter, List.mem_cons, or_assoc]

end PlaceField

theorem rooted_root : Rooted #[Node.root] where
  size_pos := by decide
  root_parent h := by
    cases h
    rfl
  parent_lt := by
    intro k node hk h
    have hnone : #[Node.root][k]? = none := Array.getElem?_eq_none hk
    rw [hnone] at h
    cases h

theorem wellFormed_empty : empty.WellFormed where
  rooted := rooted_root
  size_placedAt := rfl
  nodup_placed _ := List.nodup_nil
  mem_placed _ field := by simp [placedFields, IsPlaced, empty, Node.root, NodeKind.fields]

section Steps

variable {b : LayoutBuilder}

theorem wellFormed_declare (h : b.WellFormed) (decl : FieldDecl) : (b.declare decl).WellFormed where
  rooted := h.rooted
  size_placedAt := by simp [declare, h.size_placedAt]
  nodup_placed := h.nodup_placed
  mem_placed herrors field := by
    have hplaced : (b.declare decl).IsPlaced field ↔ b.IsPlaced field := by
      simp only [IsPlaced, declare, Array.getElem?_push]
      split
      · rename_i heq
        simp [heq]
      · rfl
    rw [hplaced]
    exact h.mem_placed herrors field

theorem wellFormed_block (h : b.WellFormed) (parent : NodeId) (kind : BlockKind)
    (extents : List UInt64) : (b.attach parent (.block kind extents)).WellFormed := by
  by_cases hlt : parent.index < b.nodes.size
  · obtain ⟨shape, hnodes⟩ := attach_of_lt (.block kind extents) hlt
    have hplaced : placedFields (b.attach parent (.block kind extents)).nodes =
        placedFields b.nodes := by
      simp [hnodes, NodeKind.fields]
    refine ⟨hnodes ▸ h.rooted.push rfl hlt, by simp [h.size_placedAt], fun herrors => ?_,
      fun herrors field => ?_⟩
    · rw [hplaced]
      exact h.nodup_placed (errors_of_attach herrors)
    · rw [hplaced, IsPlaced, placedAt_attach]
      exact h.mem_placed (errors_of_attach herrors) field
  · rw [attach_of_le (Nat.le_of_not_lt hlt)]
    exact h

theorem wellFormed_place (h : b.WellFormed) (parent : NodeId) (fields : List FieldId) :
    (b.place parent fields).WellFormed := by
  rw [place]
  split
  · rename_i hlt
    obtain ⟨shape, hnodes⟩ := attach_of_lt (.place fields) hlt
    have hplaced : placedFields (b.attach parent (.place fields)).nodes =
        placedFields b.nodes ++ fields := by
      simp [hnodes, NodeKind.fields]
    constructor
    · rw [nodes_foldl_placeField, hnodes]
      exact h.rooted.push rfl hlt
    · rw [size_placedAt_foldl_placeField, fields_foldl_placeField, placedAt_attach, fields_attach]
      exact h.size_placedAt
    · intro herrors
      obtain ⟨hattach, hnodup, hnew, -⟩ := foldl_placeField_of_errors_eq herrors
      have hbefore := errors_of_attach hattach
      rw [nodes_foldl_placeField, hplaced, List.nodup_append']
      refine ⟨h.nodup_placed hbefore, hnodup, fun field hmem hfield => hnew field hfield ?_⟩
      rw [IsPlaced, placedAt_attach]
      exact (h.mem_placed hbefore field).mp hmem
    · intro herrors field
      obtain ⟨hattach, -, -, hafter⟩ := foldl_placeField_of_errors_eq herrors
      rw [nodes_foldl_placeField, hplaced, hafter, List.mem_append, IsPlaced, placedAt_attach]
      exact or_congr_left (h.mem_placed (errors_of_attach hattach) field)
  · exact h

theorem wellFormed_lazyGrad (h : b.WellFormed) : b.lazyGrad.WellFormed where
  rooted := h.rooted
  size_placedAt := by simp [lazyGrad, h.size_placedAt]
  nodup_placed := h.nodup_placed
  mem_placed := h.mem_placed

theorem wellFormed_step (h : b.WellFormed) (step : LayoutStep) : (b.step step).WellFormed := by
  cases step with
  | declare decl => exact wellFormed_declare h decl
  | block parent kind extents => exact wellFormed_block h parent kind extents
  | place parent fields => exact wellFormed_place h parent fields
  | lazyGrad => exact wellFormed_lazyGrad h

theorem wellFormed_foldl (h : b.WellFormed) (steps : List LayoutStep) :
    (steps.foldl step b).WellFormed := by
  induction steps generalizing b with
  | nil => exact h
  | cons step steps ih => exact ih (wellFormed_step h step)

theorem wellFormed_ofSteps (steps : List LayoutStep) : (ofSteps steps).WellFormed :=
  wellFormed_foldl wellFormed_empty steps

end Steps

end LayoutBuilder

end LoopNest
