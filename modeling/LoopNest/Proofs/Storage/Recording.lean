import LoopNest.Proofs.Storage.Building
import LoopNest.Proofs.Storage.Rules

/-! What a builder has recorded at any time is read off the calls made so far: its nodes and their
shapes, the declarations, where fields are placed, and the first fault. A builder goes on after a
fault, and what it holds then is still that of its calls. -/

namespace LoopNest

namespace LayoutBuilder

open Layout

/-- What a builder holds of the calls made so far. -/
structure Follows (b : LayoutBuilder) (steps : List LayoutStep) : Prop where
  kinds_eq : b.nodes.toList.map Node.kind = kinds steps
  shapes : ∀ {k node}, b.nodes[k]? = some node → PathExtents steps ⟨k⟩ node.shape
  fields_eq : b.fields.toList = graded steps
  places : ∀ {field : FieldId} {id}, b.placedAt[field.index]? = some (some id) →
    ∃ fields, (kinds steps)[id.index]? = some (.place fields) ∧ field ∈ fields
  errors_eq : b.errors.toList.head? = (faults steps).head?

section Nodes

variable {b : LayoutBuilder} {steps : List LayoutStep}

theorem Follows.size_nodes (h : b.Follows steps) : b.nodes.size = (kinds steps).length := by
  rw [← h.kinds_eq, List.length_map, Array.length_toList]

theorem Follows.getElem?_kinds (h : b.Follows steps) (k : Nat) :
    (kinds steps)[k]? = (b.nodes[k]?).map Node.kind := by
  rw [← h.kinds_eq, List.getElem?_map, Array.getElem?_toList]

theorem Follows.places_append (h : b.Follows steps) (more : List LayoutStep) {field : FieldId}
    {id : NodeId} (hat : b.placedAt[field.index]? = some (some id)) :
    ∃ fields, (kinds (steps ++ more))[id.index]? = some (.place fields) ∧ field ∈ fields := by
  obtain ⟨fields, hkind, hmem⟩ := h.places hat
  exact ⟨fields, getElem?_kinds_append hkind more, hmem⟩

theorem Follows.placedFields_eq (h : b.Follows steps) : placedFields b.nodes = named steps := by
  rw [placedFields, ← flatMap_fields_kinds, ← h.kinds_eq, List.flatMap_map]

variable {parent : NodeId} {kind : NodeKind} {step : LayoutStep}

theorem attach_eq {above : Node} (h : b.nodes[parent.index]? = some above) :
    b.attach parent kind =
      { b with
        nodes := b.nodes.push ⟨kind, some parent, above.shape ++ kind.extents⟩
        errors := if above.kind.isPlace then b.errors.push .childOfPlace else b.errors } := by
  rw [attach, h]

theorem Follows.kinds_attach (h : b.Follows steps) (hnode : step.node? = some (parent, kind))
    (hlt : parent.index < b.nodes.size) :
    (b.attach parent kind).nodes.toList.map Node.kind = kinds (steps ++ [step]) := by
  rw [attach_eq (Array.getElem?_eq_getElem hlt), kinds_append, created_singleton, hnode]
  simp [h.kinds_eq]

theorem Follows.shapes_attach (h : b.Follows steps) (hnode : step.node? = some (parent, kind))
    (hlt : parent.index < b.nodes.size) {k : Nat} {node : Node}
    (hk : (b.attach parent kind).nodes[k]? = some node) :
    PathExtents (steps ++ [step]) ⟨k⟩ node.shape := by
  have habove := Array.getElem?_eq_getElem hlt
  rw [attach_eq habove, Array.getElem?_push] at hk
  split at hk
  · rename_i hlast
    cases hk
    rw [hlast, h.size_nodes, length_kinds]
    refine .child ?_ ((h.shapes habove).append [step])
    simp [hnode]
  · exact (h.shapes hk).append [step]

theorem Follows.errors_attach (h : b.Follows steps) (hlt : parent.index < b.nodes.size) :
    (b.attach parent kind).errors.toList =
      b.errors.toList ++ if IsPlaceNode steps parent then [.childOfPlace] else [] := by
  have habove := Array.getElem?_eq_getElem hlt
  have hplace : IsPlaceNode steps parent ↔ b.nodes[parent.index].kind.isPlace := by
    rw [IsPlaceNode, h.getElem?_kinds, habove]
    rfl
  rw [attach_eq habove]
  by_cases hkind : b.nodes[parent.index].kind.isPlace
  · simp [hkind, hplace]
  · simp [hkind, hplace]

end Nodes

section Places

variable {b : LayoutBuilder} {node : NodeId} {earlier fields : List FieldId}

theorem placedAt_placeField {field other id}
    (h : (b.placeField node field).placedAt[other.index]? = some (some id)) :
    b.placedAt[other.index]? = some (some id) ∨ id = node ∧ other = field := by
  rw [placeField] at h
  split at h
  · by_cases hfield : other = field
    · subst hfield
      rw [Array.getElem?_setIfInBounds_self] at h
      split at h
      · cases h
        exact .inr ⟨rfl, rfl⟩
      · cases h
    · have hne : field.index ≠ other.index := fun hidx =>
        hfield (by cases other; cases field; exact congrArg _ hidx.symm)
      rw [Array.getElem?_setIfInBounds_ne hne] at h
      exact .inl h
  · exact .inl h
  · exact .inl h

theorem placedAt_foldl_placeField {other id}
    (h : (fields.foldl (placeField node) b).placedAt[other.index]? = some (some id)) :
    b.placedAt[other.index]? = some (some id) ∨ id = node ∧ other ∈ fields := by
  induction fields generalizing b with
  | nil => exact .inl h
  | cons field fields ih =>
    obtain hrest | ⟨rfl, hmem⟩ := ih h
    · exact (placedAt_placeField hrest).imp_right fun ⟨hid, hfield⟩ => ⟨hid, by simp [hfield]⟩
    · exact .inr ⟨rfl, List.mem_cons_of_mem _ hmem⟩

theorem errors_placeField (b : LayoutBuilder) (node : NodeId) (field : FieldId) :
    ∃ more, (b.placeField node field).errors.toList = b.errors.toList ++ more := by
  rw [placeField]
  split
  · exact ⟨[], by simp⟩
  · exact ⟨_, Array.toList_push⟩
  · exact ⟨_, Array.toList_push⟩

theorem head?_errors_placeField {field : FieldId} (hsize : b.placedAt.size = b.fields.size)
    (hplaced : b.errors = #[] → ∀ field, field ∈ earlier ↔ b.IsPlaced field) :
    (b.placeField node field).errors.toList.head? =
      b.errors.toList.head?.or
        (placeFault? (b.fields.toList.map FieldDecl.name) earlier field) := by
  by_cases herrors : b.errors = #[]
  · have hmem : field ∈ earlier ↔ b.IsPlaced field := hplaced herrors field
    rw [placeField]
    split
    · rename_i decl hdecl hat
      have hnot : field ∉ earlier := by simp [hmem, IsPlaced, hat]
      simp [herrors, placeFault?, hdecl, hnot]
    · rename_i decl id hdecl hat
      have hin : field ∈ earlier := hmem.mpr ⟨id, hat⟩
      simp [herrors, placeFault?, hdecl, hin]
    · rename_i hfresh htaken
      have hunknown : b.fields[field.index]? = none := by
        cases hdecl : b.fields[field.index]? with
        | none => rfl
        | some decl =>
          obtain ⟨hlt, -⟩ := Array.getElem?_eq_some_iff.mp hdecl
          have hat := Array.getElem?_eq_getElem (hsize.symm ▸ hlt)
          cases hplace : b.placedAt[field.index] with
          | none => exact absurd (hplace ▸ hat) (hfresh decl hdecl)
          | some id => exact absurd (hplace ▸ hat) (htaken decl id hdecl)
      simp [herrors, placeFault?, hunknown]
  · obtain ⟨more, hmore⟩ := errors_placeField b node field
    obtain ⟨first, rest, hfirst⟩ := List.exists_cons_of_ne_nil
      (fun h => herrors (Array.toList_eq_nil_iff.mp h))
    rw [hmore, hfirst]
    rfl

theorem head?_errors_foldl_placeField (hsize : b.placedAt.size = b.fields.size)
    (hplaced : b.errors = #[] → ∀ field, field ∈ earlier ↔ b.IsPlaced field) :
    (fields.foldl (placeField node) b).errors.toList.head? =
      b.errors.toList.head?.or
        (placeFaults (b.fields.toList.map FieldDecl.name) earlier fields).head? := by
  induction fields generalizing b earlier with
  | nil => simp [placeFaults]
  | cons field fields ih =>
    have hnext : (b.placeField node field).errors = #[] →
        ∀ other, other ∈ earlier ++ [field] ↔ (b.placeField node field).IsPlaced other := by
      intro herrors other
      obtain ⟨hbefore, -, hafter⟩ := placeField_of_errors_eq herrors
      rw [hafter, List.mem_append, hplaced hbefore, List.mem_singleton]
    rw [List.foldl_cons, ih (by simpa using hsize) hnext, head?_errors_placeField hsize hplaced,
      fields_placeField, placeFaults, List.head?_append, Option.or_assoc]
    simp

end Places

section Steps

variable {b : LayoutBuilder} {steps : List LayoutStep}

theorem follows_empty : empty.Follows [] where
  kinds_eq := rfl
  shapes := by
    intro k node hk
    obtain ⟨hlt, rfl⟩ := Array.getElem?_eq_some_iff.mp hk
    obtain rfl : k = 0 := Nat.lt_one_iff.mp hlt
    exact .root
  fields_eq := rfl
  places h := by simp [empty] at h
  errors_eq := rfl

theorem Follows.declare (h : b.Follows steps) (decl : FieldDecl) :
    (b.declare decl).Follows (steps ++ [.declare decl]) where
  kinds_eq := by
    rw [kinds_snoc, ← h.kinds_eq]
    simp [LayoutStep.node?, LayoutBuilder.declare]
  shapes hk := (h.shapes hk).append _
  fields_eq := by
    rw [graded_append_of_ne (by simp)]
    simp [LayoutBuilder.declare, h.fields_eq, LayoutStep.decl?]
  places {field id} hat := by
    refine h.places_append _ ?_
    rw [LayoutBuilder.declare, Array.getElem?_push] at hat
    split at hat
    · cases hat
    · exact hat
  errors_eq := by
    rw [faults_snoc, stepFaults_of_bare rfl rfl, List.append_nil]
    exact h.errors_eq

theorem Follows.block (h : b.Follows steps) (parent : NodeId) (kind : BlockKind)
    (extents : List UInt64) (hlt : parent.index < (kinds steps).length) :
    (b.attach parent (.block kind extents)).Follows (steps ++ [.block parent kind extents]) where
  kinds_eq := h.kinds_attach rfl (h.size_nodes ▸ hlt)
  shapes hk := h.shapes_attach rfl (h.size_nodes ▸ hlt) hk
  fields_eq := by
    rw [graded_append_of_ne (by simp), fields_attach, h.fields_eq]
    simp [LayoutStep.decl?]
  places hat := h.places_append _ (placedAt_attach ▸ hat)
  errors_eq := by
    rw [h.errors_attach (h.size_nodes ▸ hlt), faults_snoc, List.head?_append, List.head?_append,
      h.errors_eq]
    simp [stepFaults, LayoutStep.node?, LayoutStep.placed, placeFaults]

theorem Follows.place (h : b.Follows steps) (hb : b.WellFormed) (parent : NodeId)
    (fields : List FieldId) (hlt : parent.index < (kinds steps).length) :
    (b.place parent fields).Follows (steps ++ [.place parent fields]) := by
  have hsize : parent.index < b.nodes.size := h.size_nodes ▸ hlt
  rw [LayoutBuilder.place, if_pos hsize]
  constructor
  case kinds_eq =>
    rw [nodes_foldl_placeField]
    exact h.kinds_attach rfl hsize
  case shapes =>
    intro k node hk
    rw [nodes_foldl_placeField] at hk
    exact h.shapes_attach rfl hsize hk
  case fields_eq =>
    rw [fields_foldl_placeField, fields_attach, graded_append_of_ne (by simp), h.fields_eq]
    simp [LayoutStep.decl?]
  case places =>
    intro field id hat
    obtain hbefore | ⟨rfl, hmem⟩ := placedAt_foldl_placeField hat
    · exact h.places_append _ (placedAt_attach ▸ hbefore)
    · refine ⟨fields, ?_, hmem⟩
      rw [kinds_snoc, h.size_nodes]
      simp [LayoutStep.node?]
  case errors_eq =>
    -- The table of places agrees with the calls up to the first fault, and no later one counts.
    have hplaced : (b.attach parent (.place fields)).errors = #[] →
        ∀ field, field ∈ named steps ↔ (b.attach parent (.place fields)).IsPlaced field := by
      intro herrors field
      rw [← h.placedFields_eq, IsPlaced, placedAt_attach]
      exact hb.mem_placed (errors_of_attach herrors) field
    rw [head?_errors_foldl_placeField (by simpa using hb.size_placedAt) hplaced,
      h.errors_attach hsize, faults_snoc, List.head?_append, List.head?_append, h.errors_eq,
      fields_attach, h.fields_eq, map_name_graded, Option.or_assoc, ← List.head?_append]
    simp [stepFaults, LayoutStep.node?, LayoutStep.placed]

theorem Follows.lazyGrad (h : b.Follows steps) : b.lazyGrad.Follows (steps ++ [.lazyGrad]) where
  kinds_eq := by
    rw [kinds_snoc, ← h.kinds_eq]
    simp [LayoutStep.node?, LayoutBuilder.lazyGrad]
  shapes hk := (h.shapes hk).append _
  fields_eq := by
    rw [graded_append_lazyGrad, ← h.fields_eq]
    simp [LayoutBuilder.lazyGrad]
  places hat := h.places_append _ hat
  errors_eq := by
    rw [faults_snoc, stepFaults_of_bare rfl rfl, List.append_nil]
    exact h.errors_eq

theorem follows_ofSteps (hknown : HandlesKnown steps) : (ofSteps steps).Follows steps := by
  induction steps using List.reverseRecOn with
  | nil => exact follows_empty
  | append_singleton steps step ih =>
    obtain ⟨hbefore, hhandle⟩ := hknown.of_snoc
    have hfollows := ih hbefore
    rw [ofSteps, List.foldl_append]
    cases step with
    | declare decl => exact hfollows.declare decl
    | block parent kind extents => exact hfollows.block parent kind extents (hhandle _ rfl)
    | place parent fields =>
      exact hfollows.place (wellFormed_ofSteps steps) parent fields (hhandle _ rfl)
    | lazyGrad => exact hfollows.lazyGrad

end Steps

end LayoutBuilder

end LoopNest
