import LoopNest.Proofs.Storage.History
import LoopNest.Proofs.Storage.Recording

/-! Finishing a layout. Fields are gone through in declaration order; one is given cells in the shape of
the node that it is placed under, unless it is placed nowhere or its buffers cannot be allocated. -/

namespace LoopNest

namespace Layout

/-- The extents on the path to the place node that names the field. -/
def CellShape (steps : List LayoutStep) (field : FieldId) (shape : List UInt64) : Prop :=
  ∃ node fields, (kinds steps)[node.index]? = some (.place fields) ∧ field ∈ fields ∧
    PathExtents steps node shape

def CanAllocate (steps : List LayoutStep) (field : FieldId) (decl : FieldDecl) : Prop :=
  ∃ shape, CellShape steps field shape ∧ Buffer.Allocatable shape decl.elementShape

inductive FieldFails (steps : List LayoutStep) (field : FieldId) (decl : FieldDecl) :
    LayoutError → Prop where
  | notPlaced (h : field ∉ named steps) : FieldFails steps field decl (.notPlaced decl.name)
  | tooLarge {shape : List UInt64} (h : CellShape steps field shape)
    (hlarge : ¬Buffer.Allocatable shape decl.elementShape) :
    FieldFails steps field decl (.tooLarge decl.name)

def FirstFails (steps : List LayoutStep) (error : LayoutError) : Prop :=
  ∃ k decl, (declared steps)[k]? = some decl ∧ FieldFails steps ⟨k⟩ decl error ∧
    ∀ j < k, ∃ earlier, (declared steps)[j]? = some earlier ∧ CanAllocate steps ⟨j⟩ earlier

section Unique

variable {steps : List LayoutStep}

theorem PathExtents.unique {node : NodeId} {extents extents' : List UInt64}
    (h : PathExtents steps node extents) (h' : PathExtents steps node extents') :
    extents = extents' := by
  induction h generalizing extents' with
  | root =>
    cases h'
    rfl
  | child hmade _ ih =>
    cases h' with
    | child hmade' above' =>
      obtain ⟨rfl, rfl⟩ := Prod.mk.inj (Option.some.inj (hmade.symm.trans hmade'))
      rw [ih above']

theorem CellShape.unique (hnodup : (named steps).Nodup) {field : FieldId}
    {shape shape' : List UInt64} (h : CellShape steps field shape)
    (h' : CellShape steps field shape') : shape = shape' := by
  obtain ⟨⟨i⟩, fields, hi, hmem, hpath⟩ := h
  obtain ⟨⟨j⟩, fields', hj, hmem', hpath'⟩ := h'
  rw [← flatMap_fields_kinds, List.nodup_flatMap] at hnodup
  have hapart := List.pairwise_iff_getElem.mp hnodup.2
  obtain ⟨hilt, higet⟩ := List.getElem?_eq_some_iff.mp hi
  obtain ⟨hjlt, hjget⟩ := List.getElem?_eq_some_iff.mp hj
  have hfield : ∀ {k : Nat} (hk : k < (kinds steps).length) {fs : List FieldId},
      (kinds steps)[k] = .place fs → field ∈ fs → field ∈ (kinds steps)[k].fields := by
    intro k hk fs hkind hfs
    rw [hkind]
    exact hfs
  rcases Nat.lt_trichotomy i j with hlt | rfl | hlt
  · exact absurd (hfield hjlt hjget hmem') (hapart i j hilt hjlt hlt (hfield hilt higet hmem))
  · exact hpath.unique hpath'
  · exact absurd (hfield hilt higet hmem) (hapart j i hjlt hilt hlt (hfield hjlt hjget hmem'))

theorem not_firstFails (hnodup : (named steps).Nodup)
    (hnamed : ∀ k < (declared steps).length, ⟨k⟩ ∈ named steps)
    (hall : ∀ k decl, (declared steps)[k]? = some decl → CanAllocate steps ⟨k⟩ decl)
    {error : LayoutError} : ¬FirstFails steps error := by
  rintro ⟨k, decl, hdecl, hfails, -⟩
  cases hfails with
  | notPlaced hmissing => exact hmissing (hnamed k (List.getElem?_eq_some_iff.mp hdecl).1)
  | tooLarge hshape hlarge =>
    obtain ⟨shape, hshape', hfits⟩ := hall k decl hdecl
    exact hlarge (hshape.unique hnodup hshape' ▸ hfits)

end Unique

/-- The buffers that the calls imply for a field of a given declaration. -/
structure AllocatedFor (steps : List LayoutStep) (field : FieldId) (decl : FieldDecl)
    (p : Placement) : Prop where
  shape : CellShape steps field p.primary.shape
  kind_eq : p.primary.kind = decl.kind
  elementShape_eq : p.primary.elementShape = decl.elementShape
  size_eq : p.primary.size = (p.primary.extents.map UInt64.toNat).prod
  zero : ∀ bits ∈ p.primary.cells, bits = decl.kind.zeroBits
  adjoint_eq : p.adjoint = if decl.needsGrad then some p.primary else none

end Layout

namespace LayoutBuilder

open Layout

theorem allocate_eq_error {decl : FieldDecl} {shape : List UInt64} {error : LayoutError}
    (h : allocate decl shape = .error error) :
    ¬Buffer.Allocatable shape decl.elementShape ∧ error = .tooLarge decl.name := by
  rw [allocate] at h
  split at h
  · cases h
  · rename_i hnone
    cases h
    exact ⟨Buffer.zeroed?_eq_none_iff.mp hnone, rfl⟩

theorem allocatedFor_allocate {steps : List LayoutStep} {field : FieldId} {decl : FieldDecl}
    {shape : List UInt64} {p : Placement} (hshape : CellShape steps field shape)
    (h : allocate decl shape = .ok p) : AllocatedFor steps field decl p := by
  obtain ⟨buffer, hzeroed, rfl⟩ := allocate_eq_ok_iff.mp h
  obtain ⟨hkind, rfl, helement⟩ := Buffer.eq_of_zeroed? hzeroed
  exact ⟨hshape, hkind, helement, (Buffer.built_of_zeroed? hzeroed).allocated,
    fun _ hbits => Buffer.bits_of_zeroed? hzeroed hbits, rfl⟩

section Finish

variable {b : LayoutBuilder} {steps : List LayoutStep} {error : LayoutError}

theorem Follows.errors_eq_empty_iff (h : b.Follows steps) : b.errors = #[] ↔ faults steps = [] := by
  rw [← List.head?_eq_none_iff, ← h.errors_eq, List.head?_eq_none_iff, Array.toList_eq_nil_iff]

theorem Follows.mem_named_iff (h : b.Follows steps) (hb : b.WellFormed) (herrors : b.errors = #[])
    (field : FieldId) : field ∈ named steps ↔ b.IsPlaced field := by
  rw [← h.placedFields_eq]
  exact hb.mem_placed herrors field

theorem Follows.size_fields (h : b.Follows steps) : b.fields.size = (declared steps).length := by
  rw [← Array.length_toList, h.fields_eq, ← List.length_map FieldDecl.name, map_name_graded,
    List.length_map]

theorem Follows.exists_declared (h : b.Follows steps) {k : Nat} {decl : FieldDecl}
    (hk : b.fields[k]? = some decl) :
    ∃ first, (declared steps)[k]? = some first ∧ first.name = decl.name ∧
      first.elementShape = decl.elementShape := by
  let f (decl : FieldDecl) := (decl.name, decl.elementShape)
  have hsame : ((declared steps).map f)[k]? = some (f decl) := by
    rw [← map_graded (fun _ _ => rfl), ← h.fields_eq, List.getElem?_map, Array.getElem?_toList, hk]
    rfl
  simpa [f] using hsame

theorem Follows.cellShape (h : b.Follows steps) (field : FieldId) {id : NodeId} {node : Node}
    (hat : b.placedAt[field.index]? = some (some id)) (hnode : b.nodes[id.index]? = some node) :
    CellShape steps field node.shape := by
  obtain ⟨fields, hkind, hmem⟩ := h.places hat
  exact ⟨id, fields, hkind, hmem, h.shapes hnode⟩

theorem Follows.fieldFails (h : b.Follows steps) (hb : b.WellFormed) (herrors : b.errors = #[])
    (field : FieldId) {decl : FieldDecl} {placed : Option NodeId}
    (hat : b.placedAt[field.index]? = some placed)
    (herror : b.placement decl placed = .error error) : FieldFails steps field decl error := by
  cases placed with
  | none =>
    cases herror
    refine .notPlaced fun hnamed => ?_
    obtain ⟨id, hid⟩ := (h.mem_named_iff hb herrors field).mp hnamed
    rw [hat] at hid
    cases hid
  | some id =>
    -- A recorded place is a node of the tree, so that there is a shape to allocate.
    obtain ⟨fields, hkind, -⟩ := h.places hat
    rw [h.getElem?_kinds, Option.map_eq_some_iff] at hkind
    obtain ⟨node, hnode, -⟩ := hkind
    rw [placement_of_node decl hnode] at herror
    obtain ⟨hlarge, rfl⟩ := allocate_eq_error herror
    exact .tooLarge (h.cellShape field hat hnode) hlarge

theorem Follows.canAllocate (h : b.Follows steps) (field : FieldId) {decl : FieldDecl}
    {placed : Option NodeId} (hat : b.placedAt[field.index]? = some placed) {p : Placement}
    (hp : b.placement decl placed = .ok p) : CanAllocate steps field decl := by
  obtain ⟨id, node, rfl, hnode, hallocate⟩ := placement_eq_ok_iff.mp hp
  obtain ⟨buffer, hzeroed, -⟩ := allocate_eq_ok_iff.mp hallocate
  exact ⟨node.shape, h.cellShape field hat hnode, (Buffer.zeroed?_eq_some_iff.mp hzeroed).1⟩

theorem Follows.firstFails (h : b.Follows steps) (hb : b.WellFormed) (herrors : b.errors = #[])
    (herror : (b.fields.toList.zip b.placedAt.toList).mapM
      (fun (decl, placed) => b.placement decl placed) = .error error) :
    FirstFails steps error := by
  obtain ⟨before, ⟨decl, placed⟩, after, hsplit, hbefore, hfirst⟩ :=
    exists_first_of_mapM_eq_error herror
  have hat (j : Nat) (pair : FieldDecl × Option NodeId)
      (hj : (before ++ (decl, placed) :: after)[j]? = some pair) :
      b.fields[j]? = some pair.1 ∧ b.placedAt[j]? = some pair.2 := by
    rw [← hsplit, List.getElem?_zip_eq_some] at hj
    simpa using hj
  obtain ⟨hdecl, hplaced⟩ := hat before.length (decl, placed) (by simp)
  obtain ⟨first, hget, hname, helement⟩ := h.exists_declared hdecl
  refine ⟨before.length, first, hget, ?_, fun j hj => ?_⟩
  · have hfails := h.fieldFails hb herrors ⟨before.length⟩ hplaced hfirst
    cases hfails with
    | notPlaced hmissing => exact hname ▸ .notPlaced hmissing
    | tooLarge hshape hlarge =>
      exact hname ▸ .tooLarge hshape (helement ▸ hlarge)
  · obtain ⟨p, hp⟩ := hbefore before[j] (List.getElem_mem hj)
    obtain ⟨hdeclj, hplacedj⟩ := hat j before[j] (by simp [List.getElem?_append_left hj])
    obtain ⟨earlier, hearlier, -, hsame⟩ := h.exists_declared hdeclj
    obtain ⟨shape, hshape, hfits⟩ := h.canAllocate ⟨j⟩ hplacedj hp
    exact ⟨earlier, hearlier, shape, hshape, hsame ▸ hfits⟩

theorem Follows.finalize_eq_error (h : b.Follows steps) (hb : b.WellFormed)
    (herror : b.finalize = .error error) :
    (faults steps).head? = some error ∨ faults steps = [] ∧ FirstFails steps error := by
  rw [finalize] at herror
  split at herror
  · rename_i first hfirst
    cases herror
    rw [← h.errors_eq, List.head?_eq_getElem?, Array.getElem?_toList]
    exact .inl hfirst
  · rename_i hnone
    have herrors : b.errors = #[] := by simpa using hnone
    obtain hmap | ⟨_, -, hpure⟩ := bind_eq_error_iff.mp herror
    · exact .inr ⟨h.errors_eq_empty_iff.mp herrors, h.firstFails hb herrors hmap⟩
    · cases hpure

theorem Follows.exists_finalize_iff (h : b.Follows steps) (hb : b.WellFormed) :
    (∃ r, b.finalize = .ok r) ↔ Rules steps ∧
      ∀ k decl, (declared steps)[k]? = some decl → CanAllocate steps ⟨k⟩ decl := by
  rw [rules_iff]
  constructor
  · rintro ⟨r, hr⟩
    have herrors := (finalize_eq_ok hr).1
    have hplaced {k : Nat} (hk : k < (declared steps).length) :=
      placement_of_finalize hb hr (h.size_fields.symm ▸ hk)
    refine ⟨⟨h.errors_eq_empty_iff.mp herrors, fun k hk => ?_⟩, fun k decl hdecl => ?_⟩
    · obtain ⟨id, -, -, hid, -⟩ := hplaced hk
      exact (h.mem_named_iff hb herrors ⟨k⟩).mpr ⟨id, hid⟩
    · have hk := (List.getElem?_eq_some_iff.mp hdecl).1
      obtain ⟨id, node, p, hid, hnode, -, hallocate⟩ := hplaced hk
      obtain ⟨first, hfirst, -, helement⟩ :=
        h.exists_declared (Array.getElem?_eq_getElem (h.size_fields.symm ▸ hk))
      obtain rfl : first = decl := Option.some.inj (hfirst.symm.trans hdecl)
      obtain ⟨buffer, hzeroed, -⟩ := allocate_eq_ok_iff.mp hallocate
      exact ⟨node.shape, h.cellShape ⟨k⟩ hid hnode,
        helement ▸ (Buffer.zeroed?_eq_some_iff.mp hzeroed).1⟩
  · rintro ⟨⟨hfaults, hnamed⟩, hall⟩
    cases hr : b.finalize with
    | ok r => exact ⟨r, rfl⟩
    | error error =>
      obtain hhead | ⟨-, hfails⟩ := h.finalize_eq_error hb hr
      · rw [hfaults] at hhead
        cases hhead
      · exact absurd hfails (not_firstFails (faults_eq_nil_iff.mp hfaults).2.2 hnamed hall)

theorem Follows.allocatedFor (h : b.Follows steps) (hb : b.WellFormed) {r : Registry}
    (hr : b.finalize = .ok r) {field : FieldId} {decl : FieldDecl}
    (hdecl : (graded steps)[field.index]? = some decl) :
    r.decl? field = some decl ∧
      ∃ p, r.placement? field = some p ∧ AllocatedFor steps field decl p := by
  rw [← h.fields_eq, Array.getElem?_toList] at hdecl
  obtain ⟨hlt, hget⟩ := Array.getElem?_eq_some_iff.mp hdecl
  obtain ⟨id, node, p, hplaced, hnode, hp, hallocate⟩ := placement_of_finalize hb hr hlt
  obtain ⟨-, -, hfields, -⟩ := finalize_eq_ok hr
  refine ⟨by rw [Registry.decl?, hfields, hdecl], p, hp, ?_⟩
  exact allocatedFor_allocate (h.cellShape field hplaced hnode) (hget ▸ hallocate)

end Finish

variable {steps : List LayoutStep}

/-- A builder driven by any calls on its own handles finishes exactly if they keep the rules and the
buffers of every field can be allocated. Otherwise it reports the first fault, or, if there is none,
ends with the first declared field that is placed nowhere or that is too large, in which case the run
aborts. When it finishes, a field has an adjoint if it was declared with one or a later call asked for
it. -/
theorem finalize_follows_rules (hknown : HandlesKnown steps) :
    ((∃ r, (ofSteps steps).finalize = .ok r) ↔ Rules steps ∧
      ∀ k decl, (declared steps)[k]? = some decl → CanAllocate steps ⟨k⟩ decl) ∧
    (∀ error, (ofSteps steps).finalize = .error error →
      (faults steps).head? = some error ∨ faults steps = [] ∧ FirstFails steps error) ∧
    ∀ r, (ofSteps steps).finalize = .ok r →
      r.placements.size = (declared steps).length ∧
      ∀ before decl after, steps = before ++ .declare decl :: after →
        let field : FieldId := ⟨(declared before).length⟩
        let decl := { decl with needsGrad := decl.needsGrad || after.contains .lazyGrad }
        r.decl? field = some decl ∧
          ∃ p, r.placement? field = some p ∧ AllocatedFor steps field decl p := by
  have hfollows := follows_ofSteps hknown
  have hb := wellFormed_ofSteps steps
  refine ⟨hfollows.exists_finalize_iff hb, fun error => hfollows.finalize_eq_error hb,
    fun r hr => ⟨?_, ?_⟩⟩
  · rw [size_placements_of_finalize hb hr, hfollows.size_fields]
  · rintro before decl after rfl
    exact hfollows.allocatedFor hb hr (getElem?_graded before after decl)

theorem finalize_follows_rules_nested :
    let good : List LayoutStep := [.declare ⟨"x", .float .f32, [2], false⟩,
      .block ⟨0⟩ .dense [2], .lazyGrad, .block ⟨1⟩ .pointer [3],
      .declare ⟨"y", .int .i64, [], false⟩, .place ⟨2⟩ [⟨0⟩], .place ⟨1⟩ [⟨1⟩]]
    let bad := good ++ [.place ⟨3⟩ [⟨2⟩, ⟨0⟩]]
    Rules good ∧ (∃ r p, (ofSteps good).finalize = .ok r ∧ r.placement? ⟨0⟩ = some p ∧
      AllocatedFor good ⟨0⟩ ⟨"x", .float .f32, [2], true⟩ p) ∧
    (faults bad).head? = some .childOfPlace ∧ (ofSteps bad).finalize = .error .childOfPlace := by
  intro good bad
  have hgood : HandlesKnown good := by decide
  have hbad : HandlesKnown bad := by decide
  obtain ⟨hrules, -, hallocated⟩ := finalize_follows_rules hgood
  obtain ⟨-, hfirst, -⟩ := finalize_follows_rules hbad
  have hfinish : (ofSteps good).finalize.isOk := by cbv
  have hfail : (ofSteps bad).finalize = .error .childOfPlace := by cbv
  cases hr : (ofSteps good).finalize with
  | error error =>
    rw [hr] at hfinish
    cases hfinish
  | ok r =>
    obtain ⟨-, hfields⟩ := hallocated r hr
    obtain ⟨-, p, hp, hfor⟩ := hfields [] _ _ rfl
    refine ⟨(hrules.mp ⟨r, hr⟩).1, ⟨r, p, rfl, hp, hfor⟩, ?_, hfail⟩
    obtain hhead | ⟨hnil, -⟩ := hfirst _ hfail
    · exact hhead
    · cases hnil

/-- One field of two to the 61st cells keeps every rule and its cells can be counted, but they take more
bytes than an allocation has. -/
theorem finalize_aborts_on_large_field :
    let shape : List UInt64 := [2305843009213693952]
    let steps : List LayoutStep :=
      [.declare ⟨"x", .int .i64, [], false⟩, .block ⟨0⟩ .dense shape, .place ⟨1⟩ [⟨0⟩]]
    HandlesKnown steps ∧ Rules steps ∧ cellCount? shape [] = some 2305843009213693952 ∧
      (ofSteps steps).finalize = .error (.tooLarge "x") ∧ (LayoutError.tooLarge "x").aborts := by
  intro shape steps
  have hrules : Rules steps := rules_iff.mpr ⟨rfl, by decide⟩
  exact ⟨by decide, hrules, by decide, rfl, rfl⟩

end LayoutBuilder

end LoopNest
