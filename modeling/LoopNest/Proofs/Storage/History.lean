import LoopNest.Proofs.Storage.Building
import LoopNest.Proofs.Storage.Sizes
import Mathlib.Data.List.Forall2
import Mathlib.Data.List.Perm.Lattice

/-! Registries that a program can come to hold: a finished layout, then any stores and clearing
passes. Buffers keep their sizes, and the tree and the declarations never change. -/

namespace LoopNest

namespace Placement

@[simp] theorem buffer?_modify_self (p : Placement) (f : Buffer → Buffer) (role : BufferRole) :
    (p.modify f role).buffer? role = (p.buffer? role).map f := by
  cases role <;> rfl

theorem buffer?_modify_of_ne (p : Placement) (f : Buffer → Buffer) {role other : BufferRole}
    (h : other ≠ role) : (p.modify f role).buffer? other = p.buffer? other := by
  cases role <;> cases other <;> first | rfl | exact absurd rfl h

end Placement

namespace Registry

section ModifyBuffer

variable (r : Registry) (field : FieldId) (role : BufferRole) (f : Buffer → Buffer)

@[simp] theorem nodes_modifyBuffer : (r.modifyBuffer field role f).nodes = r.nodes := rfl

@[simp] theorem fields_modifyBuffer : (r.modifyBuffer field role f).fields = r.fields := rfl

@[simp] theorem size_placements_modifyBuffer :
    (r.modifyBuffer field role f).placements.size = r.placements.size := by
  simp [modifyBuffer]

@[simp] theorem placement?_modifyBuffer_self :
    (r.modifyBuffer field role f).placement? field = (r.placement? field).map (·.modify f role) := by
  simp [placement?, modifyBuffer, Array.getElem?_modify]

theorem placement?_modifyBuffer_of_ne {other : FieldId} (h : other ≠ field) :
    (r.modifyBuffer field role f).placement? other = r.placement? other := by
  have hindex : field.index ≠ other.index := fun hindex =>
    h (by cases other; cases field; exact congrArg _ hindex.symm)
  simp [placement?, modifyBuffer, Array.getElem?_modify, hindex]

@[simp] theorem buffer?_modifyBuffer_self :
    (r.modifyBuffer field role f).buffer? field role = (r.buffer? field role).map f := by
  cases h : r.placement? field with
  | none => simp [buffer?, h]
  | some p => simp [buffer?, h]

theorem buffer?_modifyBuffer_of_ne {other : FieldId} {role' : BufferRole}
    (h : (other, role') ≠ (field, role)) :
    (r.modifyBuffer field role f).buffer? other role' = r.buffer? other role' := by
  by_cases hfield : other = field
  · subst hfield
    have hrole : role' ≠ role := fun hrole => h (hrole ▸ rfl)
    cases hp : r.placement? other with
    | none => simp [buffer?, hp]
    | some p => simp [buffer?, hp, p.buffer?_modify_of_ne f hrole]
  · simp only [buffer?, placement?_modifyBuffer_of_ne _ _ _ _ hfield]

variable {r field role f}

theorem modifyBuffer_eq_self (h : ∀ b, r.buffer? field role = some b → f b = b) :
    r.modifyBuffer field role f = r := by
  have hplacements : (r.modifyBuffer field role f).placements = r.placements := by
    apply Array.ext_getElem?
    intro k
    simp only [modifyBuffer, Array.getElem?_modify]
    split
    · rename_i hk
      cases hp : r.placements[k]? with
      | none => rfl
      | some p =>
        have hsame : p.modify f role = p := by
          simp only [buffer?, placement?, hk, hp, Option.bind_eq_bind, Option.bind_some] at h
          cases p with
          | mk primary adjoint =>
            cases role with
            | primary => simp [Placement.modify, h primary rfl]
            | adjoint =>
              cases adjoint with
              | none => rfl
              | some adjoint => simp [Placement.modify, h adjoint rfl]
        simp [hsame]
    · rfl
  exact congrArg (fun placements => { r with placements := placements }) hplacements

end ModifyBuffer

def fieldIds (r : Registry) : List FieldId := (List.range r.fields.size).map FieldId.mk

theorem mem_fieldIds {r : Registry} {field : FieldId} :
    field ∈ r.fieldIds ↔ field.index < r.fields.size := by
  simp only [fieldIds, List.mem_map, List.mem_range]
  constructor
  · rintro ⟨k, hk, rfl⟩
    exact hk
  · exact fun h => ⟨field.index, h, rfl⟩

theorem nodup_fieldIds (r : Registry) : r.fieldIds.Nodup := by
  refine List.Nodup.map (fun i j h => ?_) List.nodup_range
  exact FieldId.mk.inj h

def Everywhere (P : Buffer → Prop) (r : Registry) : Prop :=
  ∀ field role b, r.buffer? field role = some b → P b

theorem Everywhere.modifyBuffer {P : Buffer → Prop} {r : Registry} (h : Everywhere P r)
    (field : FieldId) (role : BufferRole) {f : Buffer → Buffer}
    (hf : ∀ b, r.buffer? field role = some b → P (f b)) :
    Everywhere P (r.modifyBuffer field role f) := by
  intro other role' b hb
  by_cases heq : (other, role') = (field, role)
  · obtain ⟨rfl, rfl⟩ := Prod.mk.inj heq
    rw [buffer?_modifyBuffer_self, Option.map_eq_some_iff] at hb
    obtain ⟨b, hb, rfl⟩ := hb
    exact hf b hb
  · rw [buffer?_modifyBuffer_of_ne _ _ _ _ heq] at hb
    exact h other role' b hb

/-- What stays true of a registry once its layout is finished. -/
structure WellFormed (r : Registry) : Prop where
  rooted : Rooted r.nodes
  /-- Every declared field is named by one place node, and no other is. -/
  placed : (placedFields r.nodes).Perm r.fieldIds
  size_placements : r.placements.size = r.fields.size
  built : ∀ {field role b}, r.buffer? field role = some b → b.Built

theorem WellFormed.modifyBuffer {r : Registry} (h : r.WellFormed) (field : FieldId)
    (role : BufferRole) {f : Buffer → Buffer} (hf : ∀ b : Buffer, (f b).Alike b) :
    (r.modifyBuffer field role f).WellFormed where
  rooted := h.rooted
  placed := h.placed
  size_placements := by simpa using h.size_placements
  built := Everywhere.modifyBuffer (fun _ _ _ => h.built) field role
    (fun b hb => (hf b).built (h.built hb)) _ _ _

end Registry

namespace LayoutBuilder

theorem allocate_eq_ok_iff {decl : FieldDecl} {shape : List UInt64} {p : Placement} :
    allocate decl shape = .ok p ↔ ∃ buffer,
      Buffer.zeroed? decl.kind shape decl.elementShape = some buffer ∧
        p = ⟨buffer, if decl.needsGrad then some buffer else none⟩ := by
  rw [allocate]
  cases Buffer.zeroed? decl.kind shape decl.elementShape with
  | none => simp
  | some buffer =>
    simp only [Except.ok.injEq, Option.some.injEq, exists_eq_left']
    exact eq_comm

theorem placement_of_node {b : LayoutBuilder} (decl : FieldDecl) {id : NodeId} {node : Node}
    (h : b.nodes[id.index]? = some node) :
    b.placement decl (some id) = allocate decl node.shape := by
  simp [placement, h]

theorem placement_eq_ok_iff {b : LayoutBuilder} {decl : FieldDecl} {placed : Option NodeId}
    {p : Placement} :
    b.placement decl placed = .ok p ↔
      ∃ id node, placed = some id ∧ b.nodes[id.index]? = some node ∧
        allocate decl node.shape = .ok p := by
  rw [placement]
  cases placed with
  | none => simp
  | some id =>
    cases hnode : b.nodes[id.index]? with
    | none => simp [hnode]
    | some node => simp [hnode]

theorem zeroed?_of_allocate {decl : FieldDecl} {shape : List UInt64} {p : Placement}
    {role : BufferRole} {buffer : Buffer} (h : allocate decl shape = .ok p)
    (hbuffer : p.buffer? role = some buffer) :
    Buffer.zeroed? decl.kind shape decl.elementShape = some buffer := by
  obtain ⟨primary, hzeroed, rfl⟩ := allocate_eq_ok_iff.mp h
  cases role with
  | primary => exact hbuffer ▸ hzeroed
  | adjoint =>
    simp only [Placement.buffer?] at hbuffer
    split at hbuffer
    · exact hbuffer ▸ hzeroed
    · cases hbuffer

theorem finalize_eq_ok {b : LayoutBuilder} {r : Registry} (h : b.finalize = .ok r) :
    b.errors = #[] ∧ r.nodes = b.nodes ∧ r.fields = b.fields ∧
      List.Forall₂ (fun a p => b.placement a.1 a.2 = .ok p)
        (b.fields.toList.zip b.placedAt.toList) r.placements.toList := by
  rw [finalize] at h
  split at h
  · cases h
  · rename_i herrors
    simp only [bind_eq_ok_iff, pure_eq_ok_iff, mapM_eq_ok_iff] at h
    obtain ⟨placements, hplaced, rfl⟩ := h
    refine ⟨?_, rfl, rfl, by simpa using hplaced⟩
    simpa using herrors

section Finalize

variable {b : LayoutBuilder} {r : Registry}

theorem size_placements_of_finalize (hb : b.WellFormed) (h : b.finalize = .ok r) :
    r.placements.size = b.fields.size := by
  have hlength := List.Forall₂.length_eq (finalize_eq_ok h).2.2.2
  simpa [hb.size_placedAt] using hlength.symm

theorem placement_of_finalize (hb : b.WellFormed) (h : b.finalize = .ok r) {k : Nat}
    (hk : k < b.fields.size) :
    ∃ id node p, b.placedAt[k]? = some (some id) ∧ b.nodes[id.index]? = some node ∧
      r.placements[k]? = some p ∧ allocate b.fields[k] node.shape = .ok p := by
  have hat : k < b.placedAt.size := hb.size_placedAt.symm ▸ hk
  have hp : k < r.placements.size := (size_placements_of_finalize hb h).symm ▸ hk
  have hplaced := (List.forall₂_iff_get.mp (finalize_eq_ok h).2.2.2).2 k
    (by simp only [List.length_zip, Array.length_toList]; omega) hp
  simp only [List.get_eq_getElem, List.getElem_zip, Array.getElem_toList,
    placement_eq_ok_iff] at hplaced
  obtain ⟨id, node, hid, hnode, hallocate⟩ := hplaced
  refine ⟨id, node, _, ?_, hnode, Array.getElem?_eq_getElem hp, hallocate⟩
  rw [Array.getElem?_eq_getElem hat, hid]

theorem zeroed?_of_finalize (hb : b.WellFormed) (h : b.finalize = .ok r) {field : FieldId}
    {role : BufferRole} {buffer : Buffer} (hbuffer : r.buffer? field role = some buffer) :
    ∃ kind shape elementShape, Buffer.zeroed? kind shape elementShape = some buffer := by
  simp only [Registry.buffer?, Registry.placement?, Option.bind_eq_bind,
    Option.bind_eq_some_iff] at hbuffer
  obtain ⟨p, hp, hbuffer⟩ := hbuffer
  obtain ⟨hlt, -⟩ := Array.getElem?_eq_some_iff.mp hp
  rw [size_placements_of_finalize hb h] at hlt
  obtain ⟨-, node, p', -, -, hp', hallocate⟩ := placement_of_finalize hb h hlt
  obtain rfl : p' = p := Option.some.inj (hp'.symm.trans hp)
  exact ⟨_, _, _, zeroed?_of_allocate hallocate hbuffer⟩

theorem registry_wellFormed (hb : b.WellFormed) (h : b.finalize = .ok r) : r.WellFormed := by
  obtain ⟨herrors, hnodes, hfields, -⟩ := finalize_eq_ok h
  refine ⟨hnodes ▸ hb.rooted, ?_, hfields ▸ size_placements_of_finalize hb h, ?_⟩
  · rw [hnodes, List.perm_ext_iff_of_nodup (hb.nodup_placed herrors) r.nodup_fieldIds]
    intro field
    rw [hb.mem_placed herrors, Registry.mem_fieldIds, hfields]
    constructor
    · rintro ⟨node, hnode⟩
      obtain ⟨hlt, -⟩ := Array.getElem?_eq_some_iff.mp hnode
      exact hb.size_placedAt ▸ hlt
    · intro hlt
      obtain ⟨id, -, -, hid, -⟩ := placement_of_finalize hb h hlt
      exact ⟨id, hid⟩
  · intro field role buffer hbuffer
    obtain ⟨kind, shape, elementShape, hzeroed⟩ := zeroed?_of_finalize hb h hbuffer
    exact Buffer.built_of_zeroed? hzeroed

end Finalize

end LayoutBuilder

inductive StorageStep where
  | setInt (field : FieldId) (role : BufferRole) (index element : List Int64) (value : Int64)
  | setFloat (field : FieldId) (role : BufferRole) (index element : List Int64) (value : Binary64)
  | clear (search : Search)

namespace Registry

def after (r : Registry) : Option (Except AccessFault Registry) → Registry
  | some (.ok s) => s
  | _ => r

def write (r : Registry) : StorageStep → Registry
  | .setInt field role index element value => r.after (r.setInt? field role index element value)
  | .setFloat field role index element value => r.after (r.setFloat? field role index element value)
  | .clear search => (r.clearGradients search).1

/-- Reached from a finished layout by some steps. -/
def Reachable (r : Registry) : Prop :=
  ∃ (steps : List LayoutStep) (r₀ : Registry) (history : List StorageStep),
    (LayoutBuilder.ofSteps steps).finalize = .ok r₀ ∧ history.foldl write r₀ = r

theorem store?_eq_some_ok {r s : Registry} {field : FieldId} {role : BufferRole}
    {index element : List Int64} {bits : ScalarKind → UInt64}
    (h : r.store? field role index element bits = some (.ok s)) :
    ∃ b offset, r.buffer? field role = some b ∧ b.offset index element = .ok offset ∧
      s = r.modifyBuffer field role (·.setCell offset (bits b.kind)) := by
  simp only [store?, locate?, Option.map_map, Option.map_eq_some_iff, Function.comp] at h
  obtain ⟨b, hb, h⟩ := h
  cases hcell : b.cell index element with
  | error fault =>
    rw [hcell] at h
    cases h
  | ok offset =>
    rw [hcell] at h
    cases h
    exact ⟨b, offset, hb, (Buffer.cell_eq_ok_iff.mp hcell).1, rfl⟩

theorem WellFormed.after_store {r : Registry} (h : r.WellFormed) (field : FieldId)
    (role : BufferRole) (index element : List Int64) (bits : ScalarKind → UInt64) :
    (r.after (r.store? field role index element bits)).WellFormed := by
  rw [after.eq_def]
  split
  · rename_i s hs
    obtain ⟨b, offset, -, -, rfl⟩ := store?_eq_some_ok hs
    exact h.modifyBuffer field role fun b => b.alike_setCell offset _
  · exact h

theorem WellFormed.clearLeaf {state : Registry × ClearStats} (h : state.1.WellFormed)
    (field : FieldId) : (clearLeaf state field).1.WellFormed := by
  rw [Registry.clearLeaf]
  split
  · exact h.modifyBuffer field .adjoint Buffer.alike_clear
  · exact h

theorem WellFormed.foldl_clearLeaf {state : Registry × ClearStats} (h : state.1.WellFormed)
    (order : List FieldId) : (order.foldl Registry.clearLeaf state).1.WellFormed := by
  induction order generalizing state with
  | nil => exact h
  | cons field order ih => exact ih (h.clearLeaf field)

theorem WellFormed.write {r : Registry} (h : r.WellFormed) (step : StorageStep) :
    (r.write step).WellFormed := by
  cases step with
  | setInt field role index element value => exact h.after_store field role index element _
  | setFloat field role index element value => exact h.after_store field role index element _
  | clear search => exact WellFormed.foldl_clearLeaf h (r.leaves search)

theorem WellFormed.foldl_write {r : Registry} (h : r.WellFormed) (history : List StorageStep) :
    (history.foldl Registry.write r).WellFormed := by
  induction history generalizing r with
  | nil => exact h
  | cons step history ih => exact ih (h.write step)

theorem wellFormed_of_reachable {r : Registry} (h : r.Reachable) : r.WellFormed := by
  obtain ⟨steps, r₀, history, hr₀, rfl⟩ := h
  have hbuilder := LayoutBuilder.wellFormed_ofSteps steps
  exact (LayoutBuilder.registry_wellFormed hbuilder hr₀).foldl_write history

/-- What zeroed buffers have, and what stores and clearing keep, all buffers always have. -/
structure BufferInvariant (P : Buffer → Prop) : Prop where
  zeroed : ∀ {kind shape elementShape b}, Buffer.zeroed? kind shape elementShape = some b → P b
  setInt : ∀ b offset value, P b → P (b.setCell offset (b.kind.encodeInt value))
  setFloat : ∀ b offset value, P b → P (b.setCell offset (b.kind.encodeFloat value))
  clear : ∀ b, P b → P b.clear

section BufferInvariant

variable {P : Buffer → Prop} {r : Registry}

theorem Everywhere.after_store (h : Everywhere P r) (field : FieldId) (role : BufferRole)
    (index element : List Int64) {bits : ScalarKind → UInt64}
    (hset : ∀ b offset, P b → P (b.setCell offset (bits b.kind))) :
    Everywhere P (r.after (r.store? field role index element bits)) := by
  rw [after.eq_def]
  split
  · rename_i s hs
    obtain ⟨b, offset, hb, -, rfl⟩ := store?_eq_some_ok hs
    refine h.modifyBuffer field role fun b' hb' => ?_
    obtain rfl : b = b' := Option.some.inj (hb.symm.trans hb')
    exact hset b offset (h _ _ _ hb)
  · exact h

theorem Everywhere.foldl_clearLeaf (hP : BufferInvariant P) {state : Registry × ClearStats}
    (h : Everywhere P state.1) (order : List FieldId) :
    Everywhere P (order.foldl Registry.clearLeaf state).1 := by
  induction order generalizing state with
  | nil => exact h
  | cons field order ih =>
    refine ih ?_
    rw [Registry.clearLeaf]
    split
    · exact h.modifyBuffer field .adjoint fun b hb => hP.clear b (h _ _ _ hb)
    · exact h

theorem Everywhere.write (hP : BufferInvariant P) (h : Everywhere P r) (step : StorageStep) :
    Everywhere P (r.write step) := by
  cases step with
  | setInt field role index element value =>
    exact h.after_store field role index element fun b offset => hP.setInt b offset value
  | setFloat field role index element value =>
    exact h.after_store field role index element fun b offset => hP.setFloat b offset value
  | clear search => exact Everywhere.foldl_clearLeaf hP h (r.leaves search)

theorem BufferInvariant.of_reachable (hP : BufferInvariant P) (h : r.Reachable) : Everywhere P r := by
  obtain ⟨steps, r₀, history, hr₀, rfl⟩ := h
  have hbuilder := LayoutBuilder.wellFormed_ofSteps steps
  have hstart : Everywhere P r₀ := by
    intro field role b hb
    obtain ⟨_, _, _, hzeroed⟩ := LayoutBuilder.zeroed?_of_finalize hbuilder hr₀ hb
    exact hP.zeroed hzeroed
  clear hr₀
  induction history generalizing r₀ with
  | nil => exact hstart
  | cons step history ih => exact ih _ (hstart.write hP step)

end BufferInvariant

end Registry

end LoopNest
