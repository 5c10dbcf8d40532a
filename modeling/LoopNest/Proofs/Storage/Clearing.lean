import LoopNest.Proofs.Bound.Folding
import LoopNest.Proofs.Storage.History
import Mathlib.Algebra.BigOperators.Group.List.Basic
import Mathlib.Algebra.Ring.Nat

/-! A clearing pass over a finished layout. The search meets every node once and every field is placed
at one node, so each field is a leaf once; clearing the leaves one after the other, in whatever
order, clears every adjoint and nothing else. -/

namespace LoopNest

structure Buffer.ZeroLike (z b : Buffer) : Prop extends z.Alike b where
  cells_eq : ∀ bits ∈ z.cells, bits = b.kind.zeroBits

theorem Buffer.zeroLike_clear (b : Buffer) : b.clear.ZeroLike b where
  toAlike := b.alike_clear
  cells_eq := fun _ h => (Array.mem_replicate.mp h).2

theorem Buffer.clear_clear (b : Buffer) : b.clear.clear = b.clear := by
  simp [Buffer.clear]

namespace Registry

def adjoints (r : Registry) : List Buffer := r.fieldIds.filterMap fun field => r.buffer? field .adjoint

def cleared (r : Registry) : Registry :=
  { r with placements := r.placements.map fun p => p.modify Buffer.clear .adjoint }

def fullStats (r : Registry) : ClearStats :=
  ⟨r.nodes.size, r.fields.size, r.adjoints.length, (r.adjoints.map Buffer.size).sum⟩

section Leaves

variable {r : Registry}

theorem flatMap_fieldsAt (r : Registry) : r.tree.nodes.flatMap r.fieldsAt = placedFields r.nodes := by
  have hids : r.tree.nodes.map (fun node => r.nodes[node.index]?) = r.nodes.toList.map some := by
    apply List.ext_getElem?
    intro k
    by_cases hk : k < r.nodes.size
    · simp [tree, Graph.nodes, hk]
    · simp [tree, Graph.nodes, hk]
  have hfields : r.fieldsAt = fun node => (r.nodes[node.index]?).elim [] (·.kind.fields) := by
    funext node
    rw [fieldsAt]
    cases r.nodes[node.index]? <;> rfl
  calc r.tree.nodes.flatMap r.fieldsAt
      = (r.tree.nodes.map fun node => r.nodes[node.index]?).flatMap
          fun node => node.elim [] (·.kind.fields) := by rw [List.flatMap_map, hfields]
    _ = (r.nodes.toList.map some).flatMap fun node => node.elim [] (·.kind.fields) := by rw [hids]
    _ = placedFields r.nodes := by rw [List.flatMap_map]; rfl

theorem leaves_perm (h : r.WellFormed) {search : Search} (hsearch : search.Lawful) :
    (r.leaves search).Perm r.fieldIds := by
  have hmet : ((r.visited search).flatMap r.fieldsAt).Perm r.fieldIds := by
    refine ((visited_perm h.rooted hsearch).flatMap_right _).trans ?_
    rw [flatMap_fieldsAt]
    exact h.placed
  have hplaced : r.fieldIds.filter (fun field => (r.placement? field).isSome) = r.fieldIds := by
    rw [List.filter_eq_self]
    intro field hfield
    rw [mem_fieldIds, ← h.size_placements] at hfield
    simp [placement?, hfield]
  exact hplaced ▸ hmet.filter _

end Leaves

section Pass

variable (r : Registry)

def adjointSize? (field : FieldId) : Option Nat := (r.buffer? field .adjoint).map Buffer.size

def clearedAt (field : FieldId) : Registry := r.modifyBuffer field .adjoint Buffer.clear

theorem adjointSize?_clearedAt (field other : FieldId) :
    (r.clearedAt field).adjointSize? other = r.adjointSize? other := by
  by_cases h : other = field
  · subst h
    simp [adjointSize?, clearedAt, Function.comp_def]
  · have hne : (other, BufferRole.adjoint) ≠ (field, .adjoint) := fun heq => h (Prod.mk.inj heq).1
    rw [adjointSize?, clearedAt, buffer?_modifyBuffer_of_ne _ _ _ _ hne, adjointSize?]

theorem getElem?_placements_clearedAt (field : FieldId) (k : Nat) :
    (r.clearedAt field).placements[k]? =
      (r.placements[k]?).map fun p =>
        if field = ⟨k⟩ then p.modify Buffer.clear .adjoint else p := by
  rw [clearedAt, modifyBuffer, Array.getElem?_modify]
  by_cases h : field = ⟨k⟩
  · subst h
    simp
  · have hindex : field.index ≠ k := fun hindex => h (hindex ▸ rfl)
    simp [h, hindex]

theorem clearLeaf_eq (stats : ClearStats) (field : FieldId) :
    clearLeaf (r, stats) field =
      (r.clearedAt field,
        { stats with
          buffers := stats.buffers + (r.adjointSize? field).toList.length
          elements := stats.elements + (r.adjointSize? field).toList.sum }) := by
  rw [clearLeaf]
  cases h : r.buffer? field .adjoint with
  | none =>
    have hself : r.clearedAt field = r := by
      refine modifyBuffer_eq_self fun b hb => ?_
      rw [h] at hb
      cases hb
    simp [h, hself, adjointSize?]
  | some adjoint => simp [h, clearedAt, adjointSize?]

theorem foldl_clearLeaf (stats : ClearStats) (order : List FieldId) :
    order.foldl clearLeaf (r, stats) =
      (order.foldl clearedAt r,
        { stats with
          buffers := stats.buffers + (order.filterMap r.adjointSize?).length
          elements := stats.elements + (order.filterMap r.adjointSize?).sum }) := by
  induction order generalizing r stats with
  | nil => rfl
  | cons field order ih =>
    have hsizes : (r.clearedAt field).adjointSize? = r.adjointSize? := by
      funext other
      exact r.adjointSize?_clearedAt field other
    rw [List.foldl_cons, clearLeaf_eq, ih, hsizes, List.foldl_cons]
    cases h : r.adjointSize? field with
    | none => simp [h]
    | some size => simp [h, Nat.add_assoc, Nat.add_comm 1]

theorem foldl_clearedAt_eq (order : List FieldId) :
    order.foldl clearedAt r =
      { r with placements := (order.foldl clearedAt r).placements } := by
  induction order generalizing r with
  | nil => rfl
  | cons field order ih => exact ih (r.clearedAt field)

theorem getElem?_placements_foldl_clearedAt (order : List FieldId) (k : Nat) :
    (order.foldl clearedAt r).placements[k]? =
      (r.placements[k]?).map fun p =>
        if ⟨k⟩ ∈ order then p.modify Buffer.clear .adjoint else p := by
  induction order generalizing r with
  | nil => simp
  | cons field order ih =>
    rw [List.foldl_cons, ih, getElem?_placements_clearedAt, Option.map_map]
    congr 1
    funext p
    by_cases hfield : field = ⟨k⟩
    -- Clearing again changes nothing, so it does not matter whether the field comes up later.
    · subst hfield
      by_cases horder : (⟨k⟩ : FieldId) ∈ order
      · simp [horder, Placement.modify, Function.comp_def, Buffer.clear_clear]
      · simp [horder]
    · simp [hfield, Ne.symm hfield, List.mem_cons]

end Pass

section Cleared

variable {r : Registry}

@[simp] theorem nodes_cleared (r : Registry) : r.cleared.nodes = r.nodes := rfl

@[simp] theorem fields_cleared (r : Registry) : r.cleared.fields = r.fields := rfl

@[simp] theorem buffer?_cleared_adjoint (r : Registry) (field : FieldId) :
    r.cleared.buffer? field .adjoint = (r.buffer? field .adjoint).map Buffer.clear := by
  cases h : r.placements[field.index]? with
  | none => simp [buffer?, placement?, cleared, h]
  | some p => simp [buffer?, placement?, cleared, h]

@[simp] theorem buffer?_cleared_primary (r : Registry) (field : FieldId) :
    r.cleared.buffer? field .primary = r.buffer? field .primary := by
  cases h : r.placements[field.index]? with
  | none => simp [buffer?, placement?, cleared, h]
  | some p => simp [buffer?, placement?, cleared, h, Placement.buffer?, Placement.modify]

theorem cleared_cleared (r : Registry) : r.cleared.cleared = r.cleared := by
  simp [cleared, Placement.modify, Function.comp_def, Buffer.clear_clear]

theorem fullStats_cleared (r : Registry) : r.cleared.fullStats = r.fullStats := by
  have hids : r.cleared.fieldIds = r.fieldIds := rfl
  have hadjoints : r.cleared.adjoints = r.adjoints.map Buffer.clear := by
    simp only [adjoints, hids, buffer?_cleared_adjoint, List.map_filterMap]
  rw [fullStats, hadjoints]
  simp [fullStats, Function.comp_def]

theorem WellFormed.cleared (h : r.WellFormed) : r.cleared.WellFormed where
  rooted := h.rooted
  placed := h.placed
  size_placements := by simpa [Registry.cleared] using h.size_placements
  built := by
    intro field role b hb
    cases role with
    | primary => exact h.built (buffer?_cleared_primary r field ▸ hb)
    | adjoint =>
      rw [buffer?_cleared_adjoint, Option.map_eq_some_iff] at hb
      obtain ⟨b, hb, rfl⟩ := hb
      exact b.alike_clear.built (h.built hb)

/-- What a clearing pass leaves behind and reports. -/
structure Clears (r : Registry) (pass : Registry × ClearStats) : Prop where
  zero : ∀ field b, r.buffer? field .adjoint = some b →
    ∃ z, pass.1.buffer? field .adjoint = some z ∧ z.ZeroLike b
  none_eq : ∀ field, r.buffer? field .adjoint = none → pass.1.buffer? field .adjoint = none
  primary_eq : ∀ field, pass.1.buffer? field .primary = r.buffer? field .primary
  nodes_eq : pass.1.nodes = r.nodes
  fields_eq : pass.1.fields = r.fields
  eval_eq : ∀ args warnings bound,
    Evaluator.eval ⟨args, pass.1, warnings⟩ bound = Evaluator.eval ⟨args, r, warnings⟩ bound
  plan_eq : ∀ (l : CompiledLoop) args warnings,
    l.plan ⟨args, pass.1, warnings⟩ = l.plan ⟨args, r, warnings⟩
  stats_eq : pass.2 =
    ⟨r.nodes.size, r.fields.size, r.adjoints.length, (r.adjoints.map Buffer.size).sum⟩

theorem clears_cleared (r : Registry) : r.Clears (r.cleared, r.fullStats) := by
  have hagrees (args : KernelArgs) (warnings : Bool) :
      Evaluator.Agrees ⟨args, r.cleared, warnings⟩ ⟨args, r, warnings⟩ :=
    ⟨rfl, buffer?_cleared_primary r⟩
  refine ⟨fun field b hb => ⟨b.clear, by simp [hb], b.zeroLike_clear⟩, fun field hnone => ?_,
    buffer?_cleared_primary r, rfl, rfl, fun args warnings => (hagrees args warnings).eval_eq,
    fun l args warnings => (hagrees args warnings).plan_eq l, rfl⟩
  simp [hnone]

section Search

variable {search : Search} (hsearch : search.Lawful)
include hsearch

theorem clearLeaves_eq (h : r.WellFormed) {order : List FieldId}
    (horder : order.Perm (r.leaves search)) :
    r.clearLeaves search order = (r.cleared, r.fullStats) := by
  have hfields : order.Perm r.fieldIds := horder.trans (leaves_perm h hsearch)
  have hregistry : order.foldl clearedAt r = r.cleared := by
    have hplacements : (order.foldl clearedAt r).placements = r.cleared.placements := by
      apply Array.ext_getElem?
      intro k
      rw [getElem?_placements_foldl_clearedAt]
      by_cases hk : k < r.placements.size
      · have hmem : (⟨k⟩ : FieldId) ∈ order :=
          hfields.mem_iff.mpr (mem_fieldIds.mpr (h.size_placements ▸ hk))
        simp [cleared, hmem]
      · simp [cleared, hk]
    rw [foldl_clearedAt_eq, hplacements]
    rfl
  have hsizes : (order.filterMap r.adjointSize?).Perm (r.adjoints.map Buffer.size) := by
    rw [adjoints, List.map_filterMap]
    exact hfields.filterMap _
  have hvisited : (r.visited search).length = r.nodes.size := by
    rw [(visited_perm h.rooted hsearch).length_eq]
    simp [tree, Graph.nodes]
  have hleaves : order.length = r.fields.size := by
    rw [hfields.length_eq]
    simp [fieldIds]
  rw [clearLeaves, foldl_clearLeaf, hregistry, hvisited, hleaves, hsizes.length_eq, hsizes.sum_eq]
  simp [fullStats]

theorem clearLeaves_clears (h : r.WellFormed) {order : List FieldId}
    (horder : order.Perm (r.leaves search)) :
    r.Clears (r.clearLeaves search order) ∧
      ∀ again : List FieldId, again.Perm ((r.clearLeaves search order).1.leaves search) →
        (r.clearLeaves search order).1.clearLeaves search again = r.clearLeaves search order := by
  rw [clearLeaves_eq hsearch h horder]
  refine ⟨r.clears_cleared, fun again hagain => ?_⟩
  rw [clearLeaves_eq hsearch h.cleared hagain, cleared_cleared, fullStats_cleared]

/-- After a layout is finished and any stores, a clearing pass zeroes every adjoint and touches
nothing else. Bounds and plans depend on nothing it changes, and a second pass does the same again.
So does a pass that takes the leaves in any other order. -/
theorem clearGradients_zeroes_adjoints (hr : r.Reachable) :
    r.Clears (r.clearGradients search) ∧
    (r.clearGradients search).1.clearGradients search = r.clearGradients search ∧
    ∀ order : List FieldId, order.Perm (r.leaves search) →
      r.Clears (r.clearLeaves search order) ∧
      ∀ again : List FieldId, again.Perm ((r.clearLeaves search order).1.leaves search) →
        (r.clearLeaves search order).1.clearLeaves search again = r.clearLeaves search order := by
  have hwf := wellFormed_of_reachable hr
  obtain ⟨hclears, hagain⟩ := clearLeaves_clears hsearch hwf (.refl (r.leaves search))
  exact ⟨hclears, hagain _ (.refl _), fun order => clearLeaves_clears hsearch hwf⟩

end Search

theorem clearGradients_zeroes_adjoints_nested :
    let steps : List LayoutStep := [.declare ⟨"x", .float .f32, [2], true⟩,
      .declare ⟨"y", .int .i64, [], true⟩, .declare ⟨"z", .float .f64, [], false⟩,
      .block ⟨0⟩ .dense [2], .block ⟨1⟩ .pointer [3], .place ⟨2⟩ [⟨2⟩, ⟨0⟩],
      .block ⟨0⟩ .bitmasked [5], .place ⟨4⟩ [⟨1⟩]]
    ∃ r₀ r b, (LayoutBuilder.ofSteps steps).finalize = .ok r₀ ∧
      r₀.setInt? ⟨1⟩ .adjoint [4] [] 7 = some (.ok r) ∧
      r.buffer? ⟨1⟩ .adjoint = some b ∧ b.toIntList = [0, 0, 0, 0, 7] ∧
      (∃ z, (r.clearGradients .depthFirst).1.buffer? ⟨1⟩ .adjoint = some z ∧ z.ZeroLike b) ∧
      (r.clearGradients .depthFirst).2 = ⟨6, 3, 2, 17⟩ ∧
      (r.clearLeaves .depthFirst [⟨1⟩, ⟨0⟩, ⟨2⟩]).2 = ⟨6, 3, 2, 17⟩ := by
  intro steps
  refine ⟨_, _, _, rfl, rfl, rfl, rfl, ?_⟩
  have hr : Reachable _ := ⟨steps, _, [.setInt ⟨1⟩ .adjoint [4] [] 7], rfl, rfl⟩
  have hsearch := Search.depthFirst_lawful
  have hfields : [⟨1⟩, ⟨0⟩, ⟨2⟩].Perm ((List.range 3).map FieldId.mk) := by decide
  have horder := hfields.trans (leaves_perm (wellFormed_of_reachable hr) hsearch).symm
  obtain ⟨hclears, -, hany⟩ := clearGradients_zeroes_adjoints hsearch hr
  have hstats : (clearGradients _ .depthFirst).2 = ⟨6, 3, 2, 17⟩ := hclears.stats_eq.trans rfl
  exact ⟨hclears.zero ⟨1⟩ _ rfl, hstats,
    (hany _ horder).1.stats_eq.trans (hclears.stats_eq.symm.trans hstats)⟩

end Cleared

end Registry

end LoopNest
