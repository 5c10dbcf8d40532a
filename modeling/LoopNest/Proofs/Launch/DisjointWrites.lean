import LoopNest.Proofs.Launch.Schedule
import LoopNest.Proofs.Loop.Agreement
import LoopNest.Proofs.Storage.Addressing

/-! A launch whose body stores at its own index. Different flat indices have different tuples and
different tuples different cells, so what the bodies that ran have left does not depend on their
order. `Filled` says what that is; one body extends it by its tuple. -/

namespace LoopNest

namespace Axes

def Inside (axes : List ResolvedAxis) (shape : List UInt64) : Prop :=
  List.Forall₂ (fun a e => 0 ≤ a.lower.toInt ∧ a.upper.toInt ≤ e.toNat) axes shape

instance (axes : List ResolvedAxis) (shape : List UInt64) : Decidable (Inside axes shape) :=
  inferInstanceAs (Decidable (List.Forall₂ _ _ _))

end Axes

/-- Stores a value at the index of the iteration. -/
def fillBody (field : FieldId) (role : BufferRole) (v : GroupedIndex → Int64) :
    Body Registry KernelFault := fun it r =>
  match r.setInt? field role it.index.toList [] (v it.index) with
  | some (.ok r) => (.ok (), r)
  | some (.error fault) => (.error fault.toFault, r)
  | none => (.error missingBuffer, r)

def Buffer.outside (b : Buffer) (t : GroupedIndex) : KernelFault :=
  (AccessFault.outOfBounds t.toList [] b.shape []).toFault

/-- `b'` is `b` with its value stored at each of the tuples that lies inside. -/
structure Buffer.Filled (b : Buffer) (v : GroupedIndex → Int64) (tuples : List GroupedIndex)
    (b' : Buffer) : Prop extends b'.Alike b where
  holds : ∀ t ∈ tuples, InExtents b.shape t.toList →
    b'.load t.toList [] = .ok (b.kind.encodeInt (v t))
  kept : ∀ index element, (∀ t ∈ tuples, t.toList ≠ index) →
    b'.load index element = b.load index element

namespace Buffer

variable {b b' : Buffer} {v : GroupedIndex → Int64} {tuples : List GroupedIndex} {t : GroupedIndex}

theorem Filled.store (hb : b.Allocated) (h : b.Filled v tuples b') {offset : UInt64}
    (ho : b.offset t.toList [] = .ok offset) (hnew : ∀ u ∈ tuples, u.toList ≠ t.toList) :
    b.Filled v (t :: tuples) (b'.setCell offset (b.kind.encodeInt (v t))) := by
  have hb' : b'.Allocated := h.toAlike.allocated hb
  have ho' : b'.offset t.toList [] = .ok offset := by rw [h.toAlike.offset_eq, ho]
  refine ⟨(alike_setCell ..).trans h.toAlike, fun u hu hin => ?_, fun index element hkept => ?_⟩
  · rcases List.mem_cons.mp hu with rfl | hu
    · exact load_setCell_self hb' ho' _
    -- A tuple stored before has another index, hence another cell.
    · rw [load_setCell_of_ne ho' (hnew u hu)]
      exact h.holds u hu hin
  · rw [load_setCell_of_ne ho' (hkept t (List.mem_cons_self ..)).symm]
    exact h.kept index element fun u hu => hkept u (List.mem_cons_of_mem _ hu)

theorem Filled.skip (h : b.Filled v tuples b') (hout : ¬InExtents b.shape t.toList) :
    b.Filled v (t :: tuples) b' := by
  refine ⟨h.toAlike, fun u hu hin => ?_, fun index element hkept => ?_⟩
  · rcases List.mem_cons.mp hu with rfl | hu
    · exact absurd hin hout
    · exact h.holds u hu hin
  · exact h.kept index element fun u hu => hkept u (List.mem_cons_of_mem _ hu)

end Buffer

namespace Registry

structure Filled (r₀ : Registry) (field : FieldId) (role : BufferRole) (b : Buffer)
    (v : GroupedIndex → Int64) (tuples : List GroupedIndex) (r : Registry) : Prop where
  nodes_eq : r.nodes = r₀.nodes
  fields_eq : r.fields = r₀.fields
  other_eq : ∀ {other role'}, (other, role') ≠ (field, role) →
    r.buffer? other role' = r₀.buffer? other role'
  buffer : ∃ b', r.buffer? field role = some b' ∧ b.Filled v tuples b'

variable {r₀ r : Registry} {field : FieldId} {role : BufferRole} {b : Buffer}
  {v : GroupedIndex → Int64} {tuples : List GroupedIndex}

theorem Filled.step (hb : b.Built) (helem : b.elementShape = [])
    (h : r₀.Filled field role b v tuples r) (it : Iteration)
    (hlength : it.index.toList.length = b.shape.length)
    (hnew : ∀ u ∈ tuples, u.toList ≠ it.index.toList) :
    ∃ r', fillBody field role v it r =
        (if InExtents b.shape it.index.toList then .ok () else .error (b.outside it.index), r') ∧
      r₀.Filled field role b v (it.index :: tuples) r' := by
  obtain ⟨b', hb', hfilled⟩ := h.buffer
  by_cases hin : InExtents b.shape it.index.toList
  · obtain ⟨offset, ho⟩ := Buffer.exists_offset_of_inExtents hb.fits helem hin
    have hcell : b'.cell it.index.toList [] = .ok offset := by
      rw [hfilled.toAlike.cell_eq, Buffer.cell_of_offset hb.allocated ho]
    refine ⟨r.modifyBuffer field role (·.setCell offset (b.kind.encodeInt (v it.index))), ?_,
      h.nodes_eq, h.fields_eq, fun hne => ?_, ?_⟩
    · rw [if_pos hin, fillBody, setInt?, store?, locate?, hb', ← hfilled.kind_eq]
      simp [hcell, Bind.bind, Except.bind, Pure.pure, Except.pure, Except.map, setBits]
    · rw [buffer?_modifyBuffer_of_ne _ _ _ _ hne]
      exact h.other_eq hne
    · exact ⟨_, by rw [buffer?_modifyBuffer_self, hb']; rfl, hfilled.store hb.allocated ho hnew⟩
  · have hcell : b'.cell it.index.toList [] =
        .error (.outOfBounds it.index.toList [] b.shape []) := by
      rw [hfilled.toAlike.cell_eq,
        Buffer.cell_of_not_inExtents (hb.offsetsFit_of_scalar helem) helem hlength hin]
    refine ⟨r, ?_, h.nodes_eq, h.fields_eq, h.other_eq, b', hb', hfilled.skip hin⟩
    rw [if_neg hin, fillBody, setInt?, store?, locate?, hb']
    simp [hcell, Bind.bind, Except.bind, Except.map, Buffer.outside]

def outsideFaults (b : Buffer) (p : DispatchPlan) (order : List UInt64) :
    List (UInt64 × KernelFault) :=
  (order.filter fun flat => ¬InExtents b.shape (p.map flat).toList).map fun flat =>
    (flat, b.outside (p.map flat))

/-- Any number of bodies in any order, as long as none runs twice. -/
theorem Filled.runAt (hb : b.Built) (helem : b.elementShape = [])
    {d : ResolvedDomain} {p : DispatchPlan} (hp : p.Plans d)
    (hrank : b.shape.length = d.axes.length) (binding : Binding) {order : List UInt64}
    (hnodup : order.Nodup) (hlt : ∀ flat ∈ order, flat < p.total)
    (h : r₀.Filled field role b v tuples r)
    (hnew : ∀ flat ∈ order, ∀ u ∈ tuples, u.toList ≠ (p.map flat).toList) :
    ∃ r', p.runAt binding (fillBody field role v) order r = (outsideFaults b p order, r') ∧
      r₀.Filled field role b v ((order.map p.map).reverse ++ tuples) r' := by
  induction order generalizing r tuples with
  | nil => exact ⟨r, rfl, h⟩
  | cons flat order ih =>
    obtain ⟨hfresh, hnodup⟩ := List.nodup_cons.mp hnodup
    have hflat := hlt flat (List.mem_cons_self ..)
    have hrest : ∀ other ∈ order, other < p.total := fun other hother =>
      hlt other (List.mem_cons_of_mem _ hother)
    have hlength : (p.map flat).toList.length = b.shape.length := by
      rw [DispatchPlan.toList_map hp hflat, Axes.length_tuple, hrank]
    obtain ⟨r₁, hbody, hstep⟩ := h.step hb helem (p.iteration binding flat) hlength
      (hnew flat (List.mem_cons_self ..))
    -- The tuples still to come differ from this one: no index runs twice, and the map is injective.
    have hdisjoint : ∀ other ∈ order, ∀ u ∈ p.map flat :: tuples,
        u.toList ≠ (p.map other).toList := by
      intro other hother u hu heq
      rcases List.mem_cons.mp hu with rfl | hu
      · rw [DispatchPlan.toList_map_inj hp hflat (hrest other hother) heq] at hfresh
        exact hfresh hother
      · exact hnew other (List.mem_cons_of_mem _ hother) u hu heq
    obtain ⟨r', hrun, hfilled⟩ := ih hnodup hrest hstep hdisjoint
    refine ⟨r', ?_, by simpa [DispatchPlan.iteration] using hfilled⟩
    rw [DispatchPlan.runAt, hbody]
    by_cases hin : InExtents b.shape (p.map flat).toList
    · simp [DispatchPlan.iteration, hin, hrun, outsideFaults]
    · simp [DispatchPlan.iteration, hin, hrun, outsideFaults]

end Registry

namespace ExecutionContext

end ExecutionContext

end LoopNest
