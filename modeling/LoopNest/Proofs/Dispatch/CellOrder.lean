import LoopNest.Proofs.Dispatch.Bijection
import LoopNest.Proofs.Launch.Schedule
import LoopNest.Proofs.Scalar.Reading
import LoopNest.Proofs.Storage.Addressing

/-! Plans and buffers number cells alike. The plan over the whole shape of a buffer maps a flat index
to the position whose offset is that index, so a launch over the shape goes through the cells as
they are stored. -/

namespace LoopNest

def wholeShape (shape : List UInt64) : ResolvedDomain := ⟨shape.map fun e => ⟨0, e.toInt64⟩⟩

/-- A body that appends the element at its own tuple to what was seen before. -/
def Buffer.collectBody (b : Buffer) : Body (List Int64) KernelFault := fun it seen =>
  match b.getInt it.index.toList [] with
  | .ok v => (.ok (), seen ++ [v])
  | .error fault => (.error fault.toFault, seen)

section WholeShape

variable {shape : List UInt64}

theorem size_axis_of_extent {e : UInt64} (he : e.toNat < 2 ^ 63) :
    (⟨0, e.toInt64⟩ : ResolvedAxis).size = e := by
  have hvalue : e.toInt64.toInt = e.toNat := toInt_toInt64_of_lt (by rw [wordBound]; omega)
  rw [← UInt64.toNat_inj, ResolvedAxis.toNat_size, hvalue]
  simp

theorem counts_wholeShape (hshort : ∀ e ∈ shape, e.toNat < 2 ^ 63) :
    Axes.counts (wholeShape shape).axes = shape.map UInt64.toNat := by
  rw [Axes.counts, wholeShape, List.map_map]
  refine List.map_congr_left fun e he => ?_
  rw [Function.comp, size_axis_of_extent (hshort e he)]

theorem zipWith_nth_wholeShape (shape : List UInt64) (ds : List Nat) (h : ds.length = shape.length) :
    List.zipWith ResolvedAxis.nth (wholeShape shape).axes ds = ds.map Int64.ofNat := by
  rw [wholeShape]
  induction shape generalizing ds with
  | nil =>
    rw [List.length_eq_zero_iff.mp h]
    rfl
  | cons e shape ih =>
    obtain ⟨d, ds, rfl⟩ := List.exists_cons_of_length_eq_add_one h
    simp only [List.map_cons, List.zipWith_cons_cons, ih ds (Nat.succ.inj h), ResolvedAxis.nth,
      Int64.zero_add]

theorem tuple_wholeShape (hshort : ∀ e ∈ shape, e.toNat < 2 ^ 63) {n : Nat}
    (h : n < (shape.map UInt64.toNat).prod) :
    InExtents shape (Axes.tuple (wholeShape shape).axes n) ∧
      cellNumber shape (Axes.tuple (wholeShape shape).axes n) = n := by
  have hdigits := zipWith_nth_wholeShape shape (MixedRadix.digits (shape.map UInt64.toNat) n)
    (by simp)
  have hwithin := MixedRadix.within_digits h
  have hdigits_lt := hwithin.forall_lt (List.forall_mem_map.mpr fun e he => (hshort e he).le)
  obtain ⟨hin, hback⟩ := inExtents_map_ofNat hdigits_lt hwithin
  rw [Axes.tuple, counts_wholeShape hshort, hdigits]
  exact ⟨hin, by rw [cellNumber, hback, MixedRadix.value_digits h]⟩

end WholeShape

namespace Buffer

def cellInt (b : Buffer) (offset : UInt64) : Int64 :=
  b.kind.decodeInt (b.cells.getD offset.toNat b.kind.zeroBits)

variable {b : Buffer}

theorem extents_of_scalar (helem : b.elementShape = []) : b.extents = b.shape := by
  rw [extents, helem, List.append_nil]

theorem size_of_scalar (hb : b.Allocated) (helem : b.elementShape = []) :
    b.size = (b.shape.map UInt64.toNat).prod := by
  rw [hb, extents_of_scalar helem]

theorem map_cellInt_flats (hsize : b.size ≤ UInt64.size) :
    (flats b.size).map b.cellInt = b.toIntList := by
  rw [toIntList, flats, List.map_map]
  apply List.ext_getElem
  · simp [size]
  · intro k hk _
    have hlt : k < b.cells.size := by simpa [size] using hk
    have hvalue := toNat_toUInt64_of_lt (hlt.trans_le hsize)
    simp [cellInt, hvalue, Array.getD, hlt]

end Buffer

namespace DispatchPlan

variable {b : Buffer} {p : DispatchPlan} (hb : b.Allocated) (helem : b.elementShape = [])
  (hshort : ∀ e ∈ b.shape, e.toNat < 2 ^ 63) (hfits : b.Fits) (hp : p.Plans (wholeShape b.shape))

include hshort hp in
theorem total_wholeShape : p.total.toNat = (b.shape.map UInt64.toNat).prod := by
  rw [hp.total_eq, Axes.volume, counts_wholeShape hshort]

include helem hshort hp in
theorem offset_map {flat : UInt64} (hf : flat < p.total) :
    b.offset (p.map flat).toList [] = .ok flat := by
  have hlt : flat.toNat < (b.shape.map UInt64.toNat).prod :=
    total_wholeShape hshort hp ▸ UInt64.lt_iff_toNat_lt.mp hf
  obtain ⟨hin, hnumber⟩ := tuple_wholeShape hshort hlt
  rw [toList_map hp hf]
  refine Buffer.offset_eq_ok_iff.mpr ⟨hin.1.symm, by simp [helem], ?_, ?_⟩
  · rwa [List.append_nil, Buffer.extents_of_scalar helem]
  · rw [List.append_nil, Buffer.extents_of_scalar helem, hnumber]

include hb helem hshort hfits hp in
theorem exists_map_eq_index {index : List Int64} (hindex : InExtents b.shape index) :
    ∃ flat < p.total, b.offset index [] = .ok flat ∧ (p.map flat).toList = index := by
  obtain ⟨flat, hflat⟩ := Buffer.exists_offset_of_inExtents hfits helem hindex
  have hlt : flat < p.total := by
    rw [UInt64.lt_iff_toNat_lt, total_wholeShape hshort hp, ← Buffer.size_of_scalar hb helem]
    exact Buffer.offset_lt_size hb hflat
  -- The index and the tuple of its offset have the same offset.
  exact ⟨flat, hlt, hflat, (Buffer.offset_inj (offset_map helem hshort hp hlt) hflat).1⟩

include hb helem hshort hp in
theorem runAt_collectBody (binding : Binding) {order : List UInt64}
    (horder : ∀ flat ∈ order, flat < p.total) (seen : List Int64) :
    p.runAt binding b.collectBody order seen = ([], seen ++ order.map b.cellInt) := by
  induction order generalizing seen with
  | nil => simp [runAt]
  | cons flat order ih =>
    obtain ⟨hflat, hrest⟩ := List.forall_mem_cons.mp horder
    have hcell := Buffer.cell_of_offset hb (offset_map helem hshort hp hflat)
    have hget : b.getInt (p.map flat).toList [] = .ok (b.cellInt flat) := by
      rw [Buffer.getInt, Buffer.load_of_cell hcell]
      rfl
    have hstep : b.collectBody (p.iteration binding flat) seen =
        (.ok (), seen ++ [b.cellInt flat]) := by
      rw [Buffer.collectBody, iteration, hget]
    simp only [runAt, hstep, ih hrest, List.map_cons, List.append_assoc, List.singleton_append]

end DispatchPlan

theorem DispatchPlan.order_serialRun {σ ε : Type} {p : DispatchPlan} {binding : Binding}
    {body : Body σ ε} {s : σ} (h : (p.serialRun binding body s).outcome = .ok ()) :
    (p.serialRun binding body s).order = flats p.total.toNat := by
  obtain ⟨n, -, hran, hall⟩ := p.exists_ranFrom_eq binding body s
  exact hran.trans (congrArg flats (hall h))

namespace ExecutionContext

variable {b : Buffer} {p : DispatchPlan} {c : ExecutionContext} {l : CompiledLoop}
  {args : KernelArgs} (hb : b.Allocated) (helem : b.elementShape = [])
  (hshort : ∀ e ∈ b.shape, e.toNat < 2 ^ 63) (hp : p.Plans (wholeShape b.shape))
  (hplan : l.plan (c.evaluator args) = .ok p)

include hb helem hshort hp hplan

theorem launchOn_collectBody (pool : ∀ p, PoolRun p l.binding b.collectBody []) :
    (pool p).order.Perm (flats p.total.toNat) ∧
      c.launchOn l args b.collectBody [] pool =
        (.ok (l.report p c.settings.arityWarnings), (pool p).order.map b.cellInt) := by
  have hrun := DispatchPlan.runAt_collectBody hb helem hshort hp l.binding (pool p).lt_total []
  obtain ⟨hok, hperm⟩ := (pool p).perm_flats (congrArg Prod.fst hrun)
  refine ⟨hperm, ?_⟩
  simp only [launchOn, hplan, hok, hrun]
  rfl

theorem launch_collectBody :
    c.launch l args b.collectBody [] =
      (.ok (l.report p c.settings.arityWarnings), b.toIntList) := by
  let pool (p : DispatchPlan) := p.serialRun l.binding b.collectBody []
  have hrun := DispatchPlan.runAt_collectBody hb helem hshort hp l.binding (pool p).lt_total []
  obtain ⟨hok, -⟩ := (pool p).perm_flats (congrArg Prod.fst hrun)
  have hsize : p.total.toNat = b.size := by
    rw [DispatchPlan.total_wholeShape hshort hp, Buffer.size_of_scalar hb helem]
  have hcells := Buffer.map_cellInt_flats (b := b) (hsize ▸ p.total.toNat_lt.le)
  rw [launch_eq_launchOn, (launchOn_collectBody hb helem hshort hp hplan pool).2,
    DispatchPlan.order_serialRun hok, hsize, hcells]

end ExecutionContext

/-- The planner and the storage are row-major in the same way. Over the whole shape of a field the
flat index of a tuple is the offset of its cell, and every index inside the shape is the tuple of
its offset; so a launch goes through the cells in the order in which they are listed, and any
schedule goes through them in the order in which it takes the flat indices. -/
theorem Buffer.offset_map_and_launch_toIntList {b : Buffer} (hb : b.Allocated)
    (helem : b.elementShape = []) (hpos : 0 < b.shape.length) (hle : b.shape.length ≤ maxRank)
    (hshort : ∀ e ∈ b.shape, e.toNat < 2 ^ 63) (hfits : b.Fits) :
    ∃ p, DispatchPlan.ofDomain (wholeShape b.shape) = .ok p ∧
      p.total.toNat = (b.shape.map UInt64.toNat).prod ∧
      (∀ flat < p.total, b.offset (p.map flat).toList [] = .ok flat) ∧
      (∀ index, InExtents b.shape index →
        ∃ flat < p.total, b.offset index [] = .ok flat ∧ (p.map flat).toList = index) ∧
      ∀ (c : ExecutionContext) (l : CompiledLoop) (args : KernelArgs),
        l.domain.resolve (c.evaluator args) = .ok (wholeShape b.shape) →
        c.launch l args b.collectBody [] =
          (.ok (l.report p c.settings.arityWarnings), b.toIntList) ∧
        ∀ pool : ∀ p, PoolRun p l.binding b.collectBody [],
          (pool p).order.Perm (flats p.total.toNat) ∧
          c.launchOn l args b.collectBody [] pool =
            (.ok (l.report p c.settings.arityWarnings), (pool p).order.map b.cellInt) := by
  have hlength : (wholeShape b.shape).axes.length = b.shape.length := List.length_map ..
  have hvolume : Axes.volume (wholeShape b.shape).axes < UInt64.size := by
    rw [Axes.volume, counts_wholeShape hshort, ← extents_of_scalar helem]
    exact hfits
  obtain ⟨p, hdomain⟩ :=
    DispatchPlan.exists_ofDomain (hlength ▸ hpos) (hlength ▸ hle) hvolume
  have hp := DispatchPlan.plans_of_ofDomain hdomain
  refine ⟨p, hdomain, DispatchPlan.total_wholeShape hshort hp,
    fun flat => DispatchPlan.offset_map helem hshort hp,
    fun index => DispatchPlan.exists_map_eq_index hb helem hshort hfits hp,
    fun c l args hresolve => ?_⟩
  have hplan : l.plan (c.evaluator args) = .ok p := by
    rw [CompiledLoop.plan, hresolve]
    exact hdomain
  exact ⟨ExecutionContext.launch_collectBody hb helem hshort hp hplan,
    ExecutionContext.launchOn_collectBody hb helem hshort hp hplan⟩

theorem Buffer.offset_map_and_launch_toIntList_two_by_three :
    let b : Buffer := ⟨.int .i32, [2, 3], [], #[15, 14, 13, 12, 11, 10]⟩
    let l : CompiledLoop :=
      ⟨⟨[⟨.ofInt64 0, .ofInt64 2⟩, ⟨.ofInt64 0, .ofInt64 3⟩], .render []⟩, .whole 2, none⟩
    let c : ExecutionContext := ⟨{}, .empty⟩
    ∃ p, DispatchPlan.ofDomain (wholeShape b.shape) = .ok p ∧
      b.offset (p.map 5).toList [] = .ok 5 ∧
      (∃ flat < p.total, b.offset [1, 0] [] = .ok flat ∧ (p.map flat).toList = [1, 0]) ∧
      c.launch l .empty b.collectBody [] = (.ok ⟨6, []⟩, [15, 14, 13, 12, 11, 10]) := by
  intro b l c
  obtain ⟨p, hp, htotal, hoffset, hindex, hlaunch⟩ :=
    offset_map_and_launch_toIntList (b := b) rfl rfl (by decide) (by decide) (by simp [b]) (by decide)
  have hsix : p.total = 6 := UInt64.toNat_inj.mp htotal
  refine ⟨p, hp, hoffset 5 (hsix ▸ by decide), hindex [1, 0] (inExtents_iff.mpr (by decide)), ?_⟩
  have hreport : l.report p c.settings.arityWarnings = ⟨6, []⟩ := by
    rw [CompiledLoop.report, hsix]
    rfl
  rw [(hlaunch c l .empty rfl).1, hreport]
  rfl

end LoopNest
