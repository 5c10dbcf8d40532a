import LoopNest.Dispatch.Plan
import LoopNest.Proofs.Domain.Box
import LoopNest.Proofs.GroupedIndex
import Mathlib.Data.Set.Function

/-! The map of a dispatch plan numbers the tuples of its domain in row-major order: below the total
it is a bijection onto the box, and it keeps the order. Nothing is lost to wrapping, however wide
the axes are. -/

namespace LoopNest

/-- A well-formed record with one component in the range of every axis. -/
def ResolvedDomain.Contains (d : ResolvedDomain) (t : GroupedIndex) : Prop :=
  t.Canonical ∧ Axes.Contains d.axes t.toList

/-- What a plan holds of the domain it was made for. -/
structure DispatchPlan.Plans (p : DispatchPlan) (d : ResolvedDomain) : Prop where
  rank_pos : 0 < d.axes.length
  rank_le : d.axes.length ≤ maxRank
  axes_eq : p.axes = d.axes
  sizes_eq : p.sizes = d.sizes
  total_eq : p.total.toNat = Axes.volume d.axes
  strides_eq : 0 < Axes.volume d.axes → p.strides = rowMajorStrides d.sizes

namespace DispatchPlan

theorem plans_of_ofDomain {d : ResolvedDomain} {p : DispatchPlan} (h : ofDomain d = .ok p) :
    p.Plans d := by
  rw [ofDomain] at h
  split at h
  · cases h
  · rename_i hrank
    rw [ResolvedDomain.rank] at hrank
    split at h
    · cases h
    · rename_i total htotal
      have hvolume := ResolvedDomain.total?_eq_some_iff.mp htotal
      cases h
      refine ⟨by omega, by omega, rfl, rfl, hvolume.symm, fun hpos => if_neg ?_⟩
      rintro rfl
      rw [hvolume] at hpos
      exact absurd hpos (by decide)

theorem exists_ofDomain {d : ResolvedDomain} (hpos : 0 < d.axes.length)
    (hle : d.axes.length ≤ maxRank) (hfits : Axes.volume d.axes < UInt64.size) :
    ∃ p, ofDomain d = .ok p := by
  have hrank : ¬(d.rank = 0 ∨ maxRank < d.rank) := by
    rw [ResolvedDomain.rank]
    omega
  rw [ofDomain, if_neg hrank, ResolvedDomain.total?_eq, if_pos hfits]
  exact ⟨_, rfl⟩

theorem volume_lt_of_plans {d : ResolvedDomain} {p : DispatchPlan} (h : p.Plans d) :
    Axes.volume d.axes < UInt64.size := h.total_eq ▸ p.total.toNat_lt

theorem map_toNat_rowMajorStrides {sizes : List UInt64}
    (hpos : 0 < (sizes.map UInt64.toNat).prod)
    (hfits : (sizes.map UInt64.toNat).prod < UInt64.size) :
    (rowMajorStrides sizes).map UInt64.toNat = MixedRadix.weights (sizes.map UInt64.toNat) := by
  induction sizes with
  | nil => rfl
  | cons s sizes ih =>
    rw [List.map_cons, List.prod_cons] at hpos hfits
    have hs : 0 < s.toNat := Nat.pos_of_mul_pos_right hpos
    have hrest : 0 < (sizes.map UInt64.toNat).prod := Nat.pos_of_mul_pos_left hpos
    have hle := Nat.le_mul_of_pos_left (sizes.map UInt64.toNat).prod hs
    rw [rowMajorStrides_cons, List.map_cons, List.map_cons, MixedRadix.weights,
      ih hrest (by omega), toNat_foldl_mul]
    congr 1
    exact (Nat.mod_eq_of_lt (by simpa using hle.trans_lt hfits)).trans (by simp)

theorem component_eq (flat : UInt64) (a : ResolvedAxis) (size stride : UInt64) :
    component flat a (size, stride) = a.nth (flat.toNat / stride.toNat % size.toNat) := by
  rw [component, ResolvedAxis.nth, ← UInt64.toNat_div, ← UInt64.toNat_mod,
    ← UInt64.toInt64_ofNat', UInt64.ofNat_toNat]

theorem zipWith_component (flat : UInt64) (axes : List ResolvedAxis) (sizes strides : List UInt64) :
    List.zipWith (component flat) axes (sizes.zip strides) =
      List.zipWith ResolvedAxis.nth axes
        (List.zipWith (fun s w => flat.toNat / w % s) (sizes.map UInt64.toNat)
          (strides.map UInt64.toNat)) := by
  induction axes generalizing sizes strides with
  | nil => rfl
  | cons a axes ih =>
    cases sizes with
    | nil => rfl
    | cons s sizes =>
      cases strides with
      | nil => rfl
      | cons w strides =>
        simp only [List.zip_cons_cons, List.map_cons, List.zipWith_cons_cons, component_eq, ih]

variable {d : ResolvedDomain} {p : DispatchPlan} {flat : UInt64}

theorem zipWith_component_eq_tuple (h : p.Plans d) (hf : flat < p.total) :
    List.zipWith (component flat) p.axes (p.sizes.zip p.strides) =
      Axes.tuple d.axes flat.toNat := by
  have hlt : flat.toNat < Axes.volume d.axes := h.total_eq ▸ UInt64.lt_iff_toNat_lt.mp hf
  have hpos : 0 < Axes.volume d.axes := by omega
  have hfits := volume_lt_of_plans h
  rw [zipWith_component, h.axes_eq, h.sizes_eq, h.strides_eq hpos,
    map_toNat_rowMajorStrides (d.map_toNat_sizes ▸ hpos) (d.map_toNat_sizes ▸ hfits),
    MixedRadix.zipWith_weights, d.map_toNat_sizes]
  exact congrArg _ (congrArg _ (Nat.mod_eq_of_lt hlt))

theorem map_eq_tuple (h : p.Plans d) (hf : flat < p.total) :
    p.map flat = .ofListTruncated (Axes.tuple d.axes flat.toNat) := by
  have hformula := zipWith_component_eq_tuple h hf
  have hlt : flat.toNat < Axes.volume d.axes := h.total_eq ▸ UInt64.lt_iff_toNat_lt.mp hf
  rw [map]
  split
  · rename_i a ha
    have haxes : d.axes = [a] := h.axes_eq ▸ ha
    rw [haxes, Axes.tuple_cons]
    simp [Axes.volume, Axes.counts, Axes.tuple, MixedRadix.digits, ResolvedAxis.nth,
      ← UInt64.toInt64_ofNat']
  · rw [hformula]

theorem toList_map (h : p.Plans d) (hf : flat < p.total) :
    (p.map flat).toList = Axes.tuple d.axes flat.toNat := by
  rw [map_eq_tuple h hf]
  exact GroupedIndex.toList_ofListTruncated_of_le (by simpa using h.rank_le)

theorem toList_map_inj {f g : UInt64} (h : p.Plans d) (hf : f < p.total) (hg : g < p.total)
    (heq : (p.map f).toList = (p.map g).toList) : f = g := by
  have hlt {x : UInt64} (hx : x < p.total) : x.toNat < Axes.volume d.axes :=
    h.total_eq ▸ UInt64.lt_iff_toNat_lt.mp hx
  rw [toList_map h hf, toList_map h hg] at heq
  rw [← UInt64.toNat_inj, ← Axes.number_tuple (hlt hf), heq, Axes.number_tuple (hlt hg)]

theorem contains_map (h : p.Plans d) (hf : flat < p.total) : d.Contains (p.map flat) := by
  have hlt : flat.toNat < Axes.volume d.axes := h.total_eq ▸ UInt64.lt_iff_toNat_lt.mp hf
  refine ⟨map_eq_tuple h hf ▸ GroupedIndex.canonical_ofListTruncated _, ?_⟩
  rw [toList_map h hf]
  exact Axes.contains_tuple hlt

theorem compare_map {f g : UInt64} (h : p.Plans d) (hf : f < p.total) (hg : g < p.total) :
    (p.map f).compare (p.map g) = compare f.toNat g.toNat := by
  rw [map_eq_tuple h hf, map_eq_tuple h hg,
    GroupedIndex.compare_ofListTruncated (by simp) (by simpa using h.rank_le)]
  exact Axes.compareLex_tuple (h.total_eq ▸ UInt64.lt_iff_toNat_lt.mp hf)
    (h.total_eq ▸ UInt64.lt_iff_toNat_lt.mp hg)

theorem exists_map_eq {t : GroupedIndex} (h : p.Plans d) (ht : d.Contains t) :
    ∃ flat < p.total, p.map flat = t := by
  have hlt := Axes.number_lt ht.2
  have hvalue := toNat_toUInt64_of_lt (hlt.trans (volume_lt_of_plans h))
  have hflat : (Axes.number d.axes t.toList).toUInt64 < p.total := by
    rw [UInt64.lt_iff_toNat_lt, hvalue, h.total_eq]
    exact hlt
  refine ⟨_, hflat, ?_⟩
  rw [map_eq_tuple h hflat, hvalue, Axes.tuple_number ht.2,
    GroupedIndex.ofListTruncated_toList ht.1]

/-- The value of one axis in the integers, where nothing wraps. -/
def exactComponent (flat : UInt64) (axis : ResolvedAxis) : UInt64 × UInt64 → Int
  | (size, stride) => axis.lower.toInt + (flat.toNat / stride.toNat % size.toNat : Nat)

theorem map_toInt_zipWith_component (flat : UInt64) {axes : List ResolvedAxis}
    (strides : List UInt64) (h : 0 ∉ axes.map ResolvedAxis.size) :
    (List.zipWith (component flat) axes ((axes.map ResolvedAxis.size).zip strides)).map
        Int64.toInt =
      List.zipWith (exactComponent flat) axes ((axes.map ResolvedAxis.size).zip strides) := by
  induction axes generalizing strides with
  | nil => rfl
  | cons a axes ih =>
    rw [List.map_cons, List.mem_cons, not_or] at h
    have hsize : 0 < a.size.toNat := Nat.pos_of_ne_zero fun h0 => h.1 (UInt64.toNat_inj.mp h0.symm)
    cases strides with
    | nil => rfl
    | cons w strides =>
      simp only [List.map_cons, List.zip_cons_cons, List.zipWith_cons_cons, ih strides h.2,
        component_eq, exactComponent, ResolvedAxis.toInt_nth (Nat.mod_lt _ hsize)]

/-- The flat indices below the total are the tuples of the domain, in their order. The third part
gives the components as integers: no sum or cast wraps. The last says that a single axis, which
uses the counter as it is, is no exception to the stride formula. -/
theorem map_bijOn_and_lt_iff (h : ofDomain d = .ok p) :
    Set.BijOn p.map {flat | flat < p.total} {t | d.Contains t} ∧
    (∀ f < p.total, ∀ g < p.total, f < g ↔ (p.map f).compare (p.map g) = .lt) ∧
    (∀ f < p.total, (p.map f).toList.map Int64.toInt =
      List.zipWith (exactComponent f) p.axes (p.sizes.zip p.strides)) ∧
    (∀ f < p.total, p.map f =
      .ofListTruncated (List.zipWith (component f) p.axes (p.sizes.zip p.strides))) := by
  have hp := plans_of_ofDomain h
  have hlt : ∀ f < p.total, ∀ g < p.total,
      f < g ↔ (p.map f).compare (p.map g) = .lt := fun f hf g hg => by
    rw [compare_map hp hf hg, Nat.compare_eq_lt, UInt64.lt_iff_toNat_lt]
  refine ⟨⟨fun f hf => contains_map hp hf, fun f hf g hg heq => ?_, fun t ht => ?_⟩, hlt,
    fun f hf => ?_, fun f hf => ?_⟩
  · exact toList_map_inj hp hf hg (congrArg GroupedIndex.toList heq)
  · obtain ⟨f, hf, rfl⟩ := exists_map_eq hp ht
    exact ⟨f, hf, rfl⟩
  · have hflat : f.toNat < Axes.volume d.axes := hp.total_eq ▸ UInt64.lt_iff_toNat_lt.mp hf
    have hsizes : 0 ∉ d.sizes := fun h0 => by
      rw [d.volume_eq_zero_iff.mpr h0] at hflat
      omega
    rw [toList_map hp hf, ← zipWith_component_eq_tuple hp hf, hp.axes_eq, hp.sizes_eq]
    exact map_toInt_zipWith_component f p.strides hsizes
  · rw [zipWith_component_eq_tuple hp hf, map_eq_tuple hp hf]

theorem map_bijOn_and_lt_iff_widest :
    let d : ResolvedDomain := ⟨[⟨Int64.minValue, Int64.maxValue⟩, ⟨7, 8⟩]⟩
    let p : DispatchPlan := ⟨d.axes, [18446744073709551615, 1], [1, 1], 18446744073709551615⟩
    ofDomain d = .ok p ∧ Set.BijOn p.map {flat | flat < p.total} {t | d.Contains t} ∧
      (0 < p.total ∧ 18446744073709551614 < p.total ∧
        (p.map 0).compare (p.map 18446744073709551614) = .lt) := by
  intro d p
  have hplan : ofDomain d = .ok p := by rfl
  obtain ⟨hbij, hlt, -, -⟩ := map_bijOn_and_lt_iff hplan
  exact ⟨hplan, hbij, by decide, by decide, (hlt _ (by decide) _ (by decide)).mp (by decide)⟩

end DispatchPlan

end LoopNest
