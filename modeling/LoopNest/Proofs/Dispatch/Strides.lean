import LoopNest.Proofs.Dispatch.Bijection
import Mathlib.Algebra.BigOperators.Group.List.Basic
import Mathlib.Algebra.Order.Ring.Int
import Mathlib.Data.Nat.Cast.Basic

/-! Sizes, totals and strides against the integers. The total is a product checked from the left,
while the strides are multiplied from the right without a check. A size of at least one makes every
later product a divisor of the total, so the strides of a domain that is not empty fit as well. -/

namespace LoopNest

def ResolvedAxis.extent (a : ResolvedAxis) : Int := max 0 (a.upper.toInt - a.lower.toInt)

theorem ResolvedAxis.natCast_size (a : ResolvedAxis) : (a.size.toNat : Int) = a.extent := by
  rw [toNat_size, extent]
  omega

namespace Axes

def exactVolume (axes : List ResolvedAxis) : Int := (axes.map ResolvedAxis.extent).prod

theorem natCast_volume (axes : List ResolvedAxis) : (volume axes : Int) = exactVolume axes := by
  induction axes with
  | nil => rfl
  | cons a axes ih =>
    rw [volume_cons, Nat.cast_mul, ih, a.natCast_size]
    exact List.prod_cons.symm

theorem volume_perm {axes axes' : List ResolvedAxis} (h : axes'.Perm axes) :
    volume axes' = volume axes := (h.map _).prod_eq

end Axes

theorem MixedRadix.getElem?_weights {sizes : List Nat} {k w : Nat}
    (h : (weights sizes)[k]? = some w) : w = (sizes.drop (k + 1)).prod := by
  induction sizes generalizing k with
  | nil => cases h
  | cons s sizes ih =>
    cases k with
    | zero => exact (Option.some.inj h).symm
    | succ k => exact ih h

namespace ResolvedDomain

variable {d : ResolvedDomain}

theorem total?_eq_some_iff_exact {total : UInt64} :
    d.total? = some total ↔ (total.toNat : Int) = Axes.exactVolume d.axes := by
  rw [total?_eq_some_iff, ← Axes.natCast_volume, Nat.cast_inj, eq_comm]

theorem total?_eq_none_iff :
    d.total? = none ↔ (UInt64.size : Int) ≤ Axes.exactVolume d.axes := by
  rw [total?_eq, ← Axes.natCast_volume, Nat.cast_le]
  by_cases h : Axes.volume d.axes < UInt64.size
  · simp [h]
  · simp [h, Nat.not_lt.mp h]

theorem total?_of_empty_axis (h : ∃ a ∈ d.axes, a.extent = 0) : d.total? = some 0 := by
  obtain ⟨a, ha, hextent⟩ := h
  have hzero : Axes.exactVolume d.axes = 0 :=
    List.prod_eq_zero (hextent ▸ List.mem_map_of_mem ha)
  rw [total?_eq_some_iff_exact, hzero]
  rfl

end ResolvedDomain

/-- The strides from the last axis on, and the product that one more axis would get. Every product
is checked. -/
def checkedStrides? : List UInt64 → Option (UInt64 × List UInt64)
  | [] => some (1, [])
  | size :: sizes => do
    let (stride, strides) ← checkedStrides? sizes
    let next ← mulCount? stride size
    return (next, stride :: strides)

theorem checkedStrides?_eq {sizes : List UInt64} (hpos : 0 < (sizes.map UInt64.toNat).prod)
    (hfits : (sizes.map UInt64.toNat).prod < UInt64.size) :
    checkedStrides? sizes =
      some ((sizes.map UInt64.toNat).prod.toUInt64, rowMajorStrides sizes) := by
  induction sizes with
  | nil => rfl
  | cons s sizes ih =>
    rw [List.map_cons, List.prod_cons] at hpos hfits ⊢
    have hs : 0 < s.toNat := Nat.pos_of_mul_pos_right hpos
    have hrest : 0 < (sizes.map UInt64.toNat).prod := Nat.pos_of_mul_pos_left hpos
    have hlater : (sizes.map UInt64.toNat).prod < UInt64.size :=
      (Nat.le_mul_of_pos_left _ hs).trans_lt hfits
    have hvalue := toNat_toUInt64_of_lt hlater
    have hstride : sizes.foldl (· * ·) 1 = (sizes.map UInt64.toNat).prod.toUInt64 := by
      rw [← UInt64.toNat_inj, toNat_foldl_mul, hvalue, UInt64.toNat_one, one_mul]
      exact Nat.mod_eq_of_lt hlater
    rw [checkedStrides?, ih hrest hlater, Option.bind_eq_bind, Option.bind_some]
    simp only
    rw [mulCount?_eq, hvalue, mul_comm, if_pos hfits, rowMajorStrides_cons, hstride]
    rfl

namespace DispatchPlan

variable {d : ResolvedDomain} {p : DispatchPlan}

theorem total?_of_plans (h : p.Plans d) : d.total? = some p.total :=
  ResolvedDomain.total?_eq_some_iff.mpr h.total_eq.symm

theorem exists_ofDomain_iff :
    (∃ p, ofDomain d = .ok p) ↔ (1 ≤ d.rank ∧ d.rank ≤ maxRank) ∧ d.total?.isSome := by
  constructor
  · rintro ⟨p, hp⟩
    have h := plans_of_ofDomain hp
    exact ⟨⟨h.rank_pos, h.rank_le⟩, Option.isSome_of_eq_some (total?_of_plans h)⟩
  · rintro ⟨⟨hpos, hle⟩, htotal⟩
    obtain ⟨total, htotal⟩ := Option.isSome_iff_exists.mp htotal
    refine exists_ofDomain hpos hle ?_
    rw [ResolvedDomain.total?_eq_some_iff.mp htotal]
    exact total.toNat_lt

section Strides

variable (h : p.Plans d) (hpos : 0 < p.total)

include h hpos

theorem volume_pos_of_plans : 0 < Axes.volume d.axes :=
  h.total_eq ▸ UInt64.lt_iff_toNat_lt.mp hpos

theorem checkedStrides?_sizes : checkedStrides? p.sizes = some (p.total, p.strides) := by
  have hvolume := volume_pos_of_plans h hpos
  rw [h.sizes_eq, checkedStrides?_eq (d.map_toNat_sizes ▸ hvolume)
    (d.map_toNat_sizes ▸ volume_lt_of_plans h), d.map_toNat_sizes, h.strides_eq hvolume]
  change some ((Axes.volume d.axes).toUInt64, _) = _
  rw [← h.total_eq, Nat.toUInt64_eq, UInt64.ofNat_toNat]

theorem map_toNat_strides : p.strides.map UInt64.toNat = MixedRadix.weights (Axes.counts d.axes) := by
  have hvolume := volume_pos_of_plans h hpos
  have hfits := volume_lt_of_plans h
  rw [Axes.volume, ← d.map_toNat_sizes] at hvolume hfits
  rw [h.strides_eq (volume_pos_of_plans h hpos), map_toNat_rowMajorStrides hvolume hfits,
    d.map_toNat_sizes]

theorem stride_eq_exactVolume {k : Nat} {w : UInt64} (hw : p.strides[k]? = some w) :
    (w.toNat : Int) = Axes.exactVolume (d.axes.drop (k + 1)) := by
  have hweight : (MixedRadix.weights (Axes.counts d.axes))[k]? = some w.toNat := by
    rw [← map_toNat_strides h hpos, List.getElem?_map, hw, Option.map_some]
  rw [MixedRadix.getElem?_weights hweight, ← Axes.natCast_volume, Axes.volume, Axes.counts,
    Axes.counts, List.map_drop]

theorem head_stride_mul_size :
    ∃ w s, p.strides.head? = some w ∧ p.sizes.head? = some s ∧
      w.toNat * s.toNat = p.total.toNat := by
  have hchecked := checkedStrides?_sizes h hpos
  have hlength : p.sizes.length = d.axes.length := by rw [h.sizes_eq]; exact List.length_map ..
  obtain ⟨s, sizes, hsizes⟩ := List.exists_cons_of_length_pos (hlength ▸ h.rank_pos)
  simp only [hsizes, checkedStrides?, Option.bind_eq_bind, Option.bind_eq_some_iff] at hchecked
  obtain ⟨⟨w, strides⟩, -, total, htotal, heq⟩ := hchecked
  obtain ⟨rfl, hstrides⟩ := Prod.mk.inj (Option.some.inj heq)
  exact ⟨w, s, by rw [← hstrides]; rfl, by rw [hsizes]; rfl, (mulCount?_eq_some htotal).symm⟩

end Strides

/-- Size arithmetic is exact or refused. A size is the difference of the bounds, or zero; the total
is the product of the sizes, in whatever order the axes come, and there is none exactly if that
product is no word. A domain of one to eight axes with a total is planned, and no other. The strides
of a plan that is not empty are the products of the later sizes: checking every product of them, and
one more for the total, finds nothing that does not fit. -/
theorem sizes_and_strides_exact (d : ResolvedDomain) :
    (∀ a : ResolvedAxis, (a.size.toNat : Int) = max 0 (a.upper.toInt - a.lower.toInt)) ∧
    (∀ total, d.total? = some total ↔ (total.toNat : Int) = Axes.exactVolume d.axes) ∧
    (d.total? = none ↔ (UInt64.size : Int) ≤ Axes.exactVolume d.axes) ∧
    ((∃ a ∈ d.axes, a.extent = 0) → d.total? = some 0) ∧
    (∀ d' : ResolvedDomain, d'.axes.Perm d.axes → d'.total? = d.total?) ∧
    ((∃ p, ofDomain d = .ok p) ↔ (1 ≤ d.rank ∧ d.rank ≤ 8) ∧ d.total?.isSome) ∧
    ∀ p, ofDomain d = .ok p →
      d.total? = some p.total ∧
      (0 < p.total →
        p.strides.length = d.rank ∧
        (∀ k w, p.strides[k]? = some w →
          (w.toNat : Int) = Axes.exactVolume (d.axes.drop (k + 1))) ∧
        checkedStrides? p.sizes = some (p.total, p.strides) ∧
        ∃ w s, p.strides.head? = some w ∧ p.sizes.head? = some s ∧
          w.toNat * s.toNat = p.total.toNat) := by
  refine ⟨ResolvedAxis.natCast_size, fun total => ResolvedDomain.total?_eq_some_iff_exact,
    ResolvedDomain.total?_eq_none_iff, ResolvedDomain.total?_of_empty_axis, fun d' hperm => ?_,
    exists_ofDomain_iff, fun p hp => ?_⟩
  · rw [ResolvedDomain.total?_eq, ResolvedDomain.total?_eq, Axes.volume_perm hperm]
  · have h := plans_of_ofDomain hp
    refine ⟨total?_of_plans h, fun hpos => ⟨?_, fun k w => stride_eq_exactVolume h hpos,
      checkedStrides?_sizes h hpos, head_stride_mul_size h hpos⟩⟩
    rw [h.strides_eq (volume_pos_of_plans h hpos), length_rowMajorStrides]
    exact List.length_map ..

theorem sizes_and_strides_exact_extremes :
    let d : ResolvedDomain := ⟨[⟨-2, 1⟩, ⟨-4611686018427387904, 0⟩, ⟨5, 6⟩]⟩
    let p : DispatchPlan := ⟨d.axes, [3, 4611686018427387904, 1], [4611686018427387904, 1, 1],
      13835058055282163712⟩
    let wide : ResolvedAxis := ⟨Int64.minValue, Int64.maxValue⟩
    let e : ResolvedDomain := ⟨[wide, wide, ⟨3, 3⟩]⟩
    ofDomain d = .ok p ∧ checkedStrides? p.sizes = some (p.total, p.strides) ∧
      (4611686018427387904 : Int) = Axes.exactVolume (d.axes.drop 1) ∧
      e.total? = some 0 ∧ (⟨e.axes.reverse⟩ : ResolvedDomain).total? = e.total? := by
  intro d p wide e
  have hp : ofDomain d = .ok p := by cbv
  obtain ⟨-, -, -, -, -, -, hplans⟩ := sizes_and_strides_exact d
  obtain ⟨-, hstrides⟩ := hplans p hp
  obtain ⟨-, hexact, hchecked, -⟩ := hstrides (by decide)
  obtain ⟨-, -, -, hempty, hperm, -, -⟩ := sizes_and_strides_exact e
  exact ⟨hp, hchecked, hexact 0 _ rfl, hempty ⟨⟨3, 3⟩, by simp [e], by decide⟩,
    hperm _ (List.reverse_perm _)⟩

end DispatchPlan

end LoopNest
