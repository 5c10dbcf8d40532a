import LoopNest.Proofs.Dispatch.Strides
import LoopNest.Proofs.Domain.Anchors
import LoopNest.Proofs.Loop.Agreement
import LoopNest.Proofs.Loop.Variables

/-! When a loop unrolls, and what is reported when it does not. The header comes first, then the
first bound that does not fold, then the number of copies, which is an exact product and may be far
too large for a word. -/

namespace LoopNest

namespace RangeDomain

def FoldsTo (d : RangeDomain) (fold : Folder) (r : ResolvedDomain) : Prop :=
  List.Forall₂ (fun a b => fold a.lower = some b.lower ∧ fold a.upper = some b.upper) d.axes r.axes

variable {d : RangeDomain} {fold : Folder}

section Origin

open RangeArg CallSite

/-- A report about a bound `b` of axis `k`, with the origin of that axis: the place of the argument
that holds its leaf, and the span of the leaf inside it. -/
structure PointsAtAxis (args : List RangeArg) (d : RangeDomain) (k : Nat) (b : Bound)
    (report : Diagnostic) : Prop where
  code : report.code = some .compileTimeValueRequired
  position : report.position = some (d.callSite.axisOrigin k).position
  span : report.span = (d.callSite.axisOrigin k).span
  leaf : ∃ a leaf, d.axes[k]? = some a ∧ (b = a.lower ∨ b = a.upper) ∧ leaf.Denotes a ∧
    (tagged args)[k]? = some (leaf, (d.callSite.axisOrigin k).position)
  anchored : (callText args).utf8ByteSize < 2 ^ 32 → d.callSite.Anchored args

variable {args : List RangeArg} (hd : ofArguments args = .ok d)

include hd

theorem exists_leaf {k : Nat} {a : AxisRange} (ha : d.axes[k]? = some a) :
    ∃ leaf, leaf.Denotes a ∧
      (tagged args)[k]? = some (leaf, (d.callSite.axisOrigin k).position) := by
  have hdenotes := (ofArguments_eq_ok hd).2.2
  rw [← map_fst_tagged, ← map_tag_leaves, List.map_map, List.forall₂_map_left_iff] at hdenotes
  obtain ⟨haxis, rfl⟩ := List.getElem?_eq_some_iff.mp ha
  have hleaf : k < (leaves args).length := hdenotes.length_eq ▸ haxis
  refine ⟨(leaves args)[k].arg, hdenotes.get hleaf haxis, ?_⟩
  rw [(callSite_of_ofArguments hd).1, axisOrigin_located hleaf, ← map_tag_leaves, List.getElem?_map,
    List.getElem?_eq_getElem hleaf]
  rfl

theorem pointsAtAxis_of_firstUnknown? {k : Nat} {b : Bound}
    (h : d.firstUnknown? fold = some (k, b)) :
    PointsAtAxis args d k b (FoldError.diagnostic ⟨d.callSite, k, b⟩) where
  code := rfl
  position := rfl
  span := rfl
  leaf := by
    obtain ⟨⟨a, ha, hb⟩, -⟩ := of_firstUnknown?_eq_some h
    obtain ⟨leaf, hdenotes, htagged⟩ := exists_leaf hd ha
    exact ⟨a, leaf, ha, hb, hdenotes, htagged⟩
  anchored hshort := (callSite_of_ofArguments hd).1 ▸ anchored_located hshort

end Origin

end RangeDomain

theorem RangeLoop.withinLimit_iff_exact {d : ResolvedDomain} {limit : UInt64} :
    withinLimit d limit = true ↔ Axes.exactVolume d.axes ≤ limit.toNat := by
  rw [withinLimit_iff, ← Axes.natCast_volume, Nat.cast_le]

namespace RangeLoop

variable {l : RangeLoop} {fold : Folder} {settings : LaunchSettings}

theorem exists_unroll_iff :
    (∃ u, l.unroll fold settings = .ok u) ↔ l.HeaderFits ∧
      ∃ r, l.domain.FoldsTo fold r ∧ Axes.exactVolume r.axes ≤ settings.unrollLimit.toNat := by
  rw [← exists_compile_iff]
  constructor
  · rintro ⟨u, hu⟩
    obtain ⟨c, r, hc, hr, hlimit, -⟩ := unroll_eq_ok_iff.mp hu
    exact ⟨⟨c, hc⟩, r, RangeDomain.foldStatic_eq_ok_iff.mp hr, withinLimit_iff_exact.mp hlimit⟩
  · rintro ⟨⟨c, hc⟩, r, hr, hlimit⟩
    exact ⟨_, unroll_eq_ok_iff.mpr ⟨c, r, hc, RangeDomain.foldStatic_eq_ok_iff.mpr hr,
      withinLimit_iff_exact.mpr hlimit, rfl⟩⟩

theorem size_of_unroll {args : List RangeArg} (hd : RangeDomain.ofArguments args = .ok l.domain)
    {u : StaticLoop} (hu : l.unroll fold settings = .ok u) :
    ∃ r, l.domain.FoldsTo fold r ∧ (u.size : Int) = Axes.exactVolume r.axes := by
  obtain ⟨c, r, -, hr, -, rfl⟩ := unroll_eq_ok_iff.mp hu
  have hfolds := RangeDomain.foldStatic_eq_ok_iff.mp hr
  obtain ⟨hpos, hle⟩ := RangeDomain.rank_of_ofArguments hd
  rw [hfolds.length_eq] at hpos hle
  refine ⟨r, hfolds, ?_⟩
  rw [StaticLoop.size, ResolvedDomain.size_tuples hpos hle, Axes.natCast_volume]

/-! The three refusals, in the order in which they are tried. -/

theorem unroll_of_compile_error {error : HeaderError} (h : l.compile = .error error) :
    l.unroll fold settings = .error (.header error) := by
  rw [unroll, h]
  rfl

section Compiled

variable {c : CompiledLoop} (hc : l.compile = .ok c)

include hc

theorem unroll_of_firstUnknown? {k : Nat} {b : Bound}
    (h : l.domain.firstUnknown? fold = some (k, b)) :
    l.unroll fold settings = .error (.unknownBound ⟨l.domain.callSite, k, b⟩) := by
  have hfold := RangeDomain.foldStatic_eq_error_iff.mpr ⟨k, b, h, rfl⟩
  rw [unroll, hc, hfold]
  rfl

theorem unroll_of_limit {r : ResolvedDomain} (hr : l.domain.FoldsTo fold r)
    (h : settings.unrollLimit.toNat < Axes.exactVolume r.axes) :
    l.unroll fold settings =
      .error (.limit l.domain.callSite.source settings.unrollLimit r.sizes) := by
  have hlimit : ¬withinLimit r settings.unrollLimit = true := by
    rw [withinLimit_iff_exact]
    omega
  rw [unroll, hc, RangeDomain.foldStatic_eq_ok_iff.mpr hr]
  exact if_neg hlimit

end Compiled

/-- A loop over an accepted domain unrolls exactly if its header fits, all its bounds fold and the
exact product of the sizes is within the limit; and then into that many copies. Otherwise the first
of these to fail is reported: the header; the first bound that does not fold, axis by axis and begin
before end, where its axis is written; the limit. Whether all bounds fold is what a static domain is
asked for. -/
theorem unrolls_or_reports_first {args : List RangeArg}
    (hd : RangeDomain.ofArguments args = .ok l.domain) (fold : Folder) (settings : LaunchSettings) :
    ((∃ c, l.compile = .ok c) ↔ l.HeaderFits) ∧
    ((∃ u, l.unroll fold settings = .ok u) ↔ l.HeaderFits ∧
      ∃ r, l.domain.FoldsTo fold r ∧ Axes.exactVolume r.axes ≤ settings.unrollLimit.toNat) ∧
    (∀ u, l.unroll fold settings = .ok u →
      ∃ r, l.domain.FoldsTo fold r ∧ (u.size : Int) = Axes.exactVolume r.axes) ∧
    (¬l.HeaderFits → ∃ error, l.unroll fold settings = .error error ∧
      error.diagnostic.code = some .shapeError) ∧
    (l.HeaderFits →
      (∀ k b, l.domain.firstUnknown? fold = some (k, b) →
        ∃ error, l.unroll fold settings = .error error ∧
          RangeDomain.PointsAtAxis args l.domain k b error.diagnostic) ∧
      ∀ r, l.domain.FoldsTo fold r → settings.unrollLimit.toNat < Axes.exactVolume r.axes →
        ∃ error, l.unroll fold settings = .error error ∧
          error.diagnostic.code = some .unrollLimit) ∧
    (l.domain.firstUnknown? fold = none ↔ ∃ r, l.domain.FoldsTo fold r) ∧
    ∀ (d : RangeDomain) (g : Folder), d.isStatic g = true ↔ ∃ r, d.foldStatic g = .ok r := by
  refine ⟨exists_compile_iff, exists_unroll_iff, fun u => size_of_unroll hd, fun hmisfit => ?_,
    fun hfits => ?_, ?_, fun d g => RangeDomain.isStatic_iff⟩
  · cases hc : l.compile with
    | ok c => exact absurd (exists_compile_iff.mp ⟨c, hc⟩) hmisfit
    | error error => exact ⟨_, unroll_of_compile_error hc, rfl⟩
  · obtain ⟨c, hc⟩ := exists_compile_iff.mpr hfits
    refine ⟨fun k b hfirst => ⟨_, unroll_of_firstUnknown? hc hfirst, ?_⟩,
      fun r hr hlimit => ⟨_, unroll_of_limit hc hr hlimit, rfl⟩⟩
    exact RangeDomain.pointsAtAxis_of_firstUnknown? hd hfirst
  · rw [RangeDomain.firstUnknown?_eq_none_iff]
    exact exists_congr fun r => RangeDomain.foldStatic_eq_ok_iff

theorem unrolls_or_reports_first_splat :
    let wide : RangeArg := .seq [.ofInt64 (-9223372036854775808), .ofInt64 9223372036854775807]
    let pair : RangeArg := .seq [.param "n" (.int .i64), .param "m" (.int .i64)]
    let args : List RangeArg := [wide, .splat [wide, pair]]
    ∃ d empty full, RangeDomain.ofArguments args = .ok d ∧
      RangeDomain.ofArguments [wide, wide, .scalar (.ofInt64 0)] = .ok empty ∧
      RangeDomain.ofArguments [wide, wide] = .ok full ∧
      (∃ error, (⟨d, .vars 4⟩ : RangeLoop).unroll foldConstants { unrollLimit := 0 } = .error error ∧
        error.diagnostic.code = some .shapeError) ∧
      (∃ error, (⟨d, .vars 3⟩ : RangeLoop).unroll foldConstants { unrollLimit := 0 } = .error error ∧
        RangeDomain.PointsAtAxis args d 2 (.param "n" (.int .i64)) error.diagnostic ∧
        error.diagnostic.position = some 1) ∧
      (∃ u, (⟨empty, .grouped⟩ : RangeLoop).unroll foldConstants { unrollLimit := 0 } = .ok u) ∧
      ∃ error, (⟨full, .grouped⟩ : RangeLoop).unroll foldConstants {} = .error error ∧
        error.diagnostic.code = some .unrollLimit := by
  intro wide pair args
  obtain ⟨d, hd, hrank, hfirst, hposition⟩ : ∃ d, RangeDomain.ofArguments args = .ok d ∧
      3 = d.rank ∧ d.firstUnknown? foldConstants = some (2, .param "n" (.int .i64)) ∧
      (d.callSite.axisOrigin 2).position = 1 := ⟨_, rfl, rfl, rfl, rfl⟩
  obtain ⟨empty, r, hempty, hr, hnone⟩ : ∃ d r,
      RangeDomain.ofArguments [wide, wide, .scalar (.ofInt64 0)] = .ok d ∧
      d.foldStatic foldConstants = .ok r ∧ Axes.exactVolume r.axes = 0 :=
    ⟨_, _, rfl, rfl, by decide⟩
  obtain ⟨full, r', hfull, hr', hmany⟩ : ∃ d r,
      RangeDomain.ofArguments [wide, wide] = .ok d ∧
      d.foldStatic foldConstants = .ok r ∧
      ({} : LaunchSettings).unrollLimit.toNat < Axes.exactVolume r.axes :=
    ⟨_, _, rfl, rfl, by decide⟩
  have hgrouped : ∀ d, HeaderFits ⟨d, .grouped⟩ := fun d n hn => by cases hn
  refine ⟨d, empty, full, hd, hempty, hfull, ?header, ?bound, ?empty, ?limit⟩
  case header =>
    obtain ⟨-, -, -, hmisfit, -⟩ := unrolls_or_reports_first (l := ⟨d, .vars 4⟩) hd foldConstants
      { unrollLimit := 0 }
    refine hmisfit fun hfits => ?_
    have hle : 4 ≤ d.rank := (hfits 4 rfl).2
    omega
  case bound =>
    obtain ⟨-, -, -, -, hrefused, -⟩ := unrolls_or_reports_first (l := ⟨d, .vars 3⟩) hd foldConstants
      { unrollLimit := 0 }
    have hfits : HeaderFits ⟨d, .vars 3⟩ := fun n hn => by
      cases hn
      exact ⟨by decide, hrank.le⟩
    obtain ⟨error, herror, hpoints⟩ := (hrefused hfits).1 2 _ hfirst
    exact ⟨error, herror, hpoints, hpoints.position.trans (congrArg some hposition)⟩
  case empty =>
    obtain ⟨-, hunrolls, -⟩ := unrolls_or_reports_first (l := ⟨empty, .grouped⟩) hempty foldConstants
      { unrollLimit := 0 }
    exact hunrolls.mpr ⟨hgrouped empty, r, RangeDomain.foldStatic_eq_ok_iff.mp hr, hnone.le⟩
  case limit =>
    obtain ⟨-, -, -, -, hrefused, -⟩ := unrolls_or_reports_first (l := ⟨full, .grouped⟩) hfull
      foldConstants {}
    exact (hrefused (hgrouped full)).2 r' (RangeDomain.foldStatic_eq_ok_iff.mp hr') hmany

end RangeLoop

end LoopNest
