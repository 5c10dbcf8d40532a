import LoopNest.Proofs.Diagnostic.Excerpt
import LoopNest.Proofs.Domain.Anchors
import LoopNest.Proofs.Domain.Resolution
import LoopNest.Text.Width

/-! Where a report points. Spans count bytes and a drawing counts characters, so the report of an error
about a call has the column and the highlight of the argument at fault exactly if the source has no
characters of several bytes up to the end of the argument. -/

namespace LoopNest

theorem Report.place_inj {filename : String} {m n : Nat} (h : place filename m = place filename n) :
    m = n := by
  have hdigits : Nat.toDigits 10 (m + 1) = Nat.toDigits 10 (n + 1) := by
    simpa [place, toString, ← String.toList_inj] using h
  have hvalue := congrArg (Nat.ofDigitChars 10 · 0) hdigits
  simpa only [Nat.ofDigitChars_toDigits (by decide : 1 < 10) (by decide : 10 ≤ 10),
    Nat.add_right_cancel_iff] using hvalue

/-- The drawing has the place that comes after some characters, and highlights those that follow. -/
structure Drawing.PointsAt (draw : Drawing) (o : Outline) (source : String) (before slice : List Char) :
    Prop where
  exists_place : ∃ p ∈ draw o source, p.part = .place
  place : ∀ p ∈ draw o source, p.part = .place → p.text = Report.place o.filename before.length
  highlights (index : Nat) :
    draw.Highlights o source index ↔ before.length ≤ index ∧ index < (before ++ slice).length
  depicts : ∀ p ∈ draw o source, ∀ index c, p.part = .source index →
    (before ++ slice)[index]? = some c → Drawing.Depicts p.text c

namespace Diagnostic

def PointsAtSpan (draw : Drawing) (filename source : String) (d : Diagnostic) : Prop :=
  ∃ before slice after, d.span.Parts source before slice after ∧
    draw.PointsAt (d.outline filename) source before slice

section Points

variable {draw : Drawing} (hcounts : draw.CountsCharacters) {source : String} (hline : OneLine source)
  (htrim : dropBlanksRight source.toList = source.toList) {filename : String} {d : Diagnostic}
include hcounts hline htrim

theorem highlights_iff {index : Nat} :
    draw.Highlights (d.outline filename) source index ↔
      (d.label filename).Inside source ∧ (d.label filename).Covers index := by
  constructor
  · exact hcounts.covers _ hline rfl
  · rintro ⟨hinside, hcovers⟩
    refine hcounts.highlights _ hline rfl hinside hcovers ?_
    rw [htrim]
    exact hcovers.2.trans_le hinside.stop_le

variable {before slice after : List Char} (hparts : d.span.Parts source before slice after)
include hparts

theorem pointsAt_of_stop_eq (hsource : source ≠ "")
    (hstop : d.span.stop.toNat = (before ++ slice).length) :
    draw.PointsAt (d.outline filename) source before slice := by
  have hstart : (d.label filename).start = before.length := hparts.start_eq_length hstop
  replace hstop : (d.label filename).stop = (before ++ slice).length := hstop
  have hoffset : (d.outline filename).offset = before.length := hstart
  have horder : before.length ≤ (before ++ slice).length := (List.prefix_append ..).length_le
  have hinside : (d.label filename).Inside source :=
    ⟨hsource, by rwa [hstart, hstop], hstop ▸ hparts.length_le⟩
  refine ⟨hcounts.exists_place _ hline rfl hinside ?_, fun p hp hpart => ?_, fun index => ?_,
    fun p hp index c hpart hc => ?_⟩
  · exact hoffset ▸ horder.trans hparts.length_le
  · rw [hcounts.place _ hline hp hpart, hoffset]
  · rw [highlights_iff hcounts hline htrim, Label.Covers, hstart, hstop]
    exact and_iff_right hinside
  · obtain ⟨c', hc', hdepicts⟩ := hcounts.depicts _ hline hp hpart
    rw [hparts.source, List.getElem?_append_left (List.getElem?_eq_some_iff.mp hc).1, hc] at hc'
    rwa [Option.some.inj hc']

theorem stop_eq_of_pointsAt (hlength : (before ++ slice).length < source.toList.length)
    (h : draw.PointsAt (d.outline filename) source before slice) :
    d.span.stop.toNat = (before ++ slice).length := by
  obtain ⟨p, hp, hpart⟩ := h.exists_place
  have hplace := (hcounts.place _ hline hp hpart).symm.trans (h.place p hp hpart)
  have hstart : d.span.start.toNat = before.length := Report.place_inj hplace
  have hle : (before ++ slice).length ≤ d.span.stop.toNat := hparts.stop ▸ length_le_utf8Len _
  by_contra hne
  -- The span has a character, so the label is on it and on the one after the span as well.
  have hslice : slice ≠ [] := by
    rintro rfl
    rw [← hparts.stop, List.append_nil, hparts.start] at hne
    exact hne hstart
  have hpositive := List.length_pos_iff.mpr hslice
  have hfirst : draw.Highlights (d.outline filename) source before.length :=
    (h.highlights _).mpr ⟨Nat.le_refl _, by rw [List.length_append]; omega⟩
  obtain ⟨hinside, -⟩ := (highlights_iff hcounts hline htrim).mp hfirst
  have hcovers : (d.label filename).Covers (before ++ slice).length := by
    refine ⟨?_, Nat.lt_of_le_of_ne hle (Ne.symm hne)⟩
    rw [label, hstart, List.length_append]
    exact Nat.le_add_right ..
  have hnext := (h.highlights _).mp ((highlights_iff hcounts hline htrim).mpr ⟨hinside, hcovers⟩)
  exact Nat.lt_irrefl _ hnext.2

theorem pointsAtSpan_iff (hstop : d.span.stop.toNat < source.utf8ByteSize) :
    d.PointsAtSpan draw filename source ↔
      ∀ c ∈ source.toList.take d.span.stop.toNat, c.utf8Size = 1 := by
  constructor
  · rintro ⟨before', slice', after', hparts', h⟩
    exact hparts'.stop_eq_length_iff.mp
      (stop_eq_of_pointsAt hcounts hline htrim hparts' (hparts'.length_lt hstop) h)
  · intro hbytes
    have hsource : source ≠ "" := by
      rintro rfl
      cases hstop
    exact ⟨_, _, _, hparts, pointsAt_of_stop_eq hcounts hline htrim hparts hsource
      (hparts.stop_eq_length_iff.mpr hbytes)⟩

end Points

open RangeArg RangeDomain

/-- The errors about a call, from the check of its arguments or from folding its bounds. -/
inductive Reported (args : List RangeArg) : Diagnostic → Prop
  | refused {error : DomainError} (h : ofArguments args = .error error) :
    Reported args error.diagnostic
  | unknown {domain : RangeDomain} {fold : Folder} {error : FoldError}
      (hdomain : ofArguments args = .ok domain) (h : domain.foldStatic fold = .error error) :
    Reported args error.diagnostic

namespace Reported

variable {args : List RangeArg} {d : Diagnostic} (h : Reported args d) (hposition : d.position ≠ none)
include h hposition

theorem exists_leaf : ∃ leaf ∈ leaves args, d.span = leaf.origin.span := by
  cases h with
  | refused h =>
    obtain haxes | ⟨axes, -, ⟨-, rfl⟩ | ⟨-, rfl⟩⟩ := refused_of_ofArguments h
    · obtain ⟨before, leaf, after, fault, hleaves, -, -, -, rfl⟩ := exists_first_fault haxes
      exact ⟨leaf, by simp [hleaves], DomainError.span_argumentDiagnostic ..⟩
    · exact absurd rfl hposition
    · exact absurd rfl hposition
  | unknown hdomain h =>
    obtain ⟨k, b, hfirst, rfl⟩ := foldStatic_eq_error_iff.mp h
    obtain ⟨⟨a, haxis, -⟩, -⟩ := of_firstUnknown?_eq_some hfirst
    obtain ⟨hsite, hrank⟩ := callSite_of_ofArguments hdomain
    have hk : k < (leaves args).length := by
      have hlt : k < RangeDomain.rank _ := (List.getElem?_eq_some_iff.mp haxis).1
      rwa [hrank, hsite, CallSite.located, List.length_map] at hlt
    refine ⟨(leaves args)[k], List.getElem_mem hk, ?_⟩
    rw [← CallSite.axisOrigin_located hk, ← hsite]
    rfl

variable (hshort : (callText args).utf8ByteSize < 2 ^ 32)
include hshort

theorem exists_parts : ∃ before slice after, d.span.Parts (callText args) before slice after := by
  obtain ⟨leaf, hleaf, hspan⟩ := h.exists_leaf hposition
  obtain ⟨skipped, hstands, horigin⟩ := (laid_leaves hshort).covers leaf hleaf
  rw [hspan, horigin, Nat.zero_add]
  obtain ⟨before, after, hparts⟩ := Span.exists_parts_of_standsAt hshort hstands
  exact ⟨before, _, after, hparts⟩

theorem stop_lt : d.span.stop.toNat < (callText args).utf8ByteSize := by
  obtain ⟨leaf, hleaf, hspan⟩ := h.exists_leaf hposition
  have hfits := fits_call hshort
  have hstop := ((laid_callLeaves 0 _ args hfits).covers leaf hleaf).stop_le hfits
  rw [hspan, callText, String.utf8ByteSize_append, String.utf8ByteSize_append]
  exact Nat.lt_succ_of_le hstop

end Reported

theorem dropBlanksRight_callText (args : List RangeArg) :
    dropBlanksRight (callText args).toList = (callText args).toList := by
  rw [callText, String.toList_append]
  exact List.rdropWhile_concat_neg isBlank _ ')' (by decide)

theorem Reported.start_le_stop {args : List RangeArg} {d : Diagnostic} (h : Reported args d)
    (hposition : d.position ≠ none) (hshort : (callText args).utf8ByteSize < 2 ^ 32) :
    d.span.start ≤ d.span.stop := by
  obtain ⟨before, slice, after, hparts⟩ := h.exists_parts hposition hshort
  rw [UInt32.le_iff_toNat_le, ← hparts.start, ← hparts.stop, String.utf8Len_append]
  exact Nat.le_add_right ..

/-- The span of an error about an argument cuts the text of the argument out of the call, and the
report has the column of the argument and the label on its characters exactly if no character up to the end of the argument has several bytes. In every case the
column is the one that the first byte of the argument would have if every byte were a character, and
the label is on the characters that would be the argument's, if the source has so many. -/
theorem report_points_at_argument {ρ : Type} {R : Renderer ρ} {view : ρ → Sheet} {draw : Drawing}
    (hdraws : R.Draws view draw) (hcounts : draw.CountsCharacters) {args : List RangeArg}
    {d : Diagnostic} (hline : OneLine (callText args)) (hshort : (callText args).utf8ByteSize < 2 ^ 32)
    (h : Reported args d) (hposition : d.position ≠ none) (filename : String) :
    let pieces := draw (d.outline filename) (callText args)
    let label := d.label filename
    d.renderToString R filename (callText args) = paintAll false (some d.severity.colour) pieces ∧
    (∃ before slice after, d.span.Parts (callText args) before slice after ∧
      d.span.slice? (callText args) = some (String.ofList slice)) ∧
    (d.PointsAtSpan draw filename (callText args) ↔
      ∀ c ∈ (callText args).toList.take d.span.stop.toNat, c.utf8Size = 1) ∧
    (∀ p ∈ pieces, p.part = .place → p.text = Report.place filename d.span.start.toNat) ∧
    (label.Inside (callText args) → ∃ p ∈ pieces, p.part = .place) ∧
    (∀ index, draw.Highlights (d.outline filename) (callText args) index ↔
      label.Inside (callText args) ∧ label.Covers index) := by
  intro pieces label
  have htrim := dropBlanksRight_callText args
  obtain ⟨before, slice, after, hparts⟩ := h.exists_parts hposition hshort
  refine ⟨hdraws.renderToString_eq (h.start_le_stop hposition hshort),
    ⟨before, slice, after, hparts, hparts.slice?_eq⟩,
    pointsAtSpan_iff hcounts hline htrim hparts (h.stop_lt hposition hshort),
    fun p hp hpart => hcounts.place _ hline hp hpart,
    fun hinside => hcounts.exists_place _ hline rfl hinside ?_,
    fun index => highlights_iff hcounts hline htrim⟩
  exact hinside.start_le.trans hinside.stop_le

theorem report_points_at_argument_letter :
    let args : List RangeArg := [.scalar (.param "n" (.int .i32)), .scalar (.param "x" (.float .f64))]
    OneLine (callText args) ∧ ∃ d, Reported args d ∧ d.position = some 1 ∧
      callText args = "ndrange(n, x)" ∧ d.span.slice? (callText args) = some "x" ∧
      d.PointsAtSpan (labelledExcerpt columnWidth) "kernel" (callText args) := by
  intro args
  have h : Reported args _ := .refused rfl
  have hline : OneLine (callText args) := by decide
  obtain ⟨-, -, hpoints, -⟩ := report_points_at_argument (labelledExcerpt columnWidth).renderer_draws
    Report.labelledExcerpt_countsCharacters hline (by decide) h (by decide) "kernel"
  exact ⟨hline, _, h, by decide, by decide, by decide,
    hpoints.mpr (utf8Len_eq_length_iff.mp (by decide))⟩

/-- After a letter of two bytes the report has the next column, and highlights what stands there. -/
theorem report_points_past_argument :
    let args : List RangeArg := [.scalar (.param "é" (.int .i32)), .scalar (.param "x" (.float .f64))]
    ∃ d, Reported args d ∧ d.position = some 1 ∧ callText args = "ndrange(é, x)" ∧
      d.span.slice? (callText args) = some "x" ∧
      d.renderToString (labelledExcerpt columnWidth).renderer "kernel" (callText args) =
        paintAll false (some .red)
          (labelledExcerpt columnWidth (d.outline "kernel") (callText args)) ∧
      ¬d.PointsAtSpan (labelledExcerpt columnWidth) "kernel" (callText args) ∧
      (∃ p ∈ labelledExcerpt columnWidth (d.outline "kernel") (callText args),
        p.part = .place ∧ p.text = "kernel:1:13") ∧
      ∃ p ∈ labelledExcerpt columnWidth (d.outline "kernel") (callText args),
        p.part = .source 12 ∧ p.ink = .label ∧ p.text = ")" := by
  intro args
  have h : Reported args _ := .refused rfl
  obtain ⟨before, slice, after, hparts⟩ := h.exists_parts (by decide) (by decide)
  refine ⟨_, h, by decide, by decide, by decide,
    (labelledExcerpt columnWidth).renderer_draws.renderToString_eq (by decide), ?_,
    by decide +kernel, by decide +kernel⟩
  rw [pointsAtSpan_iff Report.labelledExcerpt_countsCharacters (by decide)
    (dropBlanksRight_callText args) hparts (h.stop_lt (by decide) (by decide)),
    ← utf8Len_eq_length_iff]
  decide

end Diagnostic

end LoopNest
