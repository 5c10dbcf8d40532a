import LoopNest.Proofs.Domain.Grammar
import LoopNest.Proofs.Domain.Written

/-! Spans of a range call. Every leaf covers its own text, wherever separators, brackets and nested
splats have moved it to. What is laid out at an offset of a text is laid out in whatever that text
stands in, so that the spans of the leaves follow from those of one leaf and of one comma. -/

namespace LoopNest

def Leaf.Covers (leaf : Leaf) (offset : Nat) (text : String) : Prop :=
  ∃ skipped, StandsAt leaf.arg.text skipped text ∧
    leaf.origin.span = .ofLength (offset + skipped) leaf.arg.text.utf8ByteSize

def Leaf.Precedes (leaf next : Leaf) : Prop := leaf.origin.span.stop ≤ next.origin.span.start

/-- Leaves from left to right, each over its own part of a text that starts at the offset. -/
structure Laid (offset : Nat) (text : String) (leaves : List Leaf) : Prop where
  covers : ∀ leaf ∈ leaves, leaf.Covers offset text
  ordered : leaves.Pairwise Leaf.Precedes

namespace Leaf.Covers

variable {leaf : Leaf} {offset : Nat} {text : String}

theorem within {outer : String} {skipped : Nat} (ht : StandsAt text skipped outer)
    (h : leaf.Covers (offset + skipped) text) : leaf.Covers offset outer := by
  obtain ⟨inner, hleaf, hspan⟩ := h
  exact ⟨skipped + inner, hleaf.trans ht, by rw [hspan, Nat.add_assoc]⟩

theorem le_start (h : leaf.Covers offset text) (hfits : offset + text.utf8ByteSize < 2 ^ 32) :
    offset ≤ leaf.origin.span.start.toNat := by
  obtain ⟨skipped, hleaf, hspan⟩ := h
  have hend := hleaf.end_le
  rw [hspan, Span.toNat_start_ofLength (by omega)]
  exact Nat.le_add_right ..

theorem stop_le (h : leaf.Covers offset text) (hfits : offset + text.utf8ByteSize < 2 ^ 32) :
    leaf.origin.span.stop.toNat ≤ offset + text.utf8ByteSize := by
  obtain ⟨skipped, hleaf, hspan⟩ := h
  have hend := hleaf.end_le
  rw [hspan, Span.toNat_stop_ofLength (by omega)]
  omega

theorem slice? (h : leaf.Covers 0 text) (hshort : text.utf8ByteSize < 2 ^ 32) :
    leaf.origin.span.slice? text = some leaf.arg.text := by
  obtain ⟨skipped, hleaf, hspan⟩ := h
  rw [hspan, Nat.zero_add]
  exact Span.slice?_of_standsAt hshort hleaf

end Leaf.Covers

namespace Laid

variable {offset : Nat} {text : String} {leaves : List Leaf}

theorem single (arg : LeafArg) (position : Nat) :
    Laid offset arg.text [⟨arg, position, .ofLength offset arg.text.utf8ByteSize⟩] where
  covers := by simpa using ⟨0, .refl arg.text, rfl⟩
  ordered := List.pairwise_singleton ..

theorem within {outer : String} {skipped : Nat} (ht : StandsAt text skipped outer)
    (h : Laid (offset + skipped) text leaves) : Laid offset outer leaves where
  covers leaf hleaf := Leaf.Covers.within ht (h.covers leaf hleaf)
  ordered := h.ordered

theorem append {first last : String} {gap : Nat} {rest : List Leaf}
    (hfits : offset + text.utf8ByteSize < 2 ^ 32) (hgap : first.utf8ByteSize ≤ gap)
    (h : Laid offset first leaves) (hfirst : StandsAt first 0 text)
    (hrest : Laid (offset + gap) last rest) (hlast : StandsAt last gap text) :
    Laid offset text (leaves ++ rest) := by
  refine ⟨List.forall_mem_append.mpr ⟨(within hfirst h).covers, (within hlast hrest).covers⟩,
    List.pairwise_append.mpr ⟨h.ordered, hrest.ordered, fun leaf hleaf next hnext => ?_⟩⟩
  -- Up to the end of the whole text no offset wraps around, so the words compare as the numbers.
  have hend := hlast.end_le
  have hstop := (h.covers leaf hleaf).stop_le (by omega)
  have hstart := (hrest.covers next hnext).le_start (by omega)
  exact UInt32.le_iff_toNat_le.mpr (by omega)

end Laid

namespace RangeArg

section Commas

variable (a : RangeArg) {as : List RangeArg}

theorem standsAt_head (as : List RangeArg) :
    StandsAt a.text 0 (commaSeparated (texts (a :: as))) := by
  by_cases has : as = []
  · rw [has, texts, texts, commaSeparated, String.intercalate_singleton]
    exact .refl a.text
  · rw [commaSeparated_texts a has, String.append_assoc]
    exact ⟨"", ", " ++ commaSeparated (texts as), by simp, rfl⟩

theorem standsAt_tail (h : as ≠ []) :
    StandsAt (commaSeparated (texts as)) (a.width + 2) (commaSeparated (texts (a :: as))) := by
  rw [commaSeparated_texts a h]
  exact ⟨a.text ++ ", ", "", by simp, String.utf8ByteSize_append⟩

variable {offset : Nat} (hfits : offset + (commaSeparated (texts (a :: as))).utf8ByteSize < 2 ^ 32)
include hfits

theorem fits_head : offset + a.text.utf8ByteSize < 2 ^ 32 := by
  have hend := (standsAt_head a as).end_le
  omega

theorem fits_tail (h : as ≠ []) :
    a.nextOffset offset + (commaSeparated (texts as)).utf8ByteSize < 2 ^ 32 := by
  have hend := (standsAt_tail a h).end_le
  rw [nextOffset]
  omega

theorem laid_cons {leaves rest : List Leaf} (h : Laid offset a.text leaves)
    (hnil : as = [] → rest = [])
    (hrest : as ≠ [] → Laid (a.nextOffset offset) (commaSeparated (texts as)) rest) :
    Laid offset (commaSeparated (texts (a :: as))) (leaves ++ rest) := by
  by_cases has : as = []
  · rw [hnil has, List.append_nil]
    exact .within (standsAt_head a as) h
  · exact .append hfits (Nat.le_add_right ..) h (standsAt_head a as) (hrest has)
      (standsAt_tail a has)

end Commas

mutual

theorem laid_leavesAt (position offset : Nat) (a : RangeArg)
    (hfits : offset + a.text.utf8ByteSize < 2 ^ 32) :
    Laid offset a.text (a.leavesAt position offset) := by
  match a with
  | .scalar upper =>
    rw [leavesAt, text]
    exact .single (.scalar upper) position
  | .seq items =>
    rw [leavesAt, text]
    exact .single (.seq items) position
  | .splat args =>
    have hinside : StandsAt (commaSeparated (texts args)) 2 (text (.splat args)) := by
      rw [text]
      exact .append "*[" _ "]"
    have hend := hinside.end_le
    rw [leavesAt]
    exact .within hinside (laid_splicedLeaves position (offset + 2) args (by omega))

theorem laid_splicedLeaves (position offset : Nat) (args : List RangeArg)
    (hfits : offset + (commaSeparated (texts args)).utf8ByteSize < 2 ^ 32) :
    Laid offset (commaSeparated (texts args)) (splicedLeaves position offset args) := by
  match args with
  | [] =>
    rw [splicedLeaves]
    exact ⟨by simp, .nil⟩
  | a :: as =>
    rw [splicedLeaves]
    refine laid_cons a hfits (laid_leavesAt position offset a (fits_head a hfits)) ?_ ?_
    · rintro rfl
      rw [splicedLeaves]
    · exact fun has => laid_splicedLeaves position _ as (fits_tail a hfits has)

end

theorem laid_callLeaves (position offset : Nat) (args : List RangeArg)
    (hfits : offset + (commaSeparated (texts args)).utf8ByteSize < 2 ^ 32) :
    Laid offset (commaSeparated (texts args)) (callLeaves position offset args) := by
  induction args generalizing position offset with
  | nil => exact ⟨by simp [callLeaves], .nil⟩
  | cons a as ih =>
    refine laid_cons a hfits (laid_leavesAt position offset a (fits_head a hfits)) ?_ ?_
    · rintro rfl
      rfl
    · exact fun has => ih (position + 1) _ (fits_tail a hfits has)

section Spans

variable {offset : Nat}

theorem forall₂_callSpans (args : List RangeArg) :
    List.Forall₂ (fun span a => ∃ skipped, StandsAt a.text skipped (commaSeparated (texts args)) ∧
      span = .ofLength (offset + skipped) a.text.utf8ByteSize) (callSpans offset args) args := by
  induction args generalizing offset with
  | nil => exact .nil
  | cons a as ih =>
    refine .cons ⟨0, standsAt_head a as, rfl⟩ ?_
    by_cases has : as = []
    · subst has
      exact .nil
    · refine ih.imp fun span other hother => ?_
      obtain ⟨skipped, hstands, rfl⟩ := hother
      exact ⟨_, hstands.trans (standsAt_tail a has), by simp only [nextOffset, Nat.add_assoc]⟩

theorem position_of_mem_leavesAt {position : Nat} {a : RangeArg} {leaf : Leaf}
    (h : leaf ∈ a.leavesAt position offset) : leaf.origin.position = position := by
  have htag := List.mem_map_of_mem (f := Leaf.tag) h
  rw [map_tag_leavesAt] at htag
  obtain ⟨_, -, heq⟩ := List.mem_map.mp htag
  exact (congrArg Prod.snd heq).symm

theorem exists_callSpan {position : Nat} {args : List RangeArg} {leaf : Leaf}
    (hfits : offset + (commaSeparated (texts args)).utf8ByteSize < 2 ^ 32)
    (h : leaf ∈ callLeaves position offset args) :
    ∃ k span, leaf.origin.position = position + k ∧ (callSpans offset args)[k]? = some span ∧
      leaf.origin.span.Inside span := by
  induction args generalizing position offset with
  | nil => cases h
  | cons a as ih =>
    obtain hleaf | hleaf := List.mem_append.mp h
    · have hhead := fits_head a hfits
      have hcovers := (laid_leavesAt position offset a hhead).covers leaf hleaf
      refine ⟨0, _, position_of_mem_leavesAt hleaf, rfl, ?_, ?_⟩
      · rw [width, UInt32.le_iff_toNat_le, Span.toNat_start_ofLength hhead]
        exact hcovers.le_start hhead
      · rw [width, UInt32.le_iff_toNat_le, Span.toNat_stop_ofLength hhead]
        exact hcovers.stop_le hhead
    · have has : as ≠ [] := by
        rintro rfl
        cases hleaf
      obtain ⟨k, span, hposition, hspan, hinside⟩ := ih (fits_tail a hfits has) hleaf
      exact ⟨k + 1, span, by omega, hspan, hinside⟩

theorem pairwise_position_callLeaves (position offset : Nat) (args : List RangeArg) :
    (∀ leaf ∈ callLeaves position offset args, position ≤ leaf.origin.position) ∧
      (callLeaves position offset args).Pairwise
        fun leaf next => leaf.origin.position ≤ next.origin.position := by
  induction args generalizing position offset with
  | nil => exact ⟨by simp [callLeaves], .nil⟩
  | cons a as ih =>
    obtain ⟨hlater, hordered⟩ := ih (position + 1) (a.nextOffset offset)
    refine ⟨List.forall_mem_append.mpr ⟨fun leaf hleaf => ?_, fun leaf hleaf => ?_⟩,
      List.pairwise_append.mpr ⟨?_, hordered, fun leaf hleaf next hnext => ?_⟩⟩
    · exact Nat.le_of_eq (position_of_mem_leavesAt hleaf).symm
    · exact Nat.le_of_succ_le (hlater leaf hleaf)
    · refine List.pairwise_of_forall_mem_list fun leaf hleaf next hnext => ?_
      rw [position_of_mem_leavesAt hleaf, position_of_mem_leavesAt hnext]
    · rw [position_of_mem_leavesAt hleaf]
      exact Nat.le_of_succ_le (hlater next hnext)

end Spans

theorem standsAt_callText (args : List RangeArg) :
    StandsAt (commaSeparated (texts args)) callHead.utf8ByteSize (callText args) :=
  .append callHead _ ")"

theorem length_leaves (args : List RangeArg) : (leaves args).length = (tagged args).length := by
  rw [← map_tag_leaves, List.length_map]

section Short

variable {args : List RangeArg} (hshort : (callText args).utf8ByteSize < 2 ^ 32)
include hshort

theorem fits_call : callHead.utf8ByteSize + (commaSeparated (texts args)).utf8ByteSize < 2 ^ 32 :=
  (standsAt_callText args).end_le.trans_lt hshort

theorem laid_leaves : Laid 0 (callText args) (leaves args) := by
  refine .within (standsAt_callText args) ?_
  rw [Nat.zero_add]
  exact laid_callLeaves 0 _ args (fits_call hshort)

theorem slice?_args :
    List.Forall₂ (fun span a => span.slice? (callText args) = some a.text)
      (CallSite.render args).args args := by
  refine (forall₂_callSpans args).imp fun span a ha => ?_
  obtain ⟨skipped, hstands, rfl⟩ := ha
  exact Span.slice?_of_standsAt hshort (hstands.trans (standsAt_callText args))

end Short

end RangeArg

namespace CallSite

open RangeArg

/-- The origins of a site are those of the leaves of its arguments: each has the place of the
argument that holds the leaf and covers the text of the leaf inside it, and they follow one
another. -/
structure Anchored (site : CallSite) (args : List RangeArg) : Prop where
  leaf : ∀ k < site.axes.length, ∃ leaf,
    (tagged args)[k]? = some (leaf, (site.axisOrigin k).position) ∧
      (site.axisOrigin k).span.slice? site.source = some leaf.text
  inside : ∀ k < site.axes.length, ∃ span,
    site.args[(site.axisOrigin k).position]? = some span ∧ (site.axisOrigin k).span.Inside span
  ordered : ∀ j k, j < k → k < site.axes.length →
    (site.axisOrigin j).position ≤ (site.axisOrigin k).position ∧
      (site.axisOrigin j).span.stop ≤ (site.axisOrigin k).span.start

variable {args : List RangeArg}

theorem axisOrigin_located {k : Nat} (h : k < (leaves args).length) :
    (located args).axisOrigin k = (leaves args)[k].origin := by
  simp [axisOrigin, located, h]

theorem anchored_located (hshort : (callText args).utf8ByteSize < 2 ^ 32) :
    (located args).Anchored args := by
  have hlaid := laid_leaves hshort
  have haxes : (located args).axes.length = (leaves args).length := List.length_map ..
  refine ⟨fun k hk => ?_, fun k hk => ?_, fun j k hjk hk => ?_⟩ <;> rw [haxes] at hk
  · rw [axisOrigin_located hk]
    refine ⟨(leaves args)[k].arg, ?_, (hlaid.covers _ (List.getElem_mem hk)).slice? hshort⟩
    rw [← map_tag_leaves, List.getElem?_map, List.getElem?_eq_getElem hk]
    rfl
  · rw [axisOrigin_located hk]
    obtain ⟨i, span, hposition, hspan, hinside⟩ :=
      exists_callSpan (fits_call hshort) (List.getElem_mem hk)
    rw [Nat.zero_add] at hposition
    exact ⟨span, hposition ▸ hspan, hinside⟩
  · rw [axisOrigin_located hk, axisOrigin_located (hjk.trans hk)]
    have hposition := (pairwise_position_callLeaves 0 callHead.utf8ByteSize args).2
    exact ⟨List.pairwise_iff_getElem.mp hposition j k _ hk hjk,
      List.pairwise_iff_getElem.mp hlaid.ordered j k _ hk hjk⟩

theorem axisOrigin_of_le {site : CallSite} {k : Nat} (h : site.axes.length ≤ k) :
    site.axisOrigin k = ⟨0, .whole site.source⟩ := by
  rw [axisOrigin, List.getD_eq_getElem?_getD, List.getElem?_eq_none h, Option.getD_none]

end CallSite

theorem DomainError.span_argumentDiagnostic (source : String) (origin : AxisOrigin)
    (fault : ArgumentFault) : (argumentDiagnostic source origin fault).span = origin.span := by
  cases fault <;> rfl

theorem LeafArg.axis_seq_of_length_ne {items : List Bound} (h : items.length ≠ 2) :
    LeafArg.axis (.seq items) = .error (.components items.length) := by
  match items, h with
  | [], _ => rfl
  | [_], _ => rfl
  | [_, _], h => exact absurd rfl h
  | _ :: _ :: _ :: _, _ => rfl

namespace RangeDomain

open RangeArg

variable {args : List RangeArg}

/-- The error is about the first malformed leaf: it has the origin of that leaf, and quotes its text
if it has the wrong number of components. -/
def PointsAt (args : List RangeArg) (error : DomainError) : Prop :=
  ∃ before leaf position after, tagged args = before ++ (leaf, position) :: after ∧
    (∀ earlier ∈ before, earlier.1.WellFormed) ∧ ¬leaf.WellFormed ∧
    error.diagnostic.position = some position ∧
    error.diagnostic.span = ((CallSite.located args).axisOrigin before.length).span ∧
    error.diagnostic.span.slice? (callText args) = some leaf.text ∧
    ∀ items, leaf = .seq items → items.length ≠ 2 →
      error.diagnostic.notes =
        [s!"argument {position + 1} `{leaf.text}` has {items.length} components"]

theorem pointsAt_of_mapM_eq_error {error : DomainError}
    (hshort : (callText args).utf8ByteSize < 2 ^ 32)
    (h : (leaves args).mapM (axisOfLeaf (callText args)) = .error error) : PointsAt args error := by
  obtain ⟨before, leaf, after, fault, hleaves, hbefore, hleaf, hfault, rfl⟩ := exists_first_fault h
  have hslice : leaf.origin.span.slice? (callText args) = some leaf.arg.text :=
    ((laid_leaves hshort).covers leaf (by simp [hleaves])).slice? hshort
  have hspan : (DomainError.argument (callText args) leaf.origin fault).diagnostic.span =
      leaf.origin.span := DomainError.span_argumentDiagnostic ..
  refine ⟨before.map Leaf.tag, leaf.arg, leaf.origin.position, _, tagged_eq_append hleaves, hbefore,
    hleaf, DomainError.position_argumentDiagnostic .., ?_, hspan ▸ hslice, ?_⟩
  · rw [hspan, List.length_map, CallSite.axisOrigin_located (by simp [hleaves])]
    simp [hleaves]
  · intro items hitems hlength
    rw [hitems, LeafArg.axis_seq_of_length_ne hlength] at hfault
    cases hfault
    simp [DomainError.diagnostic, DomainError.argumentDiagnostic, Diagnostic.withNote,
      Diagnostic.atPosition, Diagnostic.withCode, Diagnostic.error, hslice]

theorem pointsAt_or_whole {error : DomainError} (hshort : (callText args).utf8ByteSize < 2 ^ 32)
    (h : ofArguments args = .error error) :
    PointsAt args error ∨ (∀ leaf ∈ flattenAll args, leaf.WellFormed) ∧
      error.diagnostic.span = .whole (callText args) := by
  obtain haxes | ⟨axes, haxes, hcount⟩ := refused_of_ofArguments h
  · exact .inl (pointsAt_of_mapM_eq_error hshort haxes)
  · refine .inr ⟨(mapM_axisOfLeaf_eq_ok_iff.mp haxes).1, ?_⟩
    obtain ⟨-, rfl⟩ | ⟨-, rfl⟩ := hcount
    · rfl
    · rfl

theorem callSite_of_ofArguments {d : RangeDomain} (h : ofArguments args = .ok d) :
    d.callSite = .located args ∧ d.rank = d.callSite.axes.length := by
  obtain ⟨-, -, hsite⟩ := accepted_of_ofArguments h
  have hlength := (ofArguments_eq_ok h).2.2.length_eq
  refine ⟨hsite, ?_⟩
  rw [rank, ← hlength, hsite, ← map_fst_tagged, ← map_tag_leaves]
  simp

/-- Every span of a call that is not too long for spans is that of the text it is for. The spans of
the arguments cut out their texts; so do the origins of the axes, in order and each inside its
argument, and the span of an error. No cut falls inside a character or leaves the source. -/
theorem spans_cut_out_texts (hshort : (callText args).utf8ByteSize < 2 ^ 32) :
    CallSite.written args = CallSite.located args ∧
    List.Forall₂ (fun span a => span.slice? (CallSite.render args).source = some a.text)
      (CallSite.render args).args args ∧
    (∀ d, ofArguments args = .ok d →
      d.callSite.source = (CallSite.render args).source ∧
      d.callSite.args = (CallSite.render args).args ∧
      d.rank = d.callSite.axes.length ∧ d.rank = (tagged args).length ∧ d.callSite.Anchored args ∧
      ∀ k, d.rank ≤ k → d.callSite.axisOrigin k = ⟨0, .whole (callText args)⟩) ∧
    (CallSite.located args).Anchored args ∧
    (∀ error, ofArguments args = .error error →
      ((∃ leaf ∈ flattenAll args, ¬leaf.WellFormed) → PointsAt args error) ∧
      ((∀ leaf ∈ flattenAll args, leaf.WellFormed) →
        error.diagnostic.span.slice? (callText args) = some (callText args))) := by
  have hanchored := CallSite.anchored_located hshort
  refine ⟨CallSite.written_eq args, slice?_args hshort, fun d hd => ?_, hanchored,
    fun error herror => ?_⟩
  · obtain ⟨hsite, hrank⟩ := callSite_of_ofArguments hd
    refine ⟨by rw [hsite]; rfl, by rw [hsite]; rfl, hrank, ?_, hsite ▸ hanchored, fun k hk => ?_⟩
    · rw [hrank, hsite, CallSite.located, List.length_map, length_leaves]
    · rw [CallSite.axisOrigin_of_le (hrank ▸ hk), hsite]
      rfl
  · obtain hpoints | ⟨hwell, hspan⟩ := pointsAt_or_whole hshort herror
    · refine ⟨fun _ => hpoints, fun hwell => ?_⟩
      obtain ⟨before, leaf, position, after, htagged, -, hnot, -⟩ := hpoints
      have hmem : leaf ∈ flattenAll args := by simp [← map_fst_tagged, htagged]
      exact absurd (hwell leaf hmem) hnot
    · refine ⟨fun hbad => ?_, fun _ => ?_⟩
      · obtain ⟨leaf, hmem, hnot⟩ := hbad
        exact absurd (hwell leaf hmem) hnot
      · rw [hspan]
        exact Span.slice?_whole hshort

theorem spans_cut_out_texts_unicode :
    let size : Bound := .param "größe" (.int .i64)
    let pair : RangeArg := .seq [.ofInt64 1, size]
    let args : List RangeArg := [.scalar size, .splat [.scalar size, .splat [], .splat [pair]]]
    let bad := args ++ [.seq [.ofInt64 7]]
    callText bad = "ndrange(größe, *[größe, *[], *[(1, größe)]], (7,))" ∧
    (∃ d, ofArguments args = .ok d ∧ d.callSite.Anchored args ∧
      d.callSite.axisOrigin 2 = ⟨1, 35, 47⟩) ∧
    ∃ error, ofArguments bad = .error error ∧ PointsAt bad error ∧
      error.diagnostic.notes = ["argument 3 `(7,)` has 1 components"] := by
  intro size pair args bad
  have hargs : (callText args).utf8ByteSize < 2 ^ 32 := by decide
  have hbad : (callText bad).utf8ByteSize < 2 ^ 32 := by decide
  obtain ⟨-, -, haccepted, -⟩ := spans_cut_out_texts hargs
  obtain ⟨-, -, -, -, hrefused⟩ := spans_cut_out_texts hbad
  refine ⟨by decide, ⟨_, rfl, ?_, by decide⟩, _, rfl, ?_, by decide⟩
  · obtain ⟨-, -, -, -, hanchored, -⟩ := haccepted _ rfl
    exact hanchored
  · refine (hrefused _ rfl).1 ⟨.seq [.ofInt64 7], ?_, fun hwell => absurd hwell.1 (by decide)⟩
    simp [flattenAll, flatten, bad, args]

end RangeDomain

end LoopNest
