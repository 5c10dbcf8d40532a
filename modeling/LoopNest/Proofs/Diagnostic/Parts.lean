import LoopNest.Proofs.Diagnostic.Excerpt
import LoopNest.Text.Width
import Mathlib.Data.List.Induction

/-! What of a diagnostic is drawn. Its message and its code always are; its help and its last note are
wherever the label can be drawn. The notes before the last one have no part in the report. -/

namespace LoopNest

namespace Diagnostic

inductive Extra where
  | code (code : DiagnosticCode)
  | position (position : Nat)
  | note (text : String)
  | help (text : String)

def Extra.code? : Extra → Option DiagnosticCode
  | code c => some c
  | _ => none

def Extra.position? : Extra → Option Nat
  | position p => some p
  | _ => none

def Extra.note? : Extra → Option String
  | note text => some text
  | _ => none

def Extra.help? : Extra → Option String
  | help text => some text
  | _ => none

def add (d : Diagnostic) : Extra → Diagnostic
  | .code c => d.withCode c
  | .position p => d.atPosition p
  | .note text => d.withNote text
  | .help text => d.withHelp text

def ofSeverity (severity : Severity) (message : String) (span : Span) : Diagnostic :=
  match severity with
  | .error => error message span
  | .warning => warning message span

def build (severity : Severity) (message : String) (span : Span) (extras : List Extra) : Diagnostic :=
  extras.foldl add (ofSeverity severity message span)

theorem build_eq (severity : Severity) (message : String) (span : Span) (extras : List Extra) :
    build severity message span extras =
      { severity, message, span
        code := (extras.filterMap Extra.code?).getLast?
        position := (extras.filterMap Extra.position?).getLast?
        notes := extras.filterMap Extra.note?
        help := (extras.filterMap Extra.help?).getLast? } := by
  induction extras using List.reverseRecOn with
  | nil => cases severity <;> rfl
  | append_singleton extras extra ih =>
    rw [build, List.foldl_append, ← build, ih]
    cases extra <;> simp [add, withCode, atPosition, withNote, withHelp, Extra.code?, Extra.position?,
      Extra.note?, Extra.help?]

def ShowsInOrder : List String → List Char → Prop
  | [], _ => True
  | part :: parts, text =>
    ∃ before after, text = before ++ part.toList ++ after ∧ ShowsInOrder parts after

theorem showsInOrder_of_length_le {text : String} {parts : List String} (h : parts.length ≤ 1)
    (hlast : ∀ part, parts.getLast? = some part → Shows text part) :
    ShowsInOrder parts text.toList := by
  match parts, h with
  | [], _ => trivial
  | [part], _ =>
    obtain ⟨before, after, htext⟩ := hlast part rfl
    exact ⟨before, after, htext.symm, trivial⟩

section Report

variable {ρ : Type} {R : Renderer ρ} {view : ρ → Sheet} {draw : Drawing}
  (hdraws : R.Draws view draw) {filename source : String} {d : Diagnostic}

include hdraws in
theorem renderToString_last_note (hspan : d.span.start ≤ d.span.stop) :
    { d with notes := d.notes.getLast?.toList }.renderToString R filename source =
      d.renderToString R filename source := by
  have hlast : d.notes.getLast?.toList.getLast? = d.notes.getLast? := by
    cases d.notes.getLast? <;> rfl
  have houtline : { d with notes := d.notes.getLast?.toList }.outline filename = d.outline filename := by
    rw [outline, hlast]
    rfl
  rw [hdraws.renderToString_eq (d := { d with notes := d.notes.getLast?.toList }) hspan,
    hdraws.renderToString_eq hspan, houtline]

theorem shows_bare {ps : List Piece} (hps : ∀ p ∈ ps, Unescaped p.text) {part : String}
    (h : ∃ p ∈ ps, Shows p.text part) (colours : Bool) (label : Option Colour) :
    Shows (Terminal.bare (paintAll colours label ps)) part := by
  obtain ⟨p, hp, hshows⟩ := h
  obtain ⟨before, after, hpieces⟩ := List.append_of_mem hp
  refine hshows.trans ?_
  rw [Terminal.bare_paintAll hps, String.toList_join]
  exact ⟨before.flatMap (·.text.toList), after.flatMap (·.text.toList), by
    simp [hpieces, List.flatMap_map]⟩

end Report

/-- The report of a diagnostic contains its message and its code, and if the label can be drawn on the
source, which it can wherever a span in range has no characters of several bytes to count, the last help
and the last note. It is the same report that the diagnostic has with the last note only; so no note is
lost if there is at most one, and all but the last one are otherwise. -/
theorem report_shows_last_note {ρ : Type} {R : Renderer ρ} {view : ρ → Sheet} {draw : Drawing}
    (hdraws : R.Draws view draw) (hadds : draw.AddsNoEscapes) (hshows : draw.ShowsParts)
    (severity : Severity) (message : String) {span : Span} (hspan : span.start ≤ span.stop)
    (extras : List Extra) {filename source : String} (hfilename : Unescaped filename)
    (hsource : Unescaped source) (hline : OneLine source)
    (hplain : (build severity message span extras).Plain) :
    let d := build severity message span extras
    let text := Terminal.bare (d.renderToString R filename source)
    let notes := extras.filterMap Extra.note?
    Shows text message ∧
    (∀ code, (extras.filterMap Extra.code?).getLast? = some code → Shows text code.name) ∧
    ((d.label filename).Inside source →
      (∀ help, (extras.filterMap Extra.help?).getLast? = some help → Shows text help) ∧
      (∀ note, notes.getLast? = some note → Shows text note) ∧
      (notes.length ≤ 1 → ShowsInOrder notes text.toList)) ∧
    { d with notes := notes.getLast?.toList }.renderToString R filename source =
      d.renderToString R filename source ∧
    (source ≠ "" → (∀ c ∈ source.toList, c.utf8Size = 1) → span.stop.toNat ≤ source.utf8ByteSize →
      (d.label filename).Inside source) := by
  intro d text notes
  have hd : d = build severity message span extras := rfl
  rw [build_eq] at hd
  have hnotes : d.notes = notes := by rw [hd]
  have hsame : d.span = span := by rw [hd]
  have hclean : ∀ p ∈ draw (d.outline filename) source, Unescaped p.text :=
    hadds _ _ (hplain.outline hfilename) hsource
  have htext : text = Terminal.bare
      (paintAll false (some d.severity.colour) (draw (d.outline filename) source)) := by
    rw [← hdraws.renderToString_eq (hsame ▸ hspan)]
  have hpart (part : String) (h : ∃ p ∈ draw (d.outline filename) source, Shows p.text part) :
      Shows text part := htext ▸ shows_bare hclean h ..
  have hlast (hinside : (d.label filename).Inside source) :
      ∀ note, notes.getLast? = some note → Shows text note := fun note hnote => by
    rw [← hnotes] at hnote
    exact hpart note (hshows.note (d.outline filename) hline rfl hinside hnote)
  refine ⟨hpart message ?_, fun code hcode => hpart code.name ?_,
    fun hinside => ⟨fun help hhelp => hpart help ?_, hlast hinside,
      fun hone => showsInOrder_of_length_le hone (hlast hinside)⟩, ?_,
    fun hnonempty hbytes hstop => ?_⟩
  · exact hshows.message (d.outline filename) source (by rw [outline, hd])
  · exact hshows.code (d.outline filename) source (by simp [outline, hd, hcode])
  · exact hshows.help (d.outline filename) hline rfl hinside (by rw [outline, hd, hhelp])
  · rw [← hnotes]
    exact renderToString_last_note hdraws (hsame ▸ hspan)
  · refine ⟨hnonempty, UInt32.le_iff_toNat_le.mp (hsame ▸ hspan), ?_⟩
    rwa [label, hsame, ← utf8Len_eq_length_iff.mpr hbytes, String.utf8Len_toList]

theorem report_shows_last_note_one :
    let R := (labelledExcerpt columnWidth).renderer
    let extras : List Extra := [.help "unroll less", .code .typeMismatch, .position 1,
      .note "argument 2", .help "round the bound"]
    let d := build .error "no integer" ⟨11, 14⟩ extras
    let text := Terminal.bare (d.renderToString R "kernel" "ndrange(4, 1.5)")
    Unescaped "kernel" ∧ Unescaped "ndrange(4, 1.5)" ∧ OneLine "ndrange(4, 1.5)" ∧ d.Plain ∧
      (d.label "kernel").Inside "ndrange(4, 1.5)" ∧ Shows text "no integer" ∧
      Shows text "TypeMismatch" ∧ Shows text "round the bound" ∧
      ShowsInOrder ["argument 2"] text.toList := by
  intro R extras d text
  have hd : d.Plain := ⟨by decide, by decide, by decide⟩
  obtain ⟨hmessage, hcode, hdrawn, -, hfits⟩ := report_shows_last_note
    (labelledExcerpt columnWidth).renderer_draws Report.labelledExcerpt_addsNoEscapes
    Report.labelledExcerpt_showsParts .error "no integer" (by decide : (⟨11, 14⟩ : Span).start ≤ 14)
    extras (by decide : Unescaped "kernel") (by decide : Unescaped "ndrange(4, 1.5)") (by decide) hd
  have hinside := hfits (by decide) (utf8Len_eq_length_iff.mp (by decide)) (by decide)
  obtain ⟨hhelp, -, hnotes⟩ := hdrawn hinside
  have hnote : extras.filterMap Extra.note? = ["argument 2"] := rfl
  rw [hnote] at hnotes
  exact ⟨by decide, by decide, by decide, hd, hinside, hmessage, hcode .typeMismatch rfl,
    hhelp "round the bound" rfl, hnotes (by decide)⟩

/-- Of two notes only the last one is in the report. -/
theorem report_loses_first_note :
    let R := (labelledExcerpt columnWidth).renderer
    let extras : List Extra := [.note "the first axis", .note "the second axis"]
    let d := build .error "no integer" ⟨11, 14⟩ extras
    let text := Terminal.bare (d.renderToString R "kernel" "ndrange(4, 1.5)")
    d.Plain ∧ Unescaped "kernel" ∧ Unescaped "ndrange(4, 1.5)" ∧ OneLine "ndrange(4, 1.5)" ∧
      d.span.slice? "ndrange(4, 1.5)" = some "1.5" ∧ d.notes = ["the first axis", "the second axis"] ∧
      ¬Shows text "the first axis" ∧ Shows text "the second axis" ∧
      ¬ShowsInOrder d.notes text.toList := by
  intro R extras d text
  have hd : d.Plain := ⟨by decide, by decide, by decide⟩
  have hclean : ∀ p ∈ labelledExcerpt columnWidth (d.outline "kernel") "ndrange(4, 1.5)",
      Unescaped p.text :=
    Report.labelledExcerpt_addsNoEscapes _ _ (hd.outline (by decide)) (by decide)
  have hspan : d.span.start ≤ d.span.stop := by decide
  have htext : text = Terminal.bare (paintAll false (some d.severity.colour)
      (labelledExcerpt columnWidth (d.outline "kernel") "ndrange(4, 1.5)")) := by
    rw [← (labelledExcerpt columnWidth).renderer_draws.renderToString_eq hspan]
  have hinside : (d.label "kernel").Inside "ndrange(4, 1.5)" := ⟨by decide, by decide, by decide⟩
  have hparts : (labelledExcerpt columnWidth).ShowsParts := Report.labelledExcerpt_showsParts
  have hlast := hparts.note (d.outline "kernel") (by decide : OneLine "ndrange(4, 1.5)") rfl hinside
    (by decide : (d.outline "kernel").note = some "the second axis")
  have hlost : ¬Shows text "the first axis" := by
    intro h
    have hletter : 'f' ∉ text.toList := by
      rw [htext, Terminal.bare_paintAll hclean, String.toList_join]
      decide +kernel
    exact hletter (h.subset (by decide))
  refine ⟨hd, by decide, by decide, by decide, by decide, rfl, hlost, ?_, ?_⟩
  · exact htext ▸ shows_bare hclean hlast ..
  · rintro ⟨before, after, hbefore, -⟩
    exact hlost ⟨before, after, hbefore.symm⟩

end Diagnostic

end LoopNest
