import LoopNest.Proofs.Diagnostic.Excerpt
import LoopNest.Text.Width

/-! The colours of a report. With and without them it shows the same text; without them it is that text
itself exactly if nothing is drawn in the colour of the label. -/

namespace LoopNest

/-- Whether some piece is drawn in the colour of the label. -/
def HasLabel (ps : List Piece) : Prop := ∃ p ∈ ps, p.ink = .label

instance (ps : List Piece) : Decidable (HasLabel ps) :=
  inferInstanceAs (Decidable (∃ p ∈ ps, p.ink = .label))

section Uncoloured

variable {ps : List Piece} {colour : Colour}

theorem paintAll_of_not_hasLabel (h : ¬HasLabel ps) :
    paintAll false (some colour) ps = String.join (ps.map Piece.text) := by
  rw [paintAll]
  congr 1
  refine List.map_congr_left fun p hp => ?_
  cases hink : p.ink with
  | own _ => rfl
  | label => exact absurd ⟨p, hp, hink⟩ h

theorem not_unescaped_paintAll (h : HasLabel ps) : ¬Unescaped (paintAll false (some colour) ps) := by
  obtain ⟨p, hp, hink⟩ := h
  rw [Unescaped, not_not, paintAll, String.toList_join, List.mem_flatMap]
  refine ⟨_, List.mem_map_of_mem hp, ?_⟩
  simp [hink, Ink.colour, paint, escape]

theorem unescaped_join (h : ∀ p ∈ ps, Unescaped p.text) :
    Unescaped (String.join (ps.map Piece.text)) := by
  simp only [Unescaped, String.toList_join, List.mem_flatMap, List.mem_map]
  rintro ⟨_, ⟨p, hp, rfl⟩, hmem⟩
  exact h p hp hmem

end Uncoloured

namespace Diagnostic

theorem bare_renderAll {ρ : Type} {R : Renderer ρ} {view : ρ → Sheet} {draw : Drawing}
    (hdraws : R.Draws view draw) {filename source : String} {d : Diagnostic}
    (hspan : d.span.start ≤ d.span.stop)
    (hclean : ∀ p ∈ draw (d.outline filename) source, Unescaped p.text) :
    Terminal.bare (renderAll R filename source [d]) =
      String.join ((draw (d.outline filename) source).map Piece.text) := by
  have hsingle : renderAll R filename source [d] = d.render R filename source := by
    simp [renderAll, String.join]
  rw [hsingle, hdraws.render_eq hspan, Terminal.bare_paintAll hclean]

/-- A diagnostic rendered by itself and among others shows the same text, and by itself only what is in
the colour of the label has one. It has none, and then is the very text that is left of the other one
without its escape sequences, exactly if nothing of the label is drawn; a label on a character that is
drawn is. -/
theorem plain_text_keeps_label_colour {ρ : Type} {R : Renderer ρ} {view : ρ → Sheet} {draw : Drawing}
    (hdraws : R.Draws view draw) (hadds : draw.AddsNoEscapes) (hcounts : draw.CountsCharacters)
    {filename source : String} {d : Diagnostic} (hfilename : Unescaped filename)
    (hsource : Unescaped source) (hline : OneLine source) (hd : d.Plain)
    (hspan : d.span.start ≤ d.span.stop) :
    let plain := d.renderToString R filename source
    let colourful := renderAll R filename source [d]
    Terminal.bare plain = Terminal.bare colourful ∧
    (∀ glyph ∈ Terminal.shown plain,
      glyph.1 = none ∨ glyph.1 = some d.severity.colour.code) ∧
    (Unescaped plain ∧ plain = Terminal.bare colourful ↔
      ¬HasLabel (draw (d.outline filename) source)) ∧
    ((d.label filename).Inside source → ∀ index < (dropBlanksRight source.toList).length,
      (d.label filename).Covers index → ¬Unescaped plain) := by
  intro plain colourful
  have hclean : ∀ p ∈ draw (d.outline filename) source, Unescaped p.text :=
    hadds _ _ (hd.outline hfilename) hsource
  have hplain : plain = paintAll false (some d.severity.colour) (draw (d.outline filename) source) :=
    hdraws.renderToString_eq hspan
  have hcolourful : Terminal.bare colourful =
      String.join ((draw (d.outline filename) source).map Piece.text) :=
    bare_renderAll hdraws hspan hclean
  refine ⟨?_, fun glyph hglyph => ?_, ⟨?_, fun hlabel => ?_⟩, fun hinside index hindex hcovers => ?_⟩
  · rw [hcolourful, hplain, Terminal.bare_paintAll hclean]
  · rw [hplain, Terminal.shown_paintAll hclean] at hglyph
    obtain ⟨p, -, hp⟩ := List.mem_flatMap.mp hglyph
    obtain ⟨_, -, rfl⟩ := List.mem_map.mp hp
    cases p.ink with
    | own _ => exact .inl rfl
    | label => exact .inr rfl
  · rintro ⟨hfree, -⟩ hlabel
    exact not_unescaped_paintAll hlabel (hplain ▸ hfree)
  · have hsame : plain = String.join ((draw (d.outline filename) source).map Piece.text) := by
      rw [hplain, paintAll_of_not_hasLabel hlabel]
    rw [hcolourful, hsame]
    exact ⟨unescaped_join hclean, rfl⟩
  · obtain ⟨p, hp, -, hink⟩ := hcounts.highlights (d.outline filename) hline rfl hinside hcovers hindex
    rw [hplain]
    exact not_unescaped_paintAll ⟨p, hp, hink⟩

theorem plain_text_keeps_label_colour_two :
    let R := (labelledExcerpt columnWidth).renderer
    let warning := (Diagnostic.warning "two variables" ⟨8, 9⟩).withCode .arityWarning |>.withNote "a"
    let error := Diagnostic.error "no axis" ⟨2, 2⟩
    (warning.Plain ∧ warning.span.start ≤ warning.span.stop ∧
      Terminal.bare (warning.renderToString R "kernel" "ndrange(x)") =
        Terminal.bare (renderAll R "kernel" "ndrange(x)" [warning]) ∧
      ¬Unescaped (warning.renderToString R "kernel" "ndrange(x)")) ∧
    error.Plain ∧ error.span.start ≤ error.span.stop ∧
      Unescaped (error.renderToString R "kernel" "λ") ∧
      error.renderToString R "kernel" "λ" = Terminal.bare (renderAll R "kernel" "λ" [error]) := by
  intro R warning error
  have hdraws := (labelledExcerpt columnWidth).renderer_draws
  have hcounts : (labelledExcerpt columnWidth).CountsCharacters := Report.labelledExcerpt_countsCharacters
  have hadds : (labelledExcerpt columnWidth).AddsNoEscapes := Report.labelledExcerpt_addsNoEscapes
  have hwarning : warning.Plain := ⟨by decide, by decide, by decide⟩
  have herror : error.Plain := ⟨by decide, by decide, by decide⟩
  obtain ⟨hsame, -, -, hdrawn⟩ := plain_text_keeps_label_colour hdraws hadds hcounts
    (by decide : Unescaped "kernel") (by decide : Unescaped "ndrange(x)") (by decide) hwarning
    (by decide)
  obtain ⟨-, -, hescapes, -⟩ := plain_text_keeps_label_colour hdraws hadds hcounts
    (by decide : Unescaped "kernel") (by decide : Unescaped "λ") (by decide) herror (by decide)
  obtain ⟨hfree, htext⟩ := hescapes.mpr (by decide)
  have hcolour := hdrawn ⟨by decide, by decide, by decide⟩ 8 (by decide) (by decide)
  exact ⟨⟨hwarning, by decide, hsame, hcolour⟩, herror, by decide, hfree, htext⟩

/-- The text of an error under one character is not without colours. -/
theorem plain_text_has_colour :
    let R := (labelledExcerpt columnWidth).renderer
    let d := Diagnostic.error "bad axis" ⟨8, 9⟩
    d.Plain ∧ Unescaped "kernel" ∧ Unescaped "ndrange(4)" ∧ OneLine "ndrange(4)" ∧
      d.span.slice? "ndrange(4)" = some "4" ∧
      ¬Unescaped (d.renderToString R "kernel" "ndrange(4)") ∧
      d.renderToString R "kernel" "ndrange(4)" ≠
        Terminal.bare (renderAll R "kernel" "ndrange(4)" [d]) := by
  intro R d
  have hd : d.Plain := ⟨by decide, by decide, by decide⟩
  have hdraws := (labelledExcerpt columnWidth).renderer_draws
  have hspan : d.span.start ≤ d.span.stop := by decide
  have hclean : ∀ p ∈ labelledExcerpt columnWidth (d.outline "kernel") "ndrange(4)",
      Unescaped p.text :=
    Report.labelledExcerpt_addsNoEscapes _ _ (hd.outline (by decide)) (by decide)
  have hlabel : HasLabel (labelledExcerpt columnWidth (d.outline "kernel") "ndrange(4)") := by
    decide
  have hcolour : ¬Unescaped (d.renderToString R "kernel" "ndrange(4)") := by
    rw [hdraws.renderToString_eq hspan]
    exact not_unescaped_paintAll hlabel
  refine ⟨hd, by decide, by decide, by decide, by decide, hcolour, fun hsame => hcolour ?_⟩
  rw [hsame, bare_renderAll hdraws hspan hclean]
  exact unescaped_join hclean

end Diagnostic

end LoopNest
