import LoopNest.Diagnostic.Drawing
import LoopNest.Proofs.Text.Slices
import LoopNest.Proofs.Text.Terminal

/-! What is relied on of a renderer. What a builder has been told can be read back as a sheet, on which
every call sets one part, and what is written is a drawing of that sheet in colours. Three things are
asked of a drawing: that it counts characters, that it adds no escape sequences, and that it shows the
parts it is given. -/

namespace LoopNest

/-- The seven characters that end a line. -/
def isLineBreak (c : Char) : Bool :=
  let n := c.toNat
  (0xA ≤ n && n ≤ 0xD) || n == 0x85 || n == 0x2028 || n == 0x2029

def OneLine (text : String) : Prop := ∀ c ∈ text.toList, isLineBreak c = false

instance (text : String) : Decidable (OneLine text) :=
  List.decidableBAll (isLineBreak · = false) text.toList

def Unescaped (text : String) : Prop := escape ∉ text.toList

instance (text : String) : Decidable (Unescaped text) := inferInstanceAs (Decidable (¬_))

theorem unescaped_append {a b : String} : Unescaped (a ++ b) ↔ Unescaped a ∧ Unescaped b := by
  simp [Unescaped, not_or]

theorem unescaped_toString (n : Nat) : Unescaped (toString n) := by
  intro h
  rw [Nat.toString_eq_repr, Nat.toList_repr] at h
  exact absurd (Nat.isDigit_of_mem_toDigits (by decide) (by decide) h) (by decide)

theorem unescaped_name (code : DiagnosticCode) : Unescaped code.name := by
  cases code <;> decide

def Shows (text part : String) : Prop := part.toList <:+: text.toList

instance (text part : String) : Decidable (Shows text part) :=
  inferInstanceAs (Decidable (_ <:+: _))

/-- Whether the characters of the label are characters of the source. -/
structure Label.Inside (label : Label) (source : String) : Prop where
  nonempty : source ≠ ""
  start_le : label.start ≤ label.stop
  stop_le : label.stop ≤ source.toList.length

structure Outline.Plain (o : Outline) : Prop where
  filename : Unescaped o.filename
  message : ∀ text ∈ o.message, Unescaped text
  label : ∀ label ∈ o.label, Unescaped label.message
  code : ∀ text ∈ o.code, Unescaped text
  note : ∀ text ∈ o.note, Unescaped text
  help : ∀ text ∈ o.help, Unescaped text

/-- The renderer writes the drawing of what it has been told. A label may not end before it starts. -/
structure Renderer.Draws {ρ : Type} (R : Renderer ρ) (view : ρ → Sheet) (draw : Drawing) : Prop where
  build (severity : Severity) (filename : String) (offset : Nat) :
    view (R.build severity filename offset) = { severity, filename, offset }
  withMessage (b : ρ) (text : String) :
    view (R.withMessage b text) = { view b with message := some text }
  withLabel (b : ρ) (label : Label) (first : (view b).label = none) :
    view (R.withLabel b label) = { view b with label := some label }
  withCode (b : ρ) (text : String) : view (R.withCode b text) = { view b with code := some text }
  /-- A note takes the place of the one set before. -/
  withNote (b : ρ) (text : String) : view (R.withNote b text) = { view b with note := some text }
  withHelp (b : ρ) (text : String) : view (R.withHelp b text) = { view b with help := some text }
  withColour (b : ρ) (on : Bool) : view (R.withColour b on) = { view b with colours := on }
  /-- Turning the colours off leaves that of the label. -/
  write (b : ρ) (label : Label) (filename source : String) (labelled : (view b).label = some label)
    (order : label.start ≤ label.stop) (about : (view b).filename = filename)
    (file : label.filename = filename) :
    R.write b filename source =
      some (paintAll (view b).colours (some label.colour) (draw (view b).toOutline source))

namespace Drawing

variable (draw : Drawing)

def Highlights (o : Outline) (source : String) (index : Nat) : Prop :=
  ∃ p ∈ draw o source, p.part = .source index ∧ p.ink = .label

def Depicts (text : String) (c : Char) : Prop :=
  text = String.singleton c ∨ (isBlank c ∧ text = " ")

/-- Places and labels count the characters of a source of one line, where white space at the end is not
drawn. -/
structure CountsCharacters : Prop where
  place (o : Outline) {source : String} (line : OneLine source) {p : Piece} (drawn : p ∈ draw o source)
    (part : p.part = .place) : p.text = Report.place o.filename o.offset
  exists_place (o : Outline) {source : String} (line : OneLine source) {label : Label}
    (labelled : o.label = some label) (inside : label.Inside source)
    (offset : o.offset ≤ source.toList.length) : ∃ p ∈ draw o source, p.part = .place
  depicts (o : Outline) {source : String} (line : OneLine source) {p : Piece}
    (drawn : p ∈ draw o source) {index : Nat} (part : p.part = .source index) :
    ∃ c, source.toList[index]? = some c ∧ Depicts p.text c
  covers (o : Outline) {source : String} (line : OneLine source) {label : Label}
    (labelled : o.label = some label) {index : Nat} (highlight : draw.Highlights o source index) :
    label.Inside source ∧ label.Covers index
  highlights (o : Outline) {source : String} (line : OneLine source) {label : Label}
    (labelled : o.label = some label) (inside : label.Inside source) {index : Nat}
    (covered : label.Covers index) (drawn : index < (dropBlanksRight source.toList).length) :
    draw.Highlights o source index

/-- The texts of a report hold the only escape sequences besides those of the colours. -/
def AddsNoEscapes : Prop :=
  ∀ (o : Outline) (source : String), o.Plain → Unescaped source →
    ∀ p ∈ draw o source, Unescaped p.text

/-- Message and code are drawn, and help and note wherever the label can be. -/
structure ShowsParts : Prop where
  message (o : Outline) (source : String) {text : String} (given : o.message = some text) :
    ∃ p ∈ draw o source, Shows p.text text
  code (o : Outline) (source : String) {text : String} (given : o.code = some text) :
    ∃ p ∈ draw o source, Shows p.text text
  note (o : Outline) {source : String} (line : OneLine source) {label : Label}
    (labelled : o.label = some label) (inside : label.Inside source) {text : String}
    (given : o.note = some text) : ∃ p ∈ draw o source, Shows p.text text
  help (o : Outline) {source : String} (line : OneLine source) {label : Label}
    (labelled : o.label = some label) (inside : label.Inside source) {text : String}
    (given : o.help = some text) : ∃ p ∈ draw o source, Shows p.text text

theorem renderer_draws : draw.renderer.Draws id draw where
  build _ _ _ := rfl
  withMessage _ _ := rfl
  withLabel _ _ _ := rfl
  withCode _ _ := rfl
  withNote _ _ := rfl
  withHelp _ _ := rfl
  withColour _ _ := rfl
  write sheet label _ _ labelled _ _ _ := by
    replace labelled : sheet.label = some label := labelled
    simp only [renderer, labelled, Option.map_some, id]

end Drawing

theorem Colour.legible (colour : Colour) : 'm' ∉ colour.code.toList ∧ colour.code ≠ "0" := by
  cases colour with
  | red | yellow => decide
  | fixed index =>
    have hdigit : Char.isDigit 'm' = false := rfl
    refine ⟨fun h => ?_, fun h => ?_⟩
    · rw [code, String.toList_append, List.mem_append, Nat.toString_eq_repr, Nat.toList_repr] at h
      obtain h | h := h
      · exact absurd h (by decide)
      · rw [Nat.isDigit_of_mem_toDigits (by decide) (by decide) h] at hdigit
        cases hdigit
    · have hlength := congrArg (·.toList.length) h
      simp [code] at hlength

namespace Terminal

theorem glyphs_paint {text : String} (h : Unescaped text) (colour : Option Colour) (rest : List Char) :
    glyphs none ((paint colour text).toList ++ rest) =
      text.toList.map (colour.map Colour.code, ·) ++ glyphs none rest := by
  cases colour with
  | none => exact glyphs_append h none rest
  | some colour =>
    obtain ⟨hletter, hreset⟩ := colour.legible
    have hcode : colour.code.toList ≠ ['0'] := fun heq => hreset (String.toList_inj.mp heq)
    have hpaint : (paint (some colour) text).toList ++ rest =
        '\x1b' :: '[' :: (colour.code.toList ++ 'm' ::
          (text.toList ++ '\x1b' :: '[' :: (['0'] ++ 'm' :: rest))) := by
      simp [paint]
    rw [hpaint, glyphs, sequence_append hletter, List.nil_append, if_neg hcode, glyphs_append h,
      glyphs, sequence_append (by decide)]
    simp

variable {ps : List Piece} (hps : ∀ p ∈ ps, Unescaped p.text) (colours : Bool) (label : Option Colour)
include hps

theorem shown_paintAll :
    shown (paintAll colours label ps) =
      ps.flatMap fun p => p.text.toList.map ((p.ink.colour colours label).map Colour.code, ·) := by
  rw [shown, paintAll, String.toList_join, List.flatMap_map]
  induction ps with
  | nil => rfl
  | cons p ps ih =>
    obtain ⟨hp, hps⟩ := List.forall_mem_cons.mp hps
    rw [List.flatMap_cons, glyphs_paint hp, ih hps, List.flatMap_cons]

theorem bare_paintAll : bare (paintAll colours label ps) = String.join (ps.map Piece.text) := by
  rw [bare, shown_paintAll hps, ← String.toList_inj, String.toList_ofList, String.toList_join,
    List.map_flatMap, List.flatMap_map]
  simp [Function.comp_def]

end Terminal

namespace Diagnostic

structure Plain (d : Diagnostic) : Prop where
  message : Unescaped d.message
  notes : ∀ note ∈ d.notes, Unescaped note
  help : ∀ help ∈ d.help, Unescaped help

/-- What a report of the diagnostic consists of. Of its notes it has the last one. -/
def outline (filename : String) (d : Diagnostic) : Outline where
  severity := d.severity
  filename := filename
  offset := d.span.start.toNat
  message := some d.message
  label := some (d.label filename)
  code := d.code.map DiagnosticCode.name
  note := d.notes.getLast?
  help := d.help

theorem Plain.outline {filename : String} {d : Diagnostic} (h : d.Plain)
    (hfilename : Unescaped filename) : (d.outline filename).Plain where
  filename := hfilename
  message := by rintro _ ⟨⟩; exact h.message
  label := by rintro _ ⟨⟩; exact h.message
  code := by
    rintro _ hcode
    obtain ⟨code, -, rfl⟩ := Option.map_eq_some_iff.mp hcode
    exact unescaped_name code
  note note hnote := h.notes note (List.mem_of_getLast? hnote)
  help := h.help

end Diagnostic

namespace Renderer.Draws

variable {ρ : Type} {R : Renderer ρ} {view : ρ → Sheet} {draw : Drawing} (h : R.Draws view draw)
include h

theorem view_foldl_withNote (notes : List String) (b : ρ) :
    view (notes.foldl R.withNote b) =
      { view b with note := notes.getLast?.or (view b).note } := by
  induction notes generalizing b with
  | nil => rfl
  | cons note notes ih =>
    rw [List.foldl_cons, ih, h.withNote, List.getLast?_cons]
    cases notes.getLast? <;> rfl

theorem view_report (filename : String) (d : Diagnostic) :
    view (d.report R filename) = { toOutline := d.outline filename } := by
  have hnote : d.notes.getLast?.or none = d.notes.getLast? := Option.or_none
  have hstart := h.withMessage (R.build d.severity filename d.span.start.toNat) d.message
  rw [h.build] at hstart
  have hlabel := h.withLabel _ (d.label filename) (by rw [hstart])
  rw [hstart] at hlabel
  rw [Diagnostic.report, Diagnostic.outline]
  cases d.code <;> cases d.help <;>
    simp only [h.withHelp, h.view_foldl_withNote, h.withCode, hlabel, hnote, Option.map]

variable {filename source : String} {d : Diagnostic} (hspan : d.span.start ≤ d.span.stop)
include hspan

theorem render_eq :
    d.render R filename source =
      paintAll true (some d.severity.colour) (draw (d.outline filename) source) := by
  have hview := h.view_report filename d
  have hwrite := h.write (d.report R filename) (d.label filename) filename source (by rw [hview]; rfl)
    (UInt32.le_iff_toNat_le.mp hspan) (by rw [hview]; rfl) rfl
  rw [Diagnostic.render, hwrite, hview]
  rfl

theorem renderToString_eq :
    d.renderToString R filename source =
      paintAll false (some d.severity.colour) (draw (d.outline filename) source) := by
  have hview : view (R.withColour (d.report R filename) false) =
      { toOutline := d.outline filename, colours := false } := by
    rw [h.withColour, h.view_report]
  have hwrite := h.write (R.withColour (d.report R filename) false) (d.label filename) filename source
    (by rw [hview]; rfl) (UInt32.le_iff_toNat_le.mp hspan) (by rw [hview]; rfl) rfl
  rw [Diagnostic.renderToString, hwrite, hview]
  rfl

end Renderer.Draws

end LoopNest
