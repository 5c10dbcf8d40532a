import LoopNest.Diagnostic.Report

/-!
A renderer that draws a report as a labelled excerpt of a source of one line:

  [Code] Error: message
     ╭─[file:1:9]
     │
   1 │ source
     │    ──┬──
     │      ╰──── message
     │
     │ Help: text
  ───╯

A drawing is a list of pieces, each with the ink it is drawn in. The offsets of a label count the
characters of the source. How many columns of the terminal a character takes is a parameter.
-/

namespace LoopNest

structure Outline where
  severity : Severity
  filename : String
  offset : Nat
  message : Option String := none
  label : Option Label := none
  code : Option String := none
  note : Option String := none
  help : Option String := none

inductive Ink where
  /-- A colour of the report itself, which can be turned off. -/
  | own (colour : Option Colour)
  /-- The colour of the label. -/
  | label
deriving DecidableEq, Repr

inductive Part where
  /-- The name of the file with line and column of the report's offset. -/
  | place
  /-- The character of an index. -/
  | source (index : Nat)
  | other
deriving DecidableEq, Repr

structure Piece where
  part : Part
  ink : Ink
  text : String
deriving DecidableEq, Repr

abbrev Drawing := Outline → String → List Piece

/-- The colour of an ink, where the colours of the report itself may be off. -/
def Ink.colour (colours : Bool) (label : Option Colour) : Ink → Option Colour
  | own colour => if colours then colour else none
  | .label => label

/-- A coloured text stands between an escape sequence and the one that resets the colour. -/
def paint (colour : Option Colour) (text : String) : String :=
  match colour with
  | some c => "\x1b[" ++ c.code ++ "m" ++ text ++ "\x1b[0m"
  | none => text

def paintAll (colours : Bool) (label : Option Colour) (ps : List Piece) : String :=
  String.join (ps.map fun p => paint (p.ink.colour colours label) p.text)

namespace Label

def Covers (label : Label) (index : Nat) : Prop := label.start ≤ index ∧ index < label.stop

instance (label : Label) (index : Nat) : Decidable (label.Covers index) :=
  inferInstanceAs (Decidable (_ ∧ _))

def middle (label : Label) : Nat := (label.start + label.stop) / 2

def rowColumns (label : Label) : List Nat := List.range (label.stop + 2)

inductive Fit where
  /-- The label starts or ends past the source. -/
  | outside
  /-- The label ends one character past the source. -/
  | overhanging
  | inside
deriving DecidableEq, Repr

def fit (label : Label) (length : Nat) : Fit :=
  if length = 0 ∨ length < label.start ∨ (label.start < label.stop ∧ length < label.stop - 1) then
    .outside
  else if length < label.stop then .overhanging
  else .inside

end Label

namespace Report

def inked (ink : Ink) (text : String) : Piece := ⟨.other, ink, text⟩

def plain (text : String) : Piece := inked (.own none) text

def tinted (colour : Colour) (text : String) : Piece := inked (.own (some colour)) text

def labelled (text : String) : Piece := inked .label text

def newline : Piece := plain "\n"

def space : Piece := plain " "

def margin (text : String) : Piece := tinted (.fixed 246) text

def continuation : List Piece := [space, tinted (.fixed 240) "  │", space]

def tabWidth : Nat := 4

section Excerpt

variable (width : Char → Nat) (label : Label) (chars : List Char)

/-- How a character is drawn, and on how many columns. White space is drawn as spaces, a tab up to the
next stop. -/
def cell (c : Char) (index : Nat) : Char × Nat :=
  if c = '\t' then (' ', tabWidth - index % tabWidth)
  else if isBlank c then (' ', 1)
  else (c, width c)

def widthAt (index : Nat) : Nat :=
  match chars[index]? with
  | some c => (cell width c index).2
  | none => 1

def mark (columns : Nat) (first rest : Piece) : List Piece :=
  match columns with
  | 0 => []
  | n + 1 => first :: List.replicate n rest

/-- What underlines a character. An empty label has a bar in place of a line. -/
def underlineAt (index : Nat) : List Piece :=
  let columns := widthAt width chars index
  if index = label.middle then
    if label.start < label.stop then mark columns (labelled "┬") (labelled "─")
    else mark columns (labelled "│") (labelled " ")
  else if label.Covers index then mark columns (labelled "─") (labelled "─")
  else mark columns space space

def arrowAt (index : Nat) : List Piece :=
  let columns := widthAt width chars index
  if index < label.middle then mark columns space space
  else if index = label.middle then mark columns (labelled "╰") (labelled "─")
  else mark columns (labelled "─") (labelled "─")

def sourceInk (index : Nat) : Ink :=
  if label.Covers index then .label else .own (some (.fixed 249))

def sourceAt : Char × Nat → List Piece
  | (char, index) =>
    let ink := sourceInk label index
    let (drawn, columns) := cell width char index
    if drawn = ' ' then List.replicate columns ⟨.source index, ink, " "⟩
    else [⟨.source index, ink, String.singleton drawn⟩]

def excerpt : List Piece :=
  [space, margin "1 │", space] ++ chars.zipIdx.flatMap (sourceAt width label) ++ [newline] ++
    continuation ++ label.rowColumns.flatMap (underlineAt width label chars) ++ [newline] ++
    continuation ++ label.rowColumns.flatMap (arrowAt width label chars) ++
    [plain (" " ++ label.message), newline]

end Excerpt

def adviceLines (word : String) (text : Option String) : List Piece :=
  match text with
  | none => []
  | some text =>
    continuation ++ [newline] ++ continuation ++
      [tinted (.fixed 115) word, plain (": " ++ text), newline]

def severityWord : Severity → String
  | .error => "Error:"
  | .warning => "Warning:"

def header (o : Outline) : List Piece :=
  let word := severityWord o.severity
  let kind := match o.code with
    | some code => "[" ++ code ++ "] " ++ word
    | none => word
  [tinted o.severity.colour kind, plain (" " ++ o.message.getD ""), newline]

def place (filename : String) (offset : Nat) : String :=
  filename ++ ":1:" ++ toString (offset + 1)

def location (o : Outline) : List Piece :=
  [plain "   ", margin "╭", margin "─", margin "[",
    ⟨.place, .own none, place o.filename o.offset⟩, margin "]", newline,
    plain "   ", margin "│", newline]

def closing (o : Outline) : List Piece :=
  adviceLines "Help" o.help ++ adviceLines "Note" o.note ++ [margin "───╯", newline]

def body (width : Char → Nat) (o : Outline) (label : Label) (chars : List Char) : List Piece :=
  match label.fit chars.length with
  | .outside => []
  | .overhanging => location o ++ (continuation ++ [newline]) ++ closing o
  | .inside => location o ++ excerpt width label (dropBlanksRight chars) ++ closing o

end Report

/-- A report with one label on a source of one line. -/
def labelledExcerpt (width : Char → Nat) : Drawing := fun o source =>
  Report.header o ++ match o.label with
    | some label => Report.body width o label source.toList
    | none => []

structure Sheet extends Outline where
  colours : Bool := true

/-- The renderer that draws so. Every call sets one part of the report. -/
def Drawing.renderer (draw : Drawing) : Renderer Sheet where
  build severity filename offset := { severity, filename, offset }
  withMessage sheet text := { sheet with message := some text }
  withLabel sheet label := { sheet with label := some label }
  withCode sheet text := { sheet with code := some text }
  withNote sheet text := { sheet with note := some text }
  withHelp sheet text := { sheet with help := some text }
  withColour sheet on := { sheet with colours := on }
  write sheet _ source :=
    some (paintAll sheet.colours (sheet.label.map Label.colour) (draw sheet.toOutline source))

end LoopNest
