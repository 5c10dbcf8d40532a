import LoopNest.Diagnostic.Basic

/-!
The report of a diagnostic. Reports are drawn by a library: the program tells a builder of that library
what the report consists of and has it written against the call that the diagnostic is about.
-/

namespace LoopNest

inductive Colour where
  | red | yellow
  | fixed (index : UInt8)
deriving DecidableEq, Repr

def Colour.code : Colour → String
  | red => "31"
  | yellow => "33"
  | fixed index => "38;5;" ++ toString index.toNat

def Severity.colour : Severity → Colour
  | error => .red
  | warning => .yellow

structure Label where
  filename : String
  start : Nat
  stop : Nat
  message : String
  colour : Colour
deriving DecidableEq, Repr

/-- What the program calls of the library. A builder is a `ρ`. -/
structure Renderer (ρ : Type) where
  /-- A report of a kind, about an offset of a file. -/
  build : Severity → String → Nat → ρ
  withMessage : ρ → String → ρ
  withLabel : ρ → Label → ρ
  withCode : ρ → String → ρ
  withNote : ρ → String → ρ
  withHelp : ρ → String → ρ
  /-- Turns the colours of the report on or off. -/
  withColour : ρ → Bool → ρ
  /-- The text of the report against the source of a file, or `none` when it cannot be written. -/
  write : ρ → String → String → Option String

namespace Diagnostic

def label (filename : String) (d : Diagnostic) : Label where
  filename := filename
  start := d.span.start.toNat
  stop := d.span.stop.toNat
  message := d.message
  colour := d.severity.colour

variable {ρ : Type} (R : Renderer ρ)

def report (filename : String) (d : Diagnostic) : ρ :=
  let started := R.withMessage (R.build d.severity filename d.span.start.toNat) d.message
  let labelled := R.withLabel started (d.label filename)
  let coded := match d.code with
    | some code => R.withCode labelled code.name
    | none => labelled
  let noted := d.notes.foldl R.withNote coded
  match d.help with
  | some help => R.withHelp noted help
  | none => noted

def render (filename source : String) (d : Diagnostic) : String :=
  (R.write (d.report R filename) filename source).getD ""

/-- A report that is meant for a text, with the colours turned off. -/
def renderToString (filename source : String) (d : Diagnostic) : String :=
  (R.write (R.withColour (d.report R filename) false) filename source).getD d.message

def renderAll (filename source : String) (ds : List Diagnostic) : String :=
  String.join (ds.map (render R filename source))

end Diagnostic

end LoopNest
