import LoopNest.Text.Basic

/-!
Diagnostics: errors and warnings about a range call, with the place they point at.
-/

namespace LoopNest

inductive Severity where
  | error | warning
deriving DecidableEq, Repr

inductive DiagnosticCode where
  /-- A wrong component count, rank or number of loop variables. -/
  | shapeError
  /-- A bound that is no 64-bit integer. -/
  | typeMismatch
  /-- Fewer loop variables than axes; never fatal. -/
  | arityWarning
  /-- An unrolled loop met a bound that only exists at run time. -/
  | compileTimeValueRequired
  /-- An unrolled loop would have too many copies. -/
  | unrollLimit
deriving DecidableEq, Repr

def DiagnosticCode.name : DiagnosticCode → String
  | shapeError => "ShapeError"
  | typeMismatch => "TypeMismatch"
  | arityWarning => "ArityWarning"
  | compileTimeValueRequired => "CompileTimeValueRequired"
  | unrollLimit => "UnrollLimit"

structure Diagnostic where
  severity : Severity
  code : Option DiagnosticCode := none
  message : String
  span : Span
  /-- The call argument at fault, counted from zero. -/
  position : Option Nat := none
  notes : List String := []
  help : Option String := none
deriving DecidableEq

namespace Diagnostic

def error (message : String) (span : Span) : Diagnostic :=
  { severity := .error, message, span }

def warning (message : String) (span : Span) : Diagnostic :=
  { severity := .warning, message, span }

def withCode (d : Diagnostic) (code : DiagnosticCode) : Diagnostic := { d with code := some code }

def atPosition (d : Diagnostic) (position : Nat) : Diagnostic := { d with position := some position }

def withNote (d : Diagnostic) (note : String) : Diagnostic := { d with notes := d.notes ++ [note] }

def withHelp (d : Diagnostic) (help : String) : Diagnostic := { d with help := some help }

def isError (d : Diagnostic) : Bool := d.severity == .error

def summary (d : Diagnostic) : String :=
  match d.code with
  | some code => s!"[{code.name}] {d.message}"
  | none => d.message

end Diagnostic

end LoopNest
