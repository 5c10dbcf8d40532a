import LoopNest.Diagnostic.Basic

/-! Launch settings, their defaults, and what can be wrong with a settings file. -/

namespace LoopNest

structure LaunchSettings where
  /-- The number of workers; `none` leaves it to the machine. -/
  workers : Option UInt64 := none
  /-- The most copies that an unrolled loop may have. -/
  unrollLimit : UInt64 := 65536
  /-- Whether loops that bind fewer variables than axes report it. -/
  arityWarnings : Bool := true
deriving DecidableEq, Repr

def settingsFileName : String := "ndloop.toml"

inductive ReadFailure where
  | notFound | notDirectory | isDirectory | nameTooLong | nulInName | notText
deriving DecidableEq, Repr

def ReadFailure.message : ReadFailure → String
  | notFound => "No such file or directory (os error 2)"
  | notDirectory => "Not a directory (os error 20)"
  | isDirectory => "Is a directory (os error 21)"
  | nameTooLong => "File name too long (os error 36)"
  | nulInName => "file name contained an unexpected NUL byte"
  | notText => "stream did not contain valid UTF-8"

inductive SettingsError where
  | notCount (key value : String)
  | zeroWorkers
  | notFlag (key value : String)
  | unknownKey (key : String)
  | unreadable (path : String) (failure : ReadFailure)
deriving DecidableEq

/-- Settings errors point at no source and have no code. -/
def SettingsError.diagnostic : SettingsError → Diagnostic
  | notCount key value =>
    .error s!"'{key}' must be a non-negative integer, got '{value}'" .nowhere
  | zeroWorkers => .error "'workers' must be at least 1" .nowhere
  | notFlag key value => .error s!"'{key}' must be true or false, got '{value}'" .nowhere
  | unknownKey key =>
    (Diagnostic.error s!"unknown key '{key}' in [launch]" .nowhere).withHelp
      "known keys: workers, unroll_limit, arity_warnings"
  | unreadable path failure => .error s!"cannot read '{path}': {failure.message}" .nowhere

end LoopNest
