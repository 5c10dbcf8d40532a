import LoopNest.Loop.Basic
import LoopNest.Domain.Resolved
import LoopNest.Settings.Basic

/-!
Unrolling a loop whose bounds are all known beforehand: one body copy per tuple. The header is
checked first, then the bounds from left to right, then the number of copies. A call and its header
can also be checked without running the loop; there is at most one diagnostic about them.
-/

namespace LoopNest

/-- A loop as the list of its tuples. -/
structure StaticLoop where
  tuples : Array GroupedIndex
  binding : Binding
  arityWarning : Option Diagnostic

inductive UnrollError where
  | header (error : HeaderError)
  | unknownBound (error : FoldError)
  | limit (source : String) (copies : UInt64) (sizes : List UInt64)

def UnrollError.diagnostic : UnrollError → Diagnostic
  | .header error => error.diagnostic
  | .unknownBound error => error.diagnostic
  | .limit source copies sizes =>
    (Diagnostic.error
        s!"static expansion of `{source}` exceeds the unroll limit of {copies} copies"
        (.whole source))
      |>.withCode .unrollLimit
      |>.withNote s!"axis sizes: {bracketed sizes}"
      |>.withHelp "raise `unroll_limit` in ndloop.toml or use a runtime loop"

namespace RangeLoop

def withinLimit (d : ResolvedDomain) (limit : UInt64) : Bool :=
  match d.total? with
  | some total => total ≤ limit
  | none => false

def unroll (l : RangeLoop) (fold : Folder) (settings : LaunchSettings) :
    Except UnrollError StaticLoop := do
  let compiled ← l.compile.mapError .header
  let resolved ← (l.domain.foldStatic fold).mapError .unknownBound
  if withinLimit resolved settings.unrollLimit then
    return {
      tuples := resolved.tuples
      binding := compiled.binding
      arityWarning := (compiled.warnings settings.arityWarnings).head? }
  else
    .error (.limit l.domain.callSite.source settings.unrollLimit resolved.sizes)

end RangeLoop

namespace StaticLoop

variable {σ ε : Type}

def size (l : StaticLoop) : Nat := l.tuples.size

def isEmpty (l : StaticLoop) : Bool := l.tuples.isEmpty

def iteration (l : StaticLoop) (tuple : GroupedIndex) (flat : Nat) : Iteration :=
  ⟨flat.toUInt64, tuple, l.binding⟩

def iterations (l : StaticLoop) : List Iteration :=
  l.tuples.toList.zipIdx.map fun (tuple, flat) => l.iteration tuple flat

def runAll (body : Body σ ε) : List Iteration → σ → Except ε Unit × σ
  | [], s => (.ok (), s)
  | it :: its, s =>
    match body it s with
    | (.ok (), s) => runAll body its s
    | (.error e, s) => (.error e, s)

def forEach (l : StaticLoop) (body : Body σ ε) (s : σ) : Except ε Unit × σ :=
  runAll body l.iterations s

end StaticLoop

inductive LoopUse where
  | launch
  | unroll (settings : LaunchSettings)

namespace RangeLoop

def diagnostic? (l : RangeLoop) : LoopUse → Option Diagnostic
  | .launch =>
    match l.compile with
    | .error error => some error.diagnostic
    | .ok compiled => compiled.arityWarning
  | .unroll settings =>
    match l.unroll foldConstants settings with
    | .error error => some error.diagnostic
    | .ok copies => copies.arityWarning

end RangeLoop

def diagnoseCall? (args : List RangeArg) (targets : Option LoopTargets) (use : LoopUse) :
    Option Diagnostic :=
  match RangeDomain.ofArguments args with
  | .error error => some error.diagnostic
  | .ok domain => (RangeLoop.ofTargets domain targets).diagnostic? use

end LoopNest
