import LoopNest.Dispatch.Plan
import LoopNest.Domain.Basic
import LoopNest.Settings.Basic

/-!
Loops over a domain. A loop header is checked against the rank; a checked loop resolves its bounds
on every call and runs its body once per tuple. Each call reports once, unless it is told not to,
when fewer variables than axes are bound.

Execution contexts: settings and storage for launching loops. A launch plans against the storage as
it is at the start and ends with the first fault. Workers may run the indices in any order; here
they run in row-major order, which is one of the orders allowed.
-/

namespace LoopNest

structure RangeLoop where
  domain : RangeDomain
  targets : LoopTargets

structure HeaderError where
  source : String
  vars : Nat
  rank : Nat
deriving DecidableEq

def HeaderError.diagnostic (e : HeaderError) : Diagnostic :=
  (Diagnostic.error
      s!"{e.vars} loop variables cannot iterate `{e.source}` of rank {e.rank}" (.whole e.source))
    |>.withCode .shapeError
    |>.withHelp "bind between 1 and the domain rank loop variables"

def arityWarning (source : String) (vars rank : Nat) : Diagnostic :=
  (Diagnostic.warning
      ("Ndrange for loop with number of the loop variables not equal to the dimension " ++
        s!"of the ndrange is deprecated ({vars} variables, {rank} axes)") (.whole source))
    |>.withCode .arityWarning
    |>.withHelp "bind one loop variable per axis, or iterate a grouped index instead"

structure CompiledLoop where
  domain : RangeDomain
  binding : Binding
  arityWarning : Option Diagnostic

namespace RangeLoop

def ofDomain (domain : RangeDomain) : RangeLoop := ⟨domain, .vars domain.rank⟩

def grouped (domain : RangeDomain) : RangeLoop := ⟨domain, .grouped⟩

/-- A header that may be left out, and then has one variable per axis. -/
def ofTargets (domain : RangeDomain) (targets : Option LoopTargets) : RangeLoop :=
  match targets with
  | some targets => ⟨domain, targets⟩
  | none => ofDomain domain

def compile (l : RangeLoop) : Except HeaderError CompiledLoop :=
  let source := l.domain.callSite.source
  let rank := l.domain.rank
  match l.targets with
  | .grouped => .ok ⟨l.domain, .whole rank, none⟩
  | .vars count =>
    match Binding.ofVars? count rank with
    | none => .error ⟨source, count, rank⟩
    | some binding =>
      .ok ⟨l.domain, binding, if count < rank then some (arityWarning source count rank) else none⟩

end RangeLoop

structure LaunchReport where
  iterations : UInt64
  warnings : List Diagnostic
deriving DecidableEq

namespace CompiledLoop

variable {σ : Type}

def plan (l : CompiledLoop) (e : Evaluator) : Except LaunchError DispatchPlan := do
  DispatchPlan.ofDomain (← l.domain.resolve e)

def warnings (l : CompiledLoop) (enabled : Bool) : List Diagnostic :=
  if enabled then l.arityWarning.toList else []

def report (l : CompiledLoop) (p : DispatchPlan) (enabled : Bool) : LaunchReport :=
  ⟨p.total, l.warnings enabled⟩

/-- Runs the loop in row-major order, for loops nested in the body of another. Failures to plan
become faults with the same text. -/
def forEachSerial (l : CompiledLoop) (e : Evaluator) (body : Body σ KernelFault) (s : σ) :
    Except KernelFault LaunchReport × σ :=
  match l.plan e with
  | .error error => (.error error.toFault, s)
  | .ok p =>
    match p.run l.binding body s with
    | (.ok (), s) => (.ok (l.report p e.arityWarnings), s)
    | (.error (_, fault), s) => (.error fault, s)

end CompiledLoop

structure ExecutionContext where
  settings : LaunchSettings
  registry : Registry

namespace ExecutionContext

variable {σ : Type}

def evaluator (c : ExecutionContext) (args : KernelArgs) : Evaluator :=
  ⟨args, c.registry, c.settings.arityWarnings⟩

def workers (c : ExecutionContext) : UInt64 := c.settings.workers.getD 1

def launch (c : ExecutionContext) (l : CompiledLoop) (args : KernelArgs)
    (body : Body σ KernelFault) (s : σ) : Except LaunchError LaunchReport × σ :=
  match l.plan (c.evaluator args) with
  | .error error => (.error error, s)
  | .ok p =>
    match p.run l.binding body s with
    | (.ok (), s) => (.ok (l.report p c.settings.arityWarnings), s)
    | (.error (flat, fault), s) => (.error (.fault flat fault), s)

end ExecutionContext

end LoopNest
