import LoopNest.Loop.Basic
import LoopNest.Script.Run

/-!
Sessions: an execution context together with the kernel arguments and the loops that scripts run
on. Arguments and loops outlive a restart of the context. Whatever a body stored before a fault
stays in the storage.
-/

namespace LoopNest

structure Session where
  context : ExecutionContext
  args : KernelArgs
  loops : List (String × NamedLoop)

inductive DefinitionError where
  | domain (error : DomainError)
  | header (error : HeaderError)

def DefinitionError.diagnostic : DefinitionError → Diagnostic
  | domain error => error.diagnostic
  | header error => error.diagnostic

structure Outcome (ε α : Type) where
  result : Except ε α
  log : Array LogEntry

namespace Session

def start (settings : LaunchSettings) (registry : Registry)
    (bindings : List (String × ScalarValue)) : Session :=
  ⟨⟨settings, registry⟩, KernelArgs.empty.setAll bindings, []⟩

def registry (s : Session) : Registry := s.context.registry

def withRegistry (s : Session) (registry : Registry) : Session :=
  { s with context := { s.context with registry := registry } }

def restart (s : Session) (settings : LaunchSettings) : Session :=
  { s with context := ⟨settings, s.registry⟩ }

def bind (s : Session) (bindings : List (String × ScalarValue)) : Session :=
  { s with args := s.args.setAll bindings }

def rebind (s : Session) (bindings : List (String × ScalarValue)) : Session :=
  { s with args := KernelArgs.empty.setAll bindings }

def setInt? (s : Session) (field : FieldId) (role : BufferRole) (index element : List Int64)
    (value : Int64) : Option (Except AccessFault Session) :=
  (s.registry.setInt? field role index element value).map fun r => r.map s.withRegistry

def setFloat? (s : Session) (field : FieldId) (role : BufferRole) (index element : List Int64)
    (value : Binary64) : Option (Except AccessFault Session) :=
  (s.registry.setFloat? field role index element value).map fun r => r.map s.withRegistry

def clearGradients (s : Session) : Session × ClearStats :=
  let (registry, stats) := s.registry.clearGradients .depthFirst
  (s.withRegistry registry, stats)

def keep (s : Session) (name : String) (l : NamedLoop) : Session :=
  { s with loops := (name, l) :: s.loops }

/-- Keeps a loop under a name. With a header that does not compile the loop can still be unrolled;
a call without a domain leaves the name as it was. -/
def define (s : Session) (name : String) (args : List RangeArg) (targets : Option LoopTargets) :
    Except DefinitionError NamedLoop × Session :=
  match RangeDomain.ofArguments args with
  | .error error => (.error (.domain error), s)
  | .ok domain =>
    let l := RangeLoop.ofTargets domain targets
    match l.compile with
    | .error error => (.error (.header error), s.keep name ⟨l, none⟩)
    | .ok compiled => (.ok ⟨l, some compiled⟩, s.keep name ⟨l, some compiled⟩)

def loop? (s : Session) (name : String) : Option NamedLoop := s.loops.lookup name

def compiled? (s : Session) (name : String) : Option CompiledLoop :=
  (s.loop? name).bind NamedLoop.compiled

def env (s : Session) : KernelEnv := ⟨s.context.settings, s.args, s.loops⟩

def evaluator (s : Session) (arityWarnings : Option Bool) : Evaluator :=
  let e := s.context.evaluator s.args
  { e with arityWarnings := arityWarnings.getD e.arityWarnings }

def resolve (s : Session) (l : CompiledLoop) : Except LaunchError ResolvedDomain :=
  l.domain.resolve (s.evaluator none)

def plan (s : Session) (l : CompiledLoop) : Except LaunchError DispatchPlan :=
  l.plan (s.evaluator none)

def kernelState (s : Session) : KernelState := ⟨s.registry, #[]⟩

def finish {ε α : Type} (s : Session) : Except ε α × KernelState → Outcome ε α × Session
  | (result, state) => (⟨result, state.log⟩, s.withRegistry state.registry)

def launch (s : Session) (l : CompiledLoop) (body : List Statement) :
    Outcome LaunchError LaunchReport × Session :=
  s.finish (s.context.launch l s.args (kernelBody s.env body) s.kernelState)

def serial (s : Session) (l : CompiledLoop) (e : Evaluator) (body : List Statement) :
    Outcome KernelFault LaunchReport × Session :=
  s.finish (l.forEachSerial e (kernelBody s.env body) s.kernelState)

def unrolled (s : Session) (copies : StaticLoop) (body : List Statement) :
    Outcome KernelFault Unit × Session :=
  s.finish (copies.forEach (kernelBody s.env body) s.kernelState)

/-- Whether the log of a launch shows in which order the bodies ran. Several workers stop at a fault
in no particular order, so the log of a failed launch means nothing then. -/
def LogIsOrdered (s : Session) (outcome : Outcome LaunchError LaunchReport) : Prop :=
  outcome.result.isOk ∨ s.context.workers ≤ 1

instance (s : Session) (outcome : Outcome LaunchError LaunchReport) :
    Decidable (s.LogIsOrdered outcome) :=
  inferInstanceAs (Decidable (_ ∨ _))

end Session

end LoopNest
