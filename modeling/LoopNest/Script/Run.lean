import LoopNest.Bound.Basic
import LoopNest.Dispatch.Binding
import LoopNest.Loop.Unroll

/-!
Kernel scripts: loop bodies as data. A body is a list of statements that run once per iteration; an
expression reads the iteration of any enclosing loop, counted from the innermost, and the cells of
fields.

The state of a run is the storage and the log; both keep what was done before a fault. Loops inside
a body are planned against the storage as it is at that moment.
-/

namespace LoopNest

inductive KernelExpr where
  | const (value : Int64)
  /-- The flat index of an enclosing loop. -/
  | flat (level : Nat)
  /-- The sum of the index tuple. -/
  | sum (level : Nat)
  | axis (level axis : Nat)
  /-- A loop variable that is bound to a single axis. -/
  | var (level var : Nat)
  /-- Arithmetic modulo `2 ^ 64`. -/
  | arith (op : ArithOp) (left right : KernelExpr)
  | get (field : FieldId) (role : BufferRole) (index element : List KernelExpr)

inductive Statement where
  /-- Logs a list of values. -/
  | emit (values : List KernelExpr)
  /-- Logs the innermost iteration. -/
  | emitIteration
  /-- Stores a value, as a float if `asFloat` holds. -/
  | set (field : FieldId) (role : BufferRole) (index element : List KernelExpr)
      (value : KernelExpr) (asFloat : Bool)
  | faultIf (left right : KernelExpr) (message : String)
  /-- Runs a named loop inside the body and logs its report. -/
  | serial (loop : String) (body : List Statement)
  /-- Runs a loop over bounds computed from the enclosing iterations and logs its report. Without
  lower bounds the axes start at zero. -/
  | nest (lower : Option (List KernelExpr)) (upper : List KernelExpr)
      (targets : Option LoopTargets) (body : List Statement)
  /-- Runs the unrolled form of a named loop. -/
  | unrolled (loop : String) (body : List Statement)

inductive LogEntry where
  | values (values : List Int64)
  | iteration (it : Iteration)
  | report (report : LaunchReport)
deriving DecidableEq

structure KernelState where
  registry : Registry
  log : Array LogEntry

/-- A loop kept under a name. A header that does not compile leaves only the loop itself. -/
structure NamedLoop where
  loop : RangeLoop
  compiled : Option CompiledLoop

structure KernelEnv where
  settings : LaunchSettings
  args : KernelArgs
  loops : List (String × NamedLoop)

def KernelEnv.evaluator (env : KernelEnv) (registry : Registry) : Evaluator :=
  ⟨env.args, registry, env.settings.arityWarnings⟩

def KernelState.append (s : KernelState) (entry : LogEntry) : KernelState :=
  { s with log := s.log.push entry }

inductive Effect where
  | nothing
  | log (entry : LogEntry)
  | store (cell : CellAddress) (bits : UInt64)
deriving DecidableEq

def KernelState.apply (s : KernelState) : Effect → KernelState
  | .nothing => s
  | .log entry => s.append entry
  | .store cell bits => { s with registry := s.registry.setBits cell bits }

def Diagnostic.toFault (d : Diagnostic) : KernelFault := { message := d.summary }

def ArithOp.wrapping : ArithOp → Int64 → Int64 → Int64
  | add, a, b => a + b
  | sub, a, b => a - b
  | mul, a, b => a * b

def iterationAt (stack : List Iteration) (level : Nat) : Except KernelFault Iteration :=
  match stack[level]? with
  | some it => .ok it
  | none => .error { message := "no such level" }

def missingLoop : KernelFault := { message := "no such loop" }

namespace KernelExpr

def readCell (registry : Registry) (field : FieldId) (role : BufferRole)
    (index element : List Int64) : Except KernelFault Int64 :=
  match registry.buffer? field role with
  | some buffer => (buffer.getInt index element).mapError AccessFault.toFault
  | none => .error missingBuffer

mutual

def eval (registry : Registry) (stack : List Iteration) : KernelExpr → Except KernelFault Int64
  | .const value => .ok value
  | .flat level => do return (← iterationAt stack level).flat.toInt64
  | .sum level => do return (← iterationAt stack level).index.sum
  | .axis level k => do
    match (← iterationAt stack level).index.get? k with
    | some value => .ok value
    | none => .error { message := "no such axis" }
  | .var level k => do
    match (← iterationAt stack level).scalar? k with
    | some value => .ok value
    | none => .error { message := "not a scalar variable" }
  | .arith op left right => do
    let a ← left.eval registry stack
    let b ← right.eval registry stack
    return op.wrapping a b
  | .get field role index element => do
    let index ← evalAll registry stack index
    let element ← evalAll registry stack element
    readCell registry field role index element

def evalAll (registry : Registry) (stack : List Iteration) :
    List KernelExpr → Except KernelFault (List Int64)
  | [] => .ok []
  | e :: es => do
    let v ← e.eval registry stack
    let vs ← evalAll registry stack es
    return v :: vs

end

end KernelExpr

namespace Statement

def storeEffect (registry : Registry) (field : FieldId) (role : BufferRole)
    (index element : List Int64) (value : Int64) (asFloat : Bool) : Except KernelFault Effect :=
  match registry.locate? field role index element with
  | some (.ok cell) =>
    .ok (.store cell
      (if asFloat then cell.kind.encodeFloat (.ofInt value.toInt) else cell.kind.encodeInt value))
  | some (.error fault) => .error fault.toFault
  | none => .error missingBuffer

def nestedLoop (lower : Option (List Int64)) (upper : List Int64) (targets : Option LoopTargets) :
    Except KernelFault CompiledLoop := do
  let stops := GroupedIndex.ofListTruncated upper
  let arg := match lower with
    | some lower => RangeArg.between (.ofListTruncated lower) stops
    | none => RangeArg.ofGrouped stops
  let domain ← (RangeDomain.ofArguments [arg]).mapError (·.diagnostic.toFault)
  (RangeLoop.ofTargets domain targets).compile.mapError (·.diagnostic.toFault)

def nestBounds (registry : Registry) (stack : List Iteration) (lower : Option (List KernelExpr))
    (upper : List KernelExpr) : Except KernelFault (Option (List Int64) × List Int64) := do
  let upper ← KernelExpr.evalAll registry stack upper
  match lower with
  | some lower => return (some (← KernelExpr.evalAll registry stack lower), upper)
  | none => return (none, upper)

def logReport : Except KernelFault LaunchReport × KernelState → Except KernelFault Unit × KernelState
  | (.ok report, s) => (.ok (), s.append (.report report))
  | (.error fault, s) => (.error fault, s)

/-- What a statement that runs no loop does to the state, computed before anything is changed. -/
def effect (registry : Registry) (stack : List Iteration) : Statement → Except KernelFault Effect
  | .emit values => do return .log (.values (← KernelExpr.evalAll registry stack values))
  | .emitIteration => do return .log (.iteration (← iterationAt stack 0))
  | .set field role index element value asFloat => do
    let index ← KernelExpr.evalAll registry stack index
    let value ← value.eval registry stack
    let element ← KernelExpr.evalAll registry stack element
    storeEffect registry field role index element value asFloat
  | .faultIf left right message => do
    let a ← left.eval registry stack
    let b ← right.eval registry stack
    if a = b then .error { message } else return .nothing
  | .serial .. | .nest .. | .unrolled .. => .ok .nothing

mutual

def run (env : KernelEnv) (stack : List Iteration) (s : KernelState) :
    Statement → Except KernelFault Unit × KernelState
  | .serial name body =>
    match (env.loops.lookup name).bind NamedLoop.compiled with
    | none => (.error missingLoop, s)
    | some l =>
      logReport (l.forEachSerial (env.evaluator s.registry)
        (fun it s => runAll env (it :: stack) s body) s)
  | .nest lower upper targets body =>
    match (do
      let (lower, upper) ← nestBounds s.registry stack lower upper
      nestedLoop lower upper targets : Except KernelFault CompiledLoop) with
    | .error fault => (.error fault, s)
    | .ok l =>
      logReport (l.forEachSerial (env.evaluator s.registry)
        (fun it s => runAll env (it :: stack) s body) s)
  | .unrolled name body =>
    match env.loops.lookup name with
    | none => (.error missingLoop, s)
    | some l =>
      match l.loop.unroll foldConstants env.settings with
      | .error error => (.error error.diagnostic.toFault, s)
      | .ok copies => copies.forEach (fun it s => runAll env (it :: stack) s body) s
  | simple =>
    match simple.effect s.registry stack with
    | .ok effect => (.ok (), s.apply effect)
    | .error fault => (.error fault, s)

def runAll (env : KernelEnv) (stack : List Iteration) (s : KernelState) :
    List Statement → Except KernelFault Unit × KernelState
  | [] => (.ok (), s)
  | statement :: body =>
    match run env stack s statement with
    | (.ok (), s) => runAll env stack s body
    | (.error fault, s) => (.error fault, s)

end

end Statement

def kernelBody (env : KernelEnv) (body : List Statement) : Body KernelState KernelFault :=
  fun it s => Statement.runAll env [it] s body

end LoopNest
