import LoopNest.Bound.Basic
import LoopNest.Launch.Error

/-!
Evaluation of bounds at launch time. Arithmetic is exact or fails; a field element counts with the
kind its buffer stores, whatever kind the bound declares. Operands are evaluated from the left, and
the first failure is the answer.
-/

namespace LoopNest

/-- Scalar kernel arguments by name. A later binding hides an earlier one. -/
structure KernelArgs where
  bindings : List (String × ScalarValue)
deriving DecidableEq

namespace KernelArgs

def empty : KernelArgs := ⟨[]⟩

def set (args : KernelArgs) (name : String) (value : ScalarValue) : KernelArgs :=
  ⟨(name, value) :: args.bindings⟩

def setAll (args : KernelArgs) (bindings : List (String × ScalarValue)) : KernelArgs :=
  bindings.foldl (fun args (name, value) => args.set name value) args

def get? (args : KernelArgs) (name : String) : Option ScalarValue := args.bindings.lookup name

@[simp]
theorem get?_empty (name : String) : empty.get? name = none := rfl

@[simp]
theorem get?_set_self (args : KernelArgs) (name : String) (value : ScalarValue) :
    (args.set name value).get? name = some value := by
  simp [get?, set]

theorem get?_set_of_ne (args : KernelArgs) {name other : String} (value : ScalarValue)
    (h : other ≠ name) : (args.set name value).get? other = args.get? other := by
  have : (other == name) = false := by simpa using h
  simp [get?, set, List.lookup_cons, this]

end KernelArgs

structure Evaluator where
  args : KernelArgs
  storage : Registry
  arityWarnings : Bool

namespace Evaluator

def ofArgs (args : KernelArgs) (storage : Registry) : Evaluator := ⟨args, storage, true⟩

def evalParam (e : Evaluator) (name : String) : Except LaunchError Int64 :=
  match e.args.get? name with
  | none => .error (.missingParam name)
  | some (.int literal) =>
    match literal.toInt64? with
    | some v => .ok v
    | none => .error (.boundOverflow name)
  | some (.float _) => .error (.nonIntegral name)

/-- Reads an element as a bound. A `u64` cell of `2 ^ 63` or more is a negative word and does not
fit. -/
def readElement (buffer : Buffer) (name bound : String) (index : List Int64) :
    Except LaunchError Int64 :=
  match buffer.getInt index [] with
  | .error fault => .error (.boundLoad name fault)
  | .ok v => if buffer.kind = .int .u64 ∧ v < 0 then .error (.boundOverflow bound) else .ok v

mutual

def eval (e : Evaluator) : Bound → Except LaunchError Int64
  | .int literal =>
    match literal.toInt64? with
    | some v => .ok v
    | none => .error (.boundOverflow (Bound.text (.int literal)))
  | .float value => .error (.nonIntegral (Bound.text (.float value)))
  | .param name _ => e.evalParam name
  | .load field name kind index =>
    let text := Bound.text (.load field name kind index)
    match e.storage.primary? field with
    | none => .error (.unknownField name)
    | some buffer =>
      if buffer.kind.isIntegral then do
        readElement buffer name text (← e.evalAll index)
      else .error (.nonIntegral text)
  | .arith op left right => do
    let a ← e.eval left
    let b ← e.eval right
    match op.checked? a b with
    | some v => .ok v
    | none => .error (.boundOverflow (Bound.text (.arith op left right)))

def evalAll (e : Evaluator) : List Bound → Except LaunchError (List Int64)
  | [] => .ok []
  | b :: bs => do
    let v ← e.eval b
    let vs ← e.evalAll bs
    return v :: vs

end

end Evaluator

end LoopNest
