import LoopNest.Storage.Buffer

/-!
Failures at launch time, each with its cause, and the fault with which a kernel body stops.
-/

namespace LoopNest

structure KernelFault where
  message : String
  /-- Whether the whole run ends with it, not only the launch. -/
  aborts : Bool := false
deriving DecidableEq, Repr

def missingBuffer : KernelFault := { message := "no such field" }

inductive LaunchError where
  | missingParam (name : String)
  /-- The text of the bound. -/
  | nonIntegral (bound : String)
  | boundOverflow (bound : String)
  | unknownField (name : String)
  | boundLoad (field : String) (cause : AccessFault)
  | domainOverflow (sizes : List UInt64)
  | rank (rank : Nat)
  | fault (flat : UInt64) (cause : KernelFault)
deriving DecidableEq

def LaunchError.message : LaunchError → String
  | .missingParam name => s!"kernel parameter '{name}' was not supplied"
  | .nonIntegral bound => s!"bound `{bound}` is not an integer"
  | .boundOverflow bound => s!"bound `{bound}` overflows a 64-bit integer"
  | .unknownField name => s!"field '{name}' is not in the storage registry"
  | .boundLoad field cause => s!"loading bound from '{field}': {cause.message}"
  | .domainOverflow sizes =>
    s!"domain of sizes {bracketed sizes} has more iterations than fit in 64 bits"
  | .rank n => s!"domain rank {n} is outside 1..=8"
  | .fault flat cause => s!"kernel fault at flat index {flat}: {cause.message}"

def LaunchError.aborts : LaunchError → Bool
  | .boundLoad _ cause => cause.aborts
  | .fault _ cause => cause.aborts
  | _ => false

/-- Inside a body a failed launch or a failed access is an ordinary fault. -/
def LaunchError.toFault (e : LaunchError) : KernelFault := ⟨e.message, e.aborts⟩

def AccessFault.toFault (e : AccessFault) : KernelFault := ⟨e.message, e.aborts⟩

end LoopNest
