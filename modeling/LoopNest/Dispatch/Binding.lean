import LoopNest.GroupedIndex

/-!
Loop headers: how the axes of a domain are distributed over the loop variables. A header binds one
variable per axis, or fewer, and then the last one takes the remaining axes as a group; or it binds
all axes as one grouped index.
-/

namespace LoopNest

inductive LoopTargets where
  | grouped
  | vars (count : Nat)
deriving DecidableEq, Repr

inductive LoopVar where
  | scalar (value : Int64)
  | grouped (index : GroupedIndex)
deriving DecidableEq

def LoopVar.scalar? : LoopVar → Option Int64
  | scalar value => some value
  | grouped _ => none

def LoopVar.toList : LoopVar → List Int64
  | scalar value => [value]
  | grouped index => index.toList

structure AxisGroup where
  start : Nat
  stop : Nat
deriving DecidableEq, Repr

structure Binding where
  /-- The axes of each variable, in order. -/
  groups : List AxisGroup
  /-- Whether a variable of a single axis is grouped too. -/
  grouped : Bool
deriving DecidableEq, Repr

namespace Binding

def whole (rank : Nat) : Binding := ⟨[⟨0, rank⟩], true⟩

/-- One axis per variable but the last, which takes the rest. There is no such binding for no
variables or for more variables than axes. -/
def ofVars? (count rank : Nat) : Option Binding :=
  if count = 0 ∨ rank < count then none
  else some ⟨(List.range (count - 1)).map (fun k => ⟨k, k + 1⟩) ++ [⟨count - 1, rank⟩], false⟩

def varCount (b : Binding) : Nat := b.groups.length

theorem ofVars?_isSome_iff {count rank : Nat} :
    (ofVars? count rank).isSome ↔ 0 < count ∧ count ≤ rank := by
  unfold ofVars?
  split <;> simp <;> omega

theorem varCount_of_ofVars?_eq_some {count rank : Nat} {b : Binding}
    (h : ofVars? count rank = some b) : b.varCount = count := by
  unfold ofVars? at h
  split at h
  · cases h
  · cases h
    simp [varCount]
    omega

def bind? (b : Binding) (k : Nat) (index : GroupedIndex) : Option LoopVar := do
  let group ← b.groups[k]?
  if !b.grouped && group.stop == group.start + 1 then
    .scalar <$> index.get? group.start
  else
    .grouped <$> index.slice? group.start group.stop

end Binding

structure Iteration where
  flat : UInt64
  index : GroupedIndex
  binding : Binding
deriving DecidableEq

namespace Iteration

def var? (it : Iteration) (k : Nat) : Option LoopVar := it.binding.bind? k it.index

def scalar? (it : Iteration) (k : Nat) : Option Int64 := (it.var? k).bind LoopVar.scalar?

def vars (it : Iteration) : List LoopVar := (List.range it.binding.varCount).filterMap it.var?

end Iteration

/-- A loop body. It may fault, and what it did to its state before the fault remains. -/
abbrev Body (σ ε : Type) := Iteration → σ → Except ε Unit × σ

end LoopNest
