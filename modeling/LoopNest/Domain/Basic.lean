import LoopNest.Bound.Eval
import LoopNest.Diagnostic.Basic
import LoopNest.Domain.CallSite
import LoopNest.Domain.Resolved

/-!
Range domains: the checked axes of a call. Every leaf must be a scalar or a pair of integer bounds,
and there must be one to eight of them; the first malformed leaf is reported before the count. A
domain resolves at launch, or folds beforehand if all its bounds are known.
-/

namespace LoopNest

structure AxisRange where
  lower : Bound
  upper : Bound

inductive ArgumentFault where
  | components (count : Nat)
  | notInteger (bound : Bound)
  | tooLarge (literal : IntLiteral)

inductive DomainError where
  | argument (source : String) (origin : AxisOrigin) (fault : ArgumentFault)
  | noAxes (source : String)
  | tooManyAxes (source : String) (count : Nat)

structure RangeDomain where
  axes : List AxisRange
  callSite : CallSite

/-- A bound that is not known before launch, at one axis of a call. -/
structure FoldError where
  site : CallSite
  axis : Nat
  bound : Bound

namespace DomainError

def shapeMessage : String :=
  "Every argument of ndrange should be a scalar or a tuple/list like (begin, end)"

def typeMessage : String :=
  "Every argument of ndrange should be an integer scalar or a tuple/list of (int, int)"

/-- Arguments are counted from one in notes. -/
def argumentDiagnostic (source : String) (origin : AxisOrigin) (fault : ArgumentFault) :
    Diagnostic :=
  let number := origin.position + 1
  let typeError (note : String) : Diagnostic :=
    (Diagnostic.error typeMessage origin.span).withCode .typeMismatch
      |>.atPosition origin.position
      |>.withNote s!"argument {number}: {note}"
  match fault with
  | .components count =>
    let text := (origin.span.slice? source).getD ""
    (Diagnostic.error shapeMessage origin.span).withCode .shapeError
      |>.atPosition origin.position
      |>.withNote s!"argument {number} `{text}` has {count} components"
  | .notInteger bound => typeError s!"`{bound.text}` is not an integer"
  | .tooLarge literal => typeError s!"`{literal.text}` does not fit in a signed 64-bit bound"

def diagnostic : DomainError → Diagnostic
  | argument source origin fault => argumentDiagnostic source origin fault
  | noAxes source =>
    (Diagnostic.error "ndrange needs at least one axis" (.whole source)).withCode .shapeError
  | tooManyAxes source count =>
    (Diagnostic.error s!"ndrange has {count} axes, at most {maxRank} are supported"
      (.whole source)).withCode .shapeError

end DomainError

def FoldError.diagnostic (e : FoldError) : Diagnostic :=
  let origin := e.site.axisOrigin e.axis
  let reason := if e.bound.isDynamic then "is only known at run time" else "overflows a 64-bit integer"
  (Diagnostic.error
      s!"static range needs compile-time bounds, but `{e.bound.text}` {reason}" origin.span)
    |>.withCode .compileTimeValueRequired
    |>.atPosition origin.position
    |>.withNote s!"axis {e.axis} of `{e.site.source}`"
    |>.withHelp "use a literal bound, or drop the static expansion"

def Bound.check (b : Bound) : Except ArgumentFault Unit :=
  if b.isIntegral then
    match b.unrepresentable? with
    | some literal => .error (.tooLarge literal)
    | none => .ok ()
  else .error (.notInteger b)

def LeafArg.axis : LeafArg → Except ArgumentFault AxisRange
  | scalar upper => do
    upper.check
    return ⟨.int .zero, upper⟩
  | seq [lower, upper] => do
    lower.check
    upper.check
    return ⟨lower, upper⟩
  | seq items => .error (.components items.length)

namespace RangeDomain

def rank (d : RangeDomain) : Nat := d.axes.length

def axisOfLeaf (source : String) (leaf : Leaf) : Except DomainError AxisRange :=
  leaf.arg.axis.mapError (.argument source leaf.origin)

def ofArguments (args : List RangeArg) : Except DomainError RangeDomain := do
  let site := CallSite.render args
  let leaves := RangeArg.leaves args
  let axes ← leaves.mapM (axisOfLeaf site.source)
  if axes.isEmpty then .error (.noAxes site.source)
  else if maxRank < axes.length then .error (.tooManyAxes site.source axes.length)
  else return ⟨axes, { site with axes := leaves.map Leaf.origin }⟩

def isStatic (d : RangeDomain) (fold : Folder) : Bool :=
  d.axes.all fun a => (fold a.lower).isSome && (fold a.upper).isSome

def resolveAxis (e : Evaluator) (a : AxisRange) : Except LaunchError ResolvedAxis := do
  let lower ← e.eval a.lower
  let upper ← e.eval a.upper
  return ⟨lower, upper⟩

def resolve (d : RangeDomain) (e : Evaluator) : Except LaunchError ResolvedDomain := do
  return ⟨← d.axes.mapM (resolveAxis e)⟩

def foldBound (fold : Folder) (site : CallSite) (axis : Nat) (bound : Bound) :
    Except FoldError Int64 :=
  match fold bound with
  | some v => .ok v
  | none => .error ⟨site, axis, bound⟩

def foldAxis (fold : Folder) (site : CallSite) : AxisRange × Nat → Except FoldError ResolvedAxis
  | (a, axis) => do
    let lower ← foldBound fold site axis a.lower
    let upper ← foldBound fold site axis a.upper
    return ⟨lower, upper⟩

/-- The bounds before launch, or the first bound that the folder does not know. -/
def foldStatic (d : RangeDomain) (fold : Folder) : Except FoldError ResolvedDomain := do
  return ⟨← d.axes.zipIdx.mapM (foldAxis fold d.callSite)⟩

end RangeDomain

end LoopNest
