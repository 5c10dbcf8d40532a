import LoopNest.Proofs.Bound.Exactness
import LoopNest.Proofs.Domain.Grammar

/-! Folding and evaluation. The standard folder knows exactly the bounds that read nothing and have
a value, and it gives that value; an accepted bound that reads nothing and does not fold overflows,
whatever it is evaluated with. So the message about a bound that does not fold names the cause. -/

namespace LoopNest

namespace Bound

theorem isDynamic_part {b part : Bound} (h : b.isDynamic = false) (hpart : part ∈ b.parts) :
    part.isDynamic = false := by
  induction b with
  | int literal => exact List.mem_singleton.mp hpart ▸ rfl
  | float value => exact List.mem_singleton.mp hpart ▸ rfl
  | param name kind => cases h
  | load field name kind index => cases h
  | arith op left right ihl ihr =>
    obtain ⟨hl, hr⟩ := Bool.or_eq_false_iff.mp h
    obtain hpart | hpart | rfl := mem_parts_arith.mp hpart
    · exact ihl hl hpart
    · exact ihr hr hpart
    · exact h

end Bound

/-- Evaluation fails, and the part that it names is too large for a word. -/
def Evaluator.Overflows (e : Evaluator) (b : Bound) : Prop :=
  ∃ part ∈ b.parts, ∃ n, e.eval b = .error (.boundOverflow part.text) ∧
    e.exactValue? part = some n ∧ ¬InWord n

def FoldError.messageWith (error : FoldError) (reason : String) : String :=
  s!"static range needs compile-time bounds, but `{error.bound.text}` {reason}"

section Folding

variable {b : Bound} {e : Evaluator}

theorem Evaluator.follows_of_not_isDynamic (h : b.isDynamic = false) : e.Follows b := by
  induction b with
  | int literal => exact follows_int literal
  | float value => exact follows_float value
  | param name kind => cases h
  | load field name kind index => cases h
  | arith op left right ihl ihr =>
    obtain ⟨hl, hr⟩ := Bool.or_eq_false_iff.mp h
    exact follows_arith (ihl hl) (ihr hr)

theorem Evaluator.overflow?_of_visitError? {visit : Visit} {error : LaunchError}
    (hstatic : visit.bound.isDynamic = false) (hfloat : ¬visit.bound.IsFloating)
    (h : e.visitError? visit = some error) : e.overflow? visit.bound = some error := by
  cases visit with
  | enter b => cases b <;> first | cases h | cases hstatic
  | leave b =>
    cases b with
    | int literal => exact h
    | float value => exact absurd trivial hfloat
    | param name kind => cases hstatic
    | load field name kind index => cases hstatic
    | arith op left right => exact h

theorem overflows_of_foldConstants_eq_none (hb : b.Acceptable) (hstatic : b.isDynamic = false)
    (hfold : foldConstants b = none) :
    e.Overflows b := by
  have hfollows := Evaluator.follows_of_not_isDynamic (e := e) hstatic
  rw [Evaluator.Follows] at hfollows
  cases heval : e.eval b with
  | ok v =>
    rw [foldConstants_of_eval hstatic heval] at hfold
    cases hfold
  | error error =>
    rw [heval] at hfollows
    -- The check that fails is one of a part that reads nothing, which can only be too large.
    obtain ⟨visit, hvisit, herror⟩ := List.exists_of_findSome?_eq_some hfollows
    have hpart := Bound.bound_mem_parts hvisit
    obtain ⟨n, hn, hword, rfl⟩ := Evaluator.overflow?_eq_some
      (Evaluator.overflow?_of_visitError? (Bound.isDynamic_part hstatic hpart) (hb _ hpart).1 herror)
    exact ⟨visit.bound, hpart, n, heval, hn, hword⟩

end Folding

namespace RangeDomain

theorem acceptable_of_ofArguments {args : List RangeArg} {d : RangeDomain}
    (h : ofArguments args = .ok d) : ∀ a ∈ d.axes, a.lower.Acceptable ∧ a.upper.Acceptable := by
  obtain ⟨hleaves, -, hdenotes⟩ := ofArguments_eq_ok h
  generalize RangeArg.flattenAll args = leaves at hleaves hdenotes
  generalize d.axes = axes at hdenotes ⊢
  induction hdenotes with
  | nil => simp
  | cons hleaf _ ih =>
    obtain ⟨hhead, hrest⟩ := List.forall_mem_cons.mp hleaves
    exact List.forall_mem_cons.mpr ⟨hleaf.acceptable hhead, ih hrest⟩

theorem acceptable_bound {args : List RangeArg} {d : RangeDomain} (h : ofArguments args = .ok d)
    {a : AxisRange} (ha : a ∈ d.axes) {b : Bound} (hb : b = a.lower ∨ b = a.upper) :
    b.Acceptable := by
  obtain ⟨hlower, hupper⟩ := acceptable_of_ofArguments h a ha
  obtain rfl | rfl := hb
  · exact hlower
  · exact hupper

variable {d : RangeDomain} {fold : Folder}

theorem foldStatic_eq_error {error : FoldError} (h : d.foldStatic fold = .error error) :
    ∃ a, d.axes[error.axis]? = some a ∧ (error.bound = a.lower ∨ error.bound = a.upper) ∧
      fold error.bound = none := by
  obtain ⟨k, b, hfirst, rfl⟩ := foldStatic_eq_error_iff.mp h
  obtain ⟨⟨a, ha, hb⟩, hnone⟩ := of_firstUnknown?_eq_some hfirst
  exact ⟨a, ha, hb, hnone⟩

theorem foldStatic_foldConstants_eq_ok_iff {e : Evaluator} {r : ResolvedDomain} :
    d.foldStatic foldConstants = .ok r ↔
      (∀ a ∈ d.axes, a.lower.isDynamic = false ∧ a.upper.isDynamic = false) ∧
        d.resolve e = .ok r := by
  rw [foldStatic_eq_ok_iff, resolve_eq_ok_iff, ← List.forall₂_and_left]
  simp only [foldConstants_eq_some_iff (e := e), and_and_and_comm]

/-- Folding and evaluation agree. A bound folds to a value exactly if it reads nothing and evaluates
to that value, with any arguments and any storage, and the same holds of whole domains. In an
accepted domain a bound that reads nothing and does not fold overflows somewhere, whatever it is
evaluated with; so the bound that a static range reports either has no value before launch or
overflows, and the message says which. -/
theorem folding_agrees_with_evaluation :
    (∀ (b : Bound) (e : Evaluator) (v : Int64),
      foldConstants b = some v ↔ b.isDynamic = false ∧ e.eval b = .ok v) ∧
    (∀ (d : RangeDomain) (e : Evaluator) (r : ResolvedDomain),
      d.foldStatic foldConstants = .ok r ↔
        (∀ a ∈ d.axes, a.lower.isDynamic = false ∧ a.upper.isDynamic = false) ∧
          d.resolve e = .ok r) ∧
    ∀ (args : List RangeArg) (d : RangeDomain), ofArguments args = .ok d →
      (∀ a ∈ d.axes, ∀ b, b = a.lower ∨ b = a.upper → b.isDynamic = false →
        foldConstants b = none → ∀ e : Evaluator, e.Overflows b) ∧
      ∀ error, d.foldStatic foldConstants = .error error →
        (error.bound.isDynamic = true →
          error.diagnostic.message = error.messageWith "is only known at run time" ∧
          ∀ v, Evaluator.eval (.ofArgs .empty .empty) error.bound ≠ .ok v) ∧
        (error.bound.isDynamic = false →
          error.diagnostic.message = error.messageWith "overflows a 64-bit integer" ∧
          ∀ e : Evaluator, e.Overflows error.bound) := by
  refine ⟨fun b e v => foldConstants_eq_some_iff, fun d e r => foldStatic_foldConstants_eq_ok_iff,
    fun args d hd => ⟨fun a ha b hb hstatic hfold e => ?_, fun error herror => ?_⟩⟩
  · exact overflows_of_foldConstants_eq_none (acceptable_bound hd ha hb) hstatic hfold
  · obtain ⟨a, ha, hbound, hfold⟩ := foldStatic_eq_error herror
    refine ⟨fun hdynamic => ⟨?_, eval_ne_ok_of_isDynamic hdynamic⟩, fun hstatic => ⟨?_, fun e => ?_⟩⟩
    · rw [FoldError.diagnostic, hdynamic]
      rfl
    · rw [FoldError.diagnostic, hstatic]
      rfl
    · have hmem := List.mem_of_getElem? ha
      exact overflows_of_foldConstants_eq_none (acceptable_bound hd hmem hbound) hstatic hfold

theorem folding_agrees_with_evaluation_inner_overflow :
    let sum : Bound := .arith .add (.ofInt64 9223372036854775807) (.ofInt64 1)
    let args : List RangeArg :=
      [.seq [.arith .sub sum (.ofInt64 1), .param "n" (.int .i32)]]
    ∃ d error, ofArguments args = .ok d ∧ d.foldStatic foldConstants = .error error ∧
      error.bound = .arith .sub sum (.ofInt64 1) ∧
      error.diagnostic.message = error.messageWith "overflows a 64-bit integer" ∧
      ∀ e : Evaluator, e.Overflows error.bound := by
  intro sum args
  obtain ⟨d, error, hd, herror, hbound⟩ : ∃ d error, ofArguments args = .ok d ∧
      d.foldStatic foldConstants = .error error ∧
      error.bound = .arith .sub sum (.ofInt64 1) := ⟨_, _, rfl, rfl, rfl⟩
  have hstatic : error.bound.isDynamic = false := hbound ▸ rfl
  obtain ⟨hmessage, hoverflows⟩ :=
    ((folding_agrees_with_evaluation.2.2 args d hd).2 error herror).2 hstatic
  exact ⟨d, error, hd, herror, hbound, hmessage, hoverflows⟩

end RangeDomain

end LoopNest
