import LoopNest.Bound.Basic
import LoopNest.Bound.Eval
import LoopNest.Loop.Basic
import LoopNest.Proofs.Bound.Parts
import LoopNest.Proofs.Failure

/-! Evaluation reads the arguments and the primary buffers, and nothing else of the storage. Folders
that never disagree with it: the standard one knows exactly the bounds that read nothing and have a
value. -/

namespace LoopNest

/-- The same arguments, and the same primary buffers for all fields. -/
structure Evaluator.Agrees (e e' : Evaluator) : Prop where
  args : e.args = e'.args
  primary : ∀ field, e.storage.primary? field = e'.storage.primary? field

namespace Evaluator

variable {e e' : Evaluator}

mutual

theorem Agrees.eval_eq (h : e.Agrees e') (b : Bound) : e.eval b = e'.eval b := by
  match b with
  | .int literal => simp only [eval]
  | .float value => simp only [eval]
  | .param name _ => simp only [eval, evalParam, h.args]
  | .load field name kind index => simp only [eval, h.primary, h.evalAll_eq index]
  | .arith op left right => simp only [eval, h.eval_eq left, h.eval_eq right]

theorem Agrees.evalAll_eq (h : e.Agrees e') (bs : List Bound) : e.evalAll bs = e'.evalAll bs := by
  match bs with
  | [] => simp only [evalAll]
  | b :: bs => simp only [evalAll, h.eval_eq b, h.evalAll_eq bs]

end

theorem Agrees.resolve_eq (h : e.Agrees e') (d : RangeDomain) : d.resolve e = d.resolve e' := by
  have haxis : RangeDomain.resolveAxis e = RangeDomain.resolveAxis e' := by
    funext a
    simp only [RangeDomain.resolveAxis, h.eval_eq]
  simp only [RangeDomain.resolve, haxis]

theorem Agrees.plan_eq (h : e.Agrees e') (l : CompiledLoop) : l.plan e = l.plan e' := by
  simp only [CompiledLoop.plan, h.resolve_eq]

end Evaluator

/-- Whatever the folder knows, evaluation gives the same value. -/
def Folder.SoundFor (fold : Folder) (e : Evaluator) : Prop :=
  ∀ b v, fold b = some v → e.eval b = .ok v

theorem foldConstants_soundFor (e : Evaluator) : Folder.SoundFor foldConstants e := by
  intro b
  fun_induction foldConstants b with
  | case1 literal =>
    intro v h
    rw [Evaluator.eval, h]
  | case2 => simp
  | case3 => simp
  | case4 => simp
  | case5 op left right ihl ihr =>
    intro v h
    simp only [Option.bind_eq_bind, Option.bind_eq_some_iff] at h
    obtain ⟨x, hx, y, hy, hv⟩ := h
    rw [Evaluator.eval, ihl x hx, ihr y hy]
    simp [Bind.bind, Except.bind, hv]

section Constants

variable {b : Bound} {e : Evaluator}

theorem foldConstants_of_eval {v : Int64} (h : b.isDynamic = false) (hv : e.eval b = .ok v) :
    foldConstants b = some v := by
  induction b generalizing v with
  | int literal =>
    rw [Evaluator.eval] at hv
    rw [foldConstants]
    split at hv
    · cases hv
      assumption
    · cases hv
  | float value =>
    rw [Evaluator.eval] at hv
    cases hv
  | param name kind => cases h
  | load field name kind index => cases h
  | arith op left right ihl ihr =>
    obtain ⟨hl, hr⟩ := Bool.or_eq_false_iff.mp h
    simp only [Evaluator.eval, bind_eq_ok_iff] at hv
    obtain ⟨x, hx, y, hy, hv⟩ := hv
    rw [foldConstants, ihl hl hx, ihr hr hy]
    split at hv
    · cases hv
      assumption
    · cases hv

theorem foldConstants_eq_some_iff {v : Int64} :
    foldConstants b = some v ↔ b.isDynamic = false ∧ e.eval b = .ok v :=
  ⟨fun h => ⟨isDynamic_of_foldConstants_eq_some h, foldConstants_soundFor e b v h⟩,
    fun ⟨h, hv⟩ => foldConstants_of_eval h hv⟩

theorem eval_ne_ok_of_isDynamic (h : b.isDynamic = true) (v : Int64) :
    Evaluator.eval (.ofArgs .empty .empty) b ≠ .ok v := by
  induction b generalizing v with
  | int literal => cases h
  | float value => cases h
  | param name kind =>
    rw [Evaluator.eval, Evaluator.evalParam]
    simp [Evaluator.ofArgs]
  | load field name kind index =>
    rw [Evaluator.eval, Evaluator.ofArgs]
    simp [Registry.primary?, Registry.buffer?, Registry.placement?, Registry.empty]
  | arith op left right ihl ihr =>
    intro hv
    simp only [Evaluator.eval, bind_eq_ok_iff] at hv
    obtain ⟨x, hx, y, hy, -⟩ := hv
    obtain hl | hr := Bool.or_eq_true_iff.mp h
    · exact ihl hl x hx
    · exact ihr hr y hy

end Constants

end LoopNest
