import LoopNest.Domain.Basic
import LoopNest.Proofs.Bound.Folding
import LoopNest.Proofs.Failure

/-! What it takes for a domain to be accepted, folded or resolved, bound by bound, and which bound a
fold fails at. -/

namespace LoopNest

namespace RangeDomain

section Arguments

variable {args : List RangeArg}

theorem accepted_of_ofArguments {d : RangeDomain} (h : ofArguments args = .ok d) :
    (RangeArg.leaves args).mapM (axisOfLeaf (callText args)) = .ok d.axes ∧
      (0 < d.axes.length ∧ d.axes.length ≤ maxRank) ∧
      d.callSite =
        { CallSite.render args with axes := (RangeArg.leaves args).map Leaf.origin } := by
  simp only [ofArguments, bind_eq_ok_iff] at h
  obtain ⟨axes, haxes, h⟩ := h
  split at h
  · cases h
  · rename_i hne
    split at h
    · cases h
    · rename_i hle
      obtain rfl := pure_eq_ok_iff.mp h
      rw [List.isEmpty_iff_length_eq_zero] at hne
      exact ⟨haxes, by simp only; omega, rfl⟩

theorem refused_of_ofArguments {error : DomainError} (h : ofArguments args = .error error) :
    (RangeArg.leaves args).mapM (axisOfLeaf (callText args)) = .error error ∨
      ∃ axes, (RangeArg.leaves args).mapM (axisOfLeaf (callText args)) = .ok axes ∧
        (axes.length = 0 ∧ error = .noAxes (callText args) ∨
          maxRank < axes.length ∧ error = .tooManyAxes (callText args) axes.length) := by
  rw [ofArguments] at h
  obtain haxes | ⟨axes, haxes, h⟩ := bind_eq_error_iff.mp h
  · exact .inl haxes
  · refine .inr ⟨axes, haxes, ?_⟩
    split at h
    · rename_i hempty
      cases h
      exact .inl ⟨List.isEmpty_iff_length_eq_zero.mp hempty, rfl⟩
    · split at h
      · rename_i hmany
        cases h
        exact .inr ⟨hmany, rfl⟩
      · cases h

theorem rank_of_ofArguments {d : RangeDomain} (h : ofArguments args = .ok d) :
    0 < d.axes.length ∧ d.axes.length ≤ maxRank := (accepted_of_ofArguments h).2.1

end Arguments

theorem foldBound_eq_ok_iff {fold : Folder} {site : CallSite} {axis : Nat} {bound : Bound}
    {v : Int64} : foldBound fold site axis bound = .ok v ↔ fold bound = some v := by
  rw [foldBound]
  split <;> simp_all

theorem foldBound_eq_error_iff {fold : Folder} {site : CallSite} {axis : Nat} {bound : Bound}
    {error : FoldError} :
    foldBound fold site axis bound = .error error ↔
      fold bound = none ∧ error = ⟨site, axis, bound⟩ := by
  rw [foldBound]
  cases fold bound <;> simp [eq_comm]

theorem foldAxis_eq_ok_iff {fold : Folder} {site : CallSite} {a : AxisRange × Nat}
    {r : ResolvedAxis} :
    foldAxis fold site a = .ok r ↔
      fold a.1.lower = some r.lower ∧ fold a.1.upper = some r.upper := by
  simp only [foldAxis, bind_eq_ok_iff, pure_eq_ok_iff, foldBound_eq_ok_iff]
  constructor
  · rintro ⟨lower, hl, upper, hu, rfl⟩
    exact ⟨hl, hu⟩
  · rintro ⟨hl, hu⟩
    exact ⟨r.lower, hl, r.upper, hu, rfl⟩

theorem resolveAxis_eq_ok_iff {e : Evaluator} {a : AxisRange} {r : ResolvedAxis} :
    resolveAxis e a = .ok r ↔ e.eval a.lower = .ok r.lower ∧ e.eval a.upper = .ok r.upper := by
  simp only [resolveAxis, bind_eq_ok_iff, pure_eq_ok_iff]
  constructor
  · rintro ⟨lower, hl, upper, hu, rfl⟩
    exact ⟨hl, hu⟩
  · rintro ⟨hl, hu⟩
    exact ⟨r.lower, hl, r.upper, hu, rfl⟩

variable {d : RangeDomain} {fold : Folder} {e : Evaluator} {r : ResolvedDomain}

theorem foldStatic_eq_ok_iff :
    d.foldStatic fold = .ok r ↔
      List.Forall₂ (fun a b => fold a.lower = some b.lower ∧ fold a.upper = some b.upper)
        d.axes r.axes := by
  have hfst : d.axes.zipIdx.map Prod.fst = d.axes := List.zipIdx_map_fst 0 d.axes
  conv_rhs => rw [← hfst, List.forall₂_map_left_iff]
  simp only [foldStatic, bind_eq_ok_iff, pure_eq_ok_iff, mapM_eq_ok_iff, foldAxis_eq_ok_iff]
  constructor
  · rintro ⟨axes, h, rfl⟩
    exact h
  · intro h
    exact ⟨r.axes, h, rfl⟩

theorem resolve_eq_ok_iff :
    d.resolve e = .ok r ↔
      List.Forall₂ (fun a b => e.eval a.lower = .ok b.lower ∧ e.eval a.upper = .ok b.upper)
        d.axes r.axes := by
  simp only [resolve, bind_eq_ok_iff, pure_eq_ok_iff, mapM_eq_ok_iff, resolveAxis_eq_ok_iff]
  constructor
  · rintro ⟨axes, h, rfl⟩
    exact h
  · intro h
    exact ⟨r.axes, h, rfl⟩

theorem resolve_of_foldStatic (hsound : fold.SoundFor e) (h : d.foldStatic fold = .ok r) :
    d.resolve e = .ok r := by
  rw [foldStatic_eq_ok_iff] at h
  rw [resolve_eq_ok_iff]
  exact h.imp fun a b hab => ⟨hsound _ _ hab.1, hsound _ _ hab.2⟩

def boundsOf (a : AxisRange × Nat) : List (Nat × Bound) := [(a.2, a.1.lower), (a.2, a.1.upper)]

def bounds (d : RangeDomain) : List (Nat × Bound) := d.axes.zipIdx.flatMap boundsOf

/-- The first bound that a folder does not know, with its axis. -/
def firstUnknown? (d : RangeDomain) (fold : Folder) : Option (Nat × Bound) :=
  d.bounds.find? fun bound => (fold bound.2).isNone

section FirstUnknown

variable {site : CallSite} {error : FoldError}

theorem foldAxis_eq_error_iff {a : AxisRange × Nat} :
    foldAxis fold site a = .error error ↔
      ∃ b, (boundsOf a).find? (fun bound => (fold bound.2).isNone) = some b ∧
        error = ⟨site, b.1, b.2⟩ := by
  obtain ⟨⟨lower, upper⟩, axis⟩ := a
  simp only [foldAxis, bind_eq_error_iff, foldBound_eq_error_iff, foldBound_eq_ok_iff, boundsOf]
  cases hl : fold lower with
  | none => simp [hl]
  | some l =>
    cases hu : fold upper with
    | none => simp [hl, hu]
    | some u => simp [hl, hu, pure, Except.pure]

theorem mapM_foldAxis_eq_error_iff {axes : List (AxisRange × Nat)} :
    axes.mapM (foldAxis fold site) = .error error ↔
      ∃ b, (axes.flatMap boundsOf).find? (fun bound => (fold bound.2).isNone) = some b ∧
        error = ⟨site, b.1, b.2⟩ := by
  induction axes with
  | nil => simp [pure, Except.pure]
  | cons a axes ih =>
    rw [List.mapM_cons, List.flatMap_cons, List.find?_append]
    cases hfind : (boundsOf a).find? fun bound => (fold bound.2).isNone with
    | some b =>
      have hfail : foldAxis fold site a = .error ⟨site, b.1, b.2⟩ :=
        foldAxis_eq_error_iff.mpr ⟨b, hfind, rfl⟩
      rw [hfail]
      simp [bind, Except.bind, eq_comm]
    | none =>
      have hknown : ∃ r, foldAxis fold site a = .ok r := by
        cases h : foldAxis fold site a with
        | ok r => exact ⟨r, rfl⟩
        | error error =>
          obtain ⟨b, hb, -⟩ := foldAxis_eq_error_iff.mp h
          rw [hfind] at hb
          cases hb
      obtain ⟨r, hr⟩ := hknown
      rw [hr, Option.none_or, ← ih]
      cases axes.mapM (foldAxis fold site) <;> simp [bind, Except.bind, pure, Except.pure]

end FirstUnknown

theorem foldStatic_eq_error_iff {error : FoldError} :
    d.foldStatic fold = .error error ↔
      ∃ k b, d.firstUnknown? fold = some (k, b) ∧ error = ⟨d.callSite, k, b⟩ := by
  simp only [foldStatic, bind_eq_error_iff, mapM_foldAxis_eq_error_iff, Prod.exists]
  simp [firstUnknown?, bounds, pure, Except.pure]

theorem firstUnknown?_eq_none_iff :
    d.firstUnknown? fold = none ↔ ∃ r, d.foldStatic fold = .ok r := by
  cases h : d.foldStatic fold with
  | ok r =>
    refine ⟨fun _ => ⟨r, rfl⟩, fun _ => Option.eq_none_iff_forall_not_mem.mpr fun b hb => ?_⟩
    have herror := foldStatic_eq_error_iff.mpr ⟨b.1, b.2, hb, rfl⟩
    rw [h] at herror
    cases herror
  | error error =>
    obtain ⟨k, b, hfirst, -⟩ := foldStatic_eq_error_iff.mp h
    simp [hfirst]

theorem mem_bounds_iff {k : Nat} {b : Bound} :
    (k, b) ∈ d.bounds ↔ ∃ a, d.axes[k]? = some a ∧ (b = a.lower ∨ b = a.upper) := by
  simp only [bounds, List.mem_flatMap, Prod.exists, List.mem_zipIdx_iff_getElem?, boundsOf,
    List.mem_cons, Prod.mk.injEq, List.not_mem_nil, or_false]
  constructor
  · rintro ⟨a, axis, ha, ⟨rfl, rfl⟩ | ⟨rfl, rfl⟩⟩
    · exact ⟨a, ha, .inl rfl⟩
    · exact ⟨a, ha, .inr rfl⟩
  · rintro ⟨a, ha, rfl | rfl⟩
    · exact ⟨a, k, ha, .inl ⟨rfl, rfl⟩⟩
    · exact ⟨a, k, ha, .inr ⟨rfl, rfl⟩⟩

theorem of_firstUnknown?_eq_some {k : Nat} {b : Bound} (h : d.firstUnknown? fold = some (k, b)) :
    (∃ a, d.axes[k]? = some a ∧ (b = a.lower ∨ b = a.upper)) ∧ fold b = none := by
  have hnone := List.find?_some h
  exact ⟨mem_bounds_iff.mp (List.mem_of_find?_eq_some h), Option.isNone_iff_eq_none.mp hnone⟩

theorem isStatic_iff : d.isStatic fold = true ↔ ∃ r, d.foldStatic fold = .ok r := by
  rw [← firstUnknown?_eq_none_iff, firstUnknown?, List.find?_eq_none]
  simp only [isStatic, List.all_eq_true, Bool.and_eq_true, Bool.not_eq_true,
    Option.isNone_eq_false_iff, Prod.forall]
  constructor
  · intro h k b hb
    obtain ⟨a, ha, rfl | rfl⟩ := mem_bounds_iff.mp hb
    · exact (h a (List.mem_of_getElem? ha)).1
    · exact (h a (List.mem_of_getElem? ha)).2
  · intro h a ha
    obtain ⟨k, hk⟩ := List.getElem?_of_mem ha
    exact ⟨h k _ (mem_bounds_iff.mpr ⟨a, hk, .inl rfl⟩), h k _ (mem_bounds_iff.mpr ⟨a, hk, .inr rfl⟩)⟩

theorem exists_foldStatic (h : ∀ a ∈ d.axes, (fold a.lower).isSome ∧ (fold a.upper).isSome) :
    ∃ r, d.foldStatic fold = .ok r := by
  rw [← isStatic_iff, isStatic]
  simpa using h

end RangeDomain

end LoopNest
