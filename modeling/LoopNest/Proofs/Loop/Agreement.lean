import LoopNest.Loop.Unroll
import LoopNest.Proofs.Dispatch.Bijection
import LoopNest.Proofs.Domain.Resolution
import LoopNest.Proofs.Loop.Enumeration

/-! An unrolled loop and its serial run are the same loop. Folded bounds are the evaluated ones, the
odometer gives out what the flat indices map to, and both hand a body the same iterations. -/

namespace LoopNest

def DispatchPlan.iterations (p : DispatchPlan) (binding : Binding) : List Iteration :=
  (List.range p.total.toNat).map fun n => p.iteration binding n.toUInt64

/-- A body that records what it is handed before it does its work. -/
def Body.traced {σ ε : Type} (body : Body σ ε) : Body (σ × List Iteration) ε :=
  fun it (s, seen) => ((body it s).1, (body it s).2, seen ++ [it])

namespace DispatchPlan

variable {σ ε : Type}

theorem runFrom_eq_runAll (p : DispatchPlan) (binding : Binding) (body : Body σ ε) (count : Nat)
    (flat : UInt64) (s : σ) (h : flat.toNat + count < UInt64.size) :
    ((p.runFrom binding body count flat s).1.mapError Prod.snd,
      (p.runFrom binding body count flat s).2) =
      StaticLoop.runAll body
        ((List.range' flat.toNat count).map fun n => p.iteration binding n.toUInt64) s := by
  induction count generalizing flat s with
  | zero => rfl
  | succ count ih =>
    have hnext := toNat_succ (by omega : flat.toNat + 1 < UInt64.size)
    have hflat : flat.toNat.toUInt64 = flat := UInt64.ofNat_toNat
    rw [List.range'_succ, List.map_cons, runFrom, StaticLoop.runAll, hflat]
    rcases hbody : body (p.iteration binding flat) s with ⟨_ | _, s'⟩
    · rfl
    · simp only
      rw [ih (flat + 1) s' (by omega), hnext]

theorem run_eq_runAll (p : DispatchPlan) (binding : Binding) (body : Body σ ε) (s : σ) :
    ((p.run binding body s).1.mapError Prod.snd, (p.run binding body s).2) =
      StaticLoop.runAll body (p.iterations binding) s := by
  rw [run, iterations, List.range_eq_range']
  exact p.runFrom_eq_runAll binding body p.total.toNat 0 s (by simpa using p.total.toNat_lt)

end DispatchPlan

theorem CompiledLoop.plan_eq_ok {l : CompiledLoop} {e : Evaluator} {p : DispatchPlan}
    (h : l.plan e = .ok p) :
    ∃ d, l.domain.resolve e = .ok d ∧ d.axes.length = l.domain.rank ∧ p.Plans d := by
  simp only [plan, bind_eq_ok_iff] at h
  obtain ⟨d, hd, hp⟩ := h
  have hlength := (RangeDomain.resolve_eq_ok_iff.mp hd).length_eq
  exact ⟨d, hd, hlength.symm, DispatchPlan.plans_of_ofDomain hp⟩

theorem CompiledLoop.forEachSerial_eq {σ : Type} {l : CompiledLoop} {e : Evaluator}
    {p : DispatchPlan} (h : l.plan e = .ok p) (body : Body σ KernelFault) (s : σ) :
    l.forEachSerial e body s =
      ((StaticLoop.runAll body (p.iterations l.binding) s).1.map fun _ =>
          l.report p e.arityWarnings,
        (StaticLoop.runAll body (p.iterations l.binding) s).2) := by
  rw [forEachSerial, h, ← DispatchPlan.run_eq_runAll]
  rcases hrun : p.run l.binding body s with ⟨⟨_, _⟩ | _, s'⟩
  · simp [hrun, Except.mapError, Except.map]
  · simp [hrun, Except.mapError, Except.map]

namespace RangeLoop

theorem domain_of_compile {l : RangeLoop} {c : CompiledLoop} (h : l.compile = .ok c) :
    c.domain = l.domain := by
  rw [compile] at h
  split at h
  · cases h
    rfl
  · split at h
    · cases h
    · cases h
      rfl

theorem unroll_eq_ok_iff {l : RangeLoop} {fold : Folder} {settings : LaunchSettings}
    {s : StaticLoop} :
    l.unroll fold settings = .ok s ↔
      ∃ c r, l.compile = .ok c ∧ l.domain.foldStatic fold = .ok r ∧
        withinLimit r settings.unrollLimit = true ∧
        s = ⟨r.tuples, c.binding, (c.warnings settings.arityWarnings).head?⟩ := by
  simp only [unroll, bind_eq_ok_iff, mapError_eq_ok_iff]
  constructor
  · rintro ⟨c, hc, r, hr, h⟩
    split at h
    · rename_i hlimit
      exact ⟨c, r, hc, hr, hlimit, (pure_eq_ok_iff.mp h).symm⟩
    · cases h
  · rintro ⟨c, r, hc, hr, hlimit, rfl⟩
    exact ⟨c, hc, r, hr, by rw [if_pos hlimit, pure_eq_ok_iff]⟩

theorem withinLimit_iff {d : ResolvedDomain} {limit : UInt64} :
    withinLimit d limit = true ↔ Axes.volume d.axes ≤ limit.toNat := by
  rw [withinLimit]
  split
  · rename_i total h
    rw [ResolvedDomain.total?_eq_some_iff.mp h, decide_eq_true_iff, UInt64.le_iff_toNat_le]
  · rename_i h
    simp only [Bool.false_eq_true, false_iff, not_le]
    rw [ResolvedDomain.total?_eq] at h
    split at h
    · cases h
    · have hlt := limit.toNat_lt
      simp only [UInt64.size] at *
      omega

end RangeLoop

theorem StaticLoop.iterations_eq {s : StaticLoop} {d : ResolvedDomain} {p : DispatchPlan}
    (htuples : s.tuples = d.tuples) (hp : p.Plans d) :
    s.iterations = p.iterations s.binding := by
  rw [iterations, DispatchPlan.iterations, htuples, d.toList_tuples hp.rank_pos hp.rank_le,
    hp.total_eq]
  apply List.ext_getElem?
  intro k
  by_cases hk : k < Axes.volume d.axes
  · have hvalue := toNat_toUInt64_of_lt (hk.trans (DispatchPlan.volume_lt_of_plans hp))
    have hflat : k.toUInt64 < p.total := by
      rw [UInt64.lt_iff_toNat_lt, hvalue, hp.total_eq]
      exact hk
    simp [hk, DispatchPlan.iteration, DispatchPlan.map_eq_tuple hp hflat, hvalue, iteration]
  · simp [hk]

namespace RangeLoop

theorem plan_of_unroll {args : List RangeArg} {l : RangeLoop} {settings : LaunchSettings}
    {fold : Folder} {e : Evaluator} {s : StaticLoop}
    (hd : RangeDomain.ofArguments args = .ok l.domain) (hsound : fold.SoundFor e)
    (hs : l.unroll fold settings = .ok s) :
    ∃ c p, l.compile = .ok c ∧ c.plan e = .ok p ∧ p.total.toNat = s.size ∧
      s.iterations = p.iterations c.binding := by
  obtain ⟨c, r, hc, hr, hlimit, rfl⟩ := unroll_eq_ok_iff.mp hs
  have hrank := RangeDomain.rank_of_ofArguments hd
  have hlen : r.axes.length = l.domain.axes.length :=
    (List.Forall₂.length_eq (RangeDomain.foldStatic_eq_ok_iff.mp hr)).symm
  have hfits : Axes.volume r.axes < UInt64.size :=
    (withinLimit_iff.mp hlimit).trans_lt settings.unrollLimit.toNat_lt
  obtain ⟨p, hp⟩ := DispatchPlan.exists_ofDomain (hlen ▸ hrank.1) (hlen ▸ hrank.2) hfits
  have hplans := DispatchPlan.plans_of_ofDomain hp
  refine ⟨c, p, hc, ?_, ?_, StaticLoop.iterations_eq rfl hplans⟩
  · rw [CompiledLoop.plan, domain_of_compile hc, RangeDomain.resolve_of_foldStatic hsound hr]
    exact hp
  · rw [hplans.total_eq, StaticLoop.size, ← Array.length_toList,
      r.toList_tuples hplans.rank_pos hplans.rank_le]
    simp

theorem exists_unroll {l : RangeLoop} {settings : LaunchSettings} {fold : Folder} {e : Evaluator}
    {c : CompiledLoop} {p : DispatchPlan} (hsound : fold.SoundFor e) (hc : l.compile = .ok c)
    (hfold : ∀ a ∈ l.domain.axes, (fold a.lower).isSome ∧ (fold a.upper).isSome)
    (hp : c.plan e = .ok p) (hlimit : p.total ≤ settings.unrollLimit) :
    ∃ s, l.unroll fold settings = .ok s := by
  obtain ⟨r, hr⟩ := RangeDomain.exists_foldStatic hfold
  rw [CompiledLoop.plan, domain_of_compile hc, RangeDomain.resolve_of_foldStatic hsound hr] at hp
  refine ⟨_, unroll_eq_ok_iff.mpr ⟨c, r, hc, hr, withinLimit_iff.mpr ?_, rfl⟩⟩
  rw [← (DispatchPlan.plans_of_ofDomain hp).total_eq]
  exact UInt64.le_iff_toNat_le.mp hlimit

/-- Unrolling and running serially agree on every body: the same iterations are handed to it, it
stops at the same one with the same fault, and leaves the same state. A loop that can be planned
within the limit, and whose bounds all fold, can be unrolled. -/
theorem unroll_agrees_with_serial {args : List RangeArg} {l : RangeLoop}
    (hd : RangeDomain.ofArguments args = .ok l.domain) (settings : LaunchSettings)
    {fold : Folder} {e : Evaluator} (hsound : fold.SoundFor e) :
    (∀ s, l.unroll fold settings = .ok s →
      ∃ c p, l.compile = .ok c ∧ c.plan e = .ok p ∧ p.total.toNat = s.size ∧
        s.iterations = p.iterations c.binding ∧
        ∀ (σ : Type) (body : Body σ KernelFault) (state : σ),
          c.forEachSerial e body state =
            ((s.forEach body state).1.map fun _ => c.report p e.arityWarnings,
              (s.forEach body state).2) ∧
          (c.forEachSerial e body.traced (state, [])).2 = (s.forEach body.traced (state, [])).2) ∧
    ∀ c p, l.compile = .ok c →
      (∀ a ∈ l.domain.axes, (fold a.lower).isSome ∧ (fold a.upper).isSome) →
      c.plan e = .ok p → p.total ≤ settings.unrollLimit →
      ∃ s, l.unroll fold settings = .ok s := by
  refine ⟨fun s hs => ?_, fun c p hc hfold hp hlimit => exists_unroll hsound hc hfold hp hlimit⟩
  obtain ⟨c, p, hc, hp, htotal, hits⟩ := plan_of_unroll hd hsound hs
  refine ⟨c, p, hc, hp, htotal, hits, fun σ body state => ⟨?_, ?_⟩⟩
  · rw [CompiledLoop.forEachSerial_eq hp, StaticLoop.forEach, hits]
  · rw [CompiledLoop.forEachSerial_eq hp, StaticLoop.forEach, hits]

theorem unroll_agrees_with_serial_two_axes :
    let args := [RangeArg.seq [.ofInt64 (-1), .ofInt64 2],
      .scalar (.arith .mul (.ofInt64 2) (.ofInt64 2))]
    let e := Evaluator.ofArgs .empty .empty
    ∃ d, RangeDomain.ofArguments args = .ok d ∧
      ∃ s, (⟨d, .vars 1⟩ : RangeLoop).unroll foldConstants {} = .ok s ∧ s.size = 12 ∧
        ∃ c p, (⟨d, .vars 1⟩ : RangeLoop).compile = .ok c ∧ c.plan e = .ok p ∧
          s.iterations = p.iterations c.binding := by
  intro args e
  obtain ⟨d, hd, s, hs, hsize⟩ : ∃ d, RangeDomain.ofArguments args = .ok d ∧
      ∃ s, (⟨d, .vars 1⟩ : RangeLoop).unroll foldConstants {} = .ok s ∧ s.size = 12 :=
    ⟨_, rfl, _, rfl, rfl⟩
  obtain ⟨c, p, hc, hp, -, hits, -⟩ :=
    (unroll_agrees_with_serial hd {} (foldConstants_soundFor e)).1 s hs
  exact ⟨d, hd, s, hs, hsize, c, p, hc, hp, hits⟩

end RangeLoop

end LoopNest
