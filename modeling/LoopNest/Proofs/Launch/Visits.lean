import LoopNest.Proofs.Launch.Schedule
import LoopNest.Proofs.Loop.Agreement
import LoopNest.Proofs.Loop.Exhaustion
import LoopNest.Proofs.Loop.Variables

/-! What a call hands to its body, on a pool, serially or unrolled. Each iteration shares its index
out to the variables; a call warns once if its header binds fewer variables than there are axes; and
what is visited is read off the bounds, without a look at the header. -/

namespace LoopNest

def ReportsArity (warnings : List Diagnostic) (warned : Prop) : Prop :=
  (warned → ∃ w, warnings = [w] ∧ w.code = some .arityWarning) ∧ (¬warned → warnings = [])

def Iteration.visit (it : Iteration) : UInt64 × GroupedIndex := (it.flat, it.index)

def ResolvedDomain.visits (d : ResolvedDomain) : List (UInt64 × GroupedIndex) :=
  d.tuples.toList.zipIdx.map fun (tuple, flat) => (flat.toUInt64, tuple)

/-- A successful call over a domain, the iterations `seen` that it handed to its body and the
warnings that it reported, `enabled` being its switch for them. -/
structure RangeLoop.Calls (l : RangeLoop) (d : ResolvedDomain) (seen : List Iteration)
    (warnings : List Diagnostic) (enabled : Bool) : Prop where
  shares : ∀ it ∈ seen, it.SharesOut l.targets
  reports : ReportsArity warnings (l.BindsFewer ∧ enabled = true)
  perm_visits : (seen.map Iteration.visit).Perm d.visits

theorem RangeLoop.Calls.perm {l l' : RangeLoop} {d : ResolvedDomain} {seen seen' : List Iteration}
    {warnings warnings' : List Diagnostic} {enabled enabled' : Bool}
    (h : l.Calls d seen warnings enabled) (h' : l'.Calls d seen' warnings' enabled') :
    (seen.map Iteration.visit).Perm (seen'.map Iteration.visit) :=
  h.perm_visits.trans h'.perm_visits.symm

/-! Recording what a body is handed changes nothing else. -/

section Traced

variable {σ ε : Type} {body : Body σ ε}

theorem StaticLoop.runAll_traced {its : List Iteration} {s s' : σ}
    (h : runAll body its s = (.ok (), s')) (seen : List Iteration) :
    runAll body.traced its (s, seen) = (.ok (), s', seen ++ its) := by
  induction its generalizing s seen with
  | nil =>
    cases h
    simp [runAll]
  | cons it its ih =>
    rw [runAll] at h ⊢
    rcases hbody : body it s with ⟨_ | _, s''⟩
    · rw [hbody] at h
      cases h
    · rw [hbody] at h
      simp [Body.traced, hbody, ih h]

variable {p : DispatchPlan} {binding : Binding}

theorem DispatchPlan.runAt_traced (order : List UInt64) (s : σ) (seen : List Iteration) :
    p.runAt binding body.traced order (s, seen) =
      ((p.runAt binding body order s).1, (p.runAt binding body order s).2,
        seen ++ order.map (p.iteration binding)) := by
  induction order generalizing s seen with
  | nil => simp [runAt]
  | cons flat order ih =>
    rcases hbody : body (p.iteration binding flat) s with ⟨_ | _, s'⟩
    · simp [runAt, Body.traced, hbody, ih]
    · simp [runAt, Body.traced, hbody, ih]

theorem DispatchPlan.run_traced {s s' : σ} (h : p.run binding body s = (.ok (), s')) :
    p.run binding body.traced (s, []) = (.ok (), s', p.iterations binding) := by
  have hrun := p.run_eq_runAll binding body s
  rw [h] at hrun
  have htraced := StaticLoop.runAll_traced hrun.symm []
  rw [← run_eq_runAll, List.nil_append] at htraced
  obtain ⟨hok, hstate⟩ := Prod.mk.inj htraced
  exact Prod.ext (mapError_eq_ok_iff.mp hok) hstate

def PoolRun.traced {s : σ} (pool : PoolRun p binding body s) :
    PoolRun p binding body.traced (s, []) where
  order := pool.order
  outcome := pool.outcome
  nodup := pool.nodup
  lt_total := pool.lt_total
  complete h := by
    rw [DispatchPlan.runAt_traced]
    exact pool.complete h
  raised fault h := by
    rw [DispatchPlan.runAt_traced]
    exact pool.raised fault h

end Traced

section Visits

variable {d : ResolvedDomain}

theorem StaticLoop.map_visit_iterations {s : StaticLoop} (h : s.tuples = d.tuples) :
    s.iterations.map Iteration.visit = d.visits := by
  rw [iterations, ResolvedDomain.visits, h, List.map_map]
  rfl

theorem DispatchPlan.map_visit_iterations {p : DispatchPlan} (hp : p.Plans d) (binding : Binding) :
    (p.iterations binding).map Iteration.visit = d.visits := by
  have hits := StaticLoop.iterations_eq (s := ⟨d.tuples, binding, none⟩) rfl hp
  rw [← hits]
  exact StaticLoop.map_visit_iterations rfl

theorem ResolvedDomain.length_toList_of_mem_tuples {t : GroupedIndex} (h : t ∈ d.tuples.toList) :
    t.toList.length = d.axes.length := by
  by_cases hd : d.Unwalked
  · rw [tuples_of_unwalked hd] at h
    cases h
  · obtain ⟨hpos, hle, -⟩ := not_unwalked_iff.mp hd
    have hbox := (mem_tuples_iff hpos hle).mp (Array.mem_def.mpr h)
    exact hbox.2.length_eq

end Visits

namespace RangeLoop

variable {l : RangeLoop} {c : CompiledLoop} (hc : l.compile = .ok c)

include hc

theorem reportsArity_warnings (enabled : Bool) :
    ReportsArity (c.warnings enabled) (l.BindsFewer ∧ enabled = true) := by
  cases enabled with
  | false => exact ⟨fun h => absurd h.2 Bool.noConfusion, fun _ => rfl⟩
  | true =>
    obtain ⟨htargets, rfl⟩ | ⟨n, b, htargets, -, rfl⟩ := compile_cases hc
    · refine ⟨fun ⟨⟨n, hn, _⟩, _⟩ => ?_, fun _ => rfl⟩
      rw [htargets] at hn
      cases hn
    · have hfewer : l.BindsFewer ↔ n < l.domain.rank :=
        ⟨fun ⟨m, hm, hlt⟩ => LoopTargets.vars.inj (htargets.symm.trans hm) ▸ hlt,
          fun hlt => ⟨n, htargets, hlt⟩⟩
      rw [ReportsArity, hfewer, CompiledLoop.warnings]
      by_cases hlt : n < l.domain.rank
      · simp only [hlt, if_true]
        exact ⟨fun _ => ⟨_, rfl, rfl⟩, fun h => absurd ⟨trivial, trivial⟩ h⟩
      · simp [hlt]

theorem plans_of_plan {e : Evaluator} {p : DispatchPlan} (hp : c.plan e = .ok p) :
    ∃ d, l.domain.resolve e = .ok d ∧ d.axes.length = l.domain.rank ∧ p.Plans d :=
  domain_of_compile hc ▸ CompiledLoop.plan_eq_ok hp

theorem calls_of_order {d : ResolvedDomain} (hrank : d.axes.length = l.domain.rank)
    {p : DispatchPlan} (hp : p.Plans d) {order : List UInt64}
    (horder : order.Perm (flats p.total.toNat)) (enabled : Bool) :
    l.Calls d (order.map (p.iteration c.binding)) (c.warnings enabled) enabled where
  shares it hit := by
    obtain ⟨flat, hflat, rfl⟩ := List.mem_map.mp hit
    rw [horder.mem_iff, mem_flats p.total.toNat_lt.le, ← UInt64.lt_iff_toNat_lt] at hflat
    refine sharesOut_of_compile hc rfl ?_
    rw [DispatchPlan.iteration, DispatchPlan.toList_map hp hflat, Axes.length_tuple, hrank]
  reports := reportsArity_warnings hc enabled
  perm_visits := by
    have hall := DispatchPlan.map_visit_iterations hp c.binding
    rw [DispatchPlan.iterations, ← Function.comp_def (p.iteration c.binding), ← List.map_map] at hall
    rw [← hall]
    exact (horder.map _).map _

theorem calls_of_plans {d : ResolvedDomain} (hrank : d.axes.length = l.domain.rank)
    {p : DispatchPlan} (hp : p.Plans d) (enabled : Bool) :
    l.Calls d (p.iterations c.binding) (c.warnings enabled) enabled := by
  have hcalls := calls_of_order hc hrank hp (.refl (flats p.total.toNat)) enabled
  rw [flats, List.map_map] at hcalls
  exact hcalls

theorem calls_of_forEachSerial {σ : Type} {e : Evaluator} {body : Body σ KernelFault} {s s' : σ}
    {report : LaunchReport} (h : c.forEachSerial e body s = (.ok report, s')) :
    ∃ d seen, l.domain.resolve e = .ok d ∧
      c.forEachSerial e body.traced (s, []) = (.ok report, s', seen) ∧
      l.Calls d seen report.warnings e.arityWarnings := by
  simp only [CompiledLoop.forEachSerial] at h ⊢
  cases hp : c.plan e with
  | error error =>
    rw [hp] at h
    cases h
  | ok p =>
    obtain ⟨d, hd, hrank, hplans⟩ := plans_of_plan hc hp
    rw [hp] at h
    rcases hrun : p.run c.binding body s with ⟨⟨_, _⟩ | _, s''⟩
    · simp only [hrun] at h
      cases h
    · simp only [hrun] at h
      cases h
      exact ⟨d, p.iterations c.binding, hd, by simp only [DispatchPlan.run_traced hrun],
        calls_of_plans hc hrank hplans e.arityWarnings⟩

theorem calls_of_launch {σ : Type} {ctx : ExecutionContext} {args : KernelArgs}
    {body : Body σ KernelFault} {s s' : σ} {report : LaunchReport}
    (h : ctx.launch c args body s = (.ok report, s')) :
    ∃ d seen, l.domain.resolve (ctx.evaluator args) = .ok d ∧
      ctx.launch c args body.traced (s, []) = (.ok report, s', seen) ∧
      l.Calls d seen report.warnings ctx.settings.arityWarnings := by
  simp only [ExecutionContext.launch] at h ⊢
  cases hp : c.plan (ctx.evaluator args) with
  | error error =>
    rw [hp] at h
    cases h
  | ok p =>
    obtain ⟨d, hd, hrank, hplans⟩ := plans_of_plan hc hp
    rw [hp] at h
    rcases hrun : p.run c.binding body s with ⟨⟨_, _⟩ | _, s''⟩
    · simp only [hrun] at h
      cases h
    · simp only [hrun] at h
      cases h
      exact ⟨d, p.iterations c.binding, hd, by simp only [DispatchPlan.run_traced hrun],
        calls_of_plans hc hrank hplans ctx.settings.arityWarnings⟩

theorem calls_of_launchOn {σ : Type} {ctx : ExecutionContext} {args : KernelArgs}
    {body : Body σ KernelFault} {s s' : σ} {report : LaunchReport}
    {pool : ∀ p, PoolRun p c.binding body s}
    (h : ctx.launchOn c args body s pool = (.ok report, s')) :
    ∃ d seen, l.domain.resolve (ctx.evaluator args) = .ok d ∧
      ctx.launchOn c args body.traced (s, []) (fun p => (pool p).traced) =
        (.ok report, s', seen) ∧
      l.Calls d seen report.warnings ctx.settings.arityWarnings := by
  cases hp : c.plan (ctx.evaluator args) with
  | error error =>
    rw [ExecutionContext.launchOn, hp] at h
    cases h
  | ok p =>
    obtain ⟨d, hd, hrank, hplans⟩ := plans_of_plan hc hp
    simp only [ExecutionContext.launchOn, hp] at h
    cases hok : (pool p).outcome with
    | error fault =>
      rw [hok] at h
      cases h
    | ok =>
      rw [hok] at h
      cases h
      refine ⟨d, (pool p).order.map (p.iteration c.binding), hd, ?_, ?_⟩
      · have htraced : ((pool p).traced).outcome = .ok () := hok
        simp only [ExecutionContext.launchOn, hp, DispatchPlan.runAt_traced, htraced]
        rfl
      · have hall := ((pool p).perm_flats ((pool p).complete hok).2).2
        exact calls_of_order hc hrank hplans hall _

omit hc

theorem toList_head?_warnings (c : CompiledLoop) (enabled : Bool) :
    (c.warnings enabled).head?.toList = c.warnings enabled := by
  cases enabled with
  | false => rfl
  | true =>
    rw [CompiledLoop.warnings]
    cases c.arityWarning <;> rfl

theorem calls_of_unroll {fold : Folder} {settings : LaunchSettings} {u : StaticLoop}
    (h : l.unroll fold settings = .ok u) :
    ∃ d, l.domain.foldStatic fold = .ok d ∧
      l.Calls d u.iterations u.arityWarning.toList settings.arityWarnings := by
  obtain ⟨c, d, hc, hd, -, rfl⟩ := unroll_eq_ok_iff.mp h
  have hrank := (RangeDomain.foldStatic_eq_ok_iff.mp hd).length_eq
  refine ⟨d, hd, fun it hit => ?_, ?_, ?_⟩
  · obtain ⟨⟨t, n⟩, htuple, rfl⟩ := List.mem_map.mp hit
    have ht := (List.mem_zipIdx_iff_getElem?.mp htuple)
    refine sharesOut_of_compile hc rfl ?_
    exact (ResolvedDomain.length_toList_of_mem_tuples (List.mem_of_getElem? ht)).trans hrank.symm
  · rw [toList_head?_warnings]
    exact reportsArity_warnings hc settings.arityWarnings
  · rw [StaticLoop.map_visit_iterations rfl]

/-- Loop variables partition the axes. A header is refused exactly for no variables or for more
than there are axes. Of any other, every index of the rank is shared out by the variables. What
succeeds in running, serially, launched in row-major order or on a pool, or unrolled, handed its
body each place and tuple of the resolved bounds once, and warned once exactly if there are fewer
variables than axes and its own switch is on. The bounds are resolved without the header, so calls
whose bounds resolve alike visit the same under any two of them. -/
theorem variables_partition_axes (l : RangeLoop) :
    ((∃ error, l.compile = .error error) ↔
      ∃ n, l.targets = .vars n ∧ (n = 0 ∨ l.domain.rank < n)) ∧
    (∀ c, l.compile = .ok c →
      (∀ it : Iteration, it.binding = c.binding → it.index.toList.length = l.domain.rank →
        it.SharesOut l.targets) ∧
      (∀ (σ : Type) (e : Evaluator) (body : Body σ KernelFault) (s s' : σ) (report : LaunchReport),
        c.forEachSerial e body s = (.ok report, s') →
        ∃ d seen, l.domain.resolve e = .ok d ∧
          c.forEachSerial e body.traced (s, []) = (.ok report, s', seen) ∧
          l.Calls d seen report.warnings e.arityWarnings) ∧
      (∀ (σ : Type) (ctx : ExecutionContext) (args : KernelArgs) (body : Body σ KernelFault)
        (s s' : σ) (report : LaunchReport), ctx.launch c args body s = (.ok report, s') →
        ∃ d seen, l.domain.resolve (ctx.evaluator args) = .ok d ∧
          ctx.launch c args body.traced (s, []) = (.ok report, s', seen) ∧
          l.Calls d seen report.warnings ctx.settings.arityWarnings) ∧
      ∀ (σ : Type) (ctx : ExecutionContext) (args : KernelArgs) (body : Body σ KernelFault)
        (s s' : σ) (report : LaunchReport) (pool : ∀ p, PoolRun p c.binding body s),
        ctx.launchOn c args body s pool = (.ok report, s') →
        ∃ d seen, l.domain.resolve (ctx.evaluator args) = .ok d ∧
          ctx.launchOn c args body.traced (s, []) (fun p => (pool p).traced) =
            (.ok report, s', seen) ∧
          l.Calls d seen report.warnings ctx.settings.arityWarnings) ∧
    (∀ (fold : Folder) (settings : LaunchSettings) (u : StaticLoop),
      l.unroll fold settings = .ok u →
      (∃ d, l.domain.foldStatic fold = .ok d ∧
        l.Calls d u.iterations u.arityWarning.toList settings.arityWarnings) ∧
      ∀ (σ ε : Type) (body : Body σ ε) (s s' : σ), u.forEach body s = (.ok (), s') →
        u.forEach body.traced (s, []) = (.ok (), s', u.iterations)) ∧
    ∀ (l' : RangeLoop) (d : ResolvedDomain) (seen seen' : List Iteration)
      (warnings warnings' : List Diagnostic) (enabled enabled' : Bool),
      l.Calls d seen warnings enabled → l'.Calls d seen' warnings' enabled' →
      (seen.map Iteration.visit).Perm (seen'.map Iteration.visit) := by
  refine ⟨exists_compile_error_iff, fun c hc => ⟨?shares, ?serial, ?launch, ?pool⟩,
    fun fold settings u hu => ⟨calls_of_unroll hu, ?copies⟩, ?headers⟩
  case shares => exact fun it hbinding hlength => sharesOut_of_compile hc hbinding hlength
  case serial => exact fun σ e body s s' report h => calls_of_forEachSerial hc h
  case launch => exact fun σ ctx args body s s' report h => calls_of_launch hc h
  case pool => exact fun σ ctx args body s s' report pool h => calls_of_launchOn hc h
  case copies => exact fun σ ε body s s' h => StaticLoop.runAll_traced h []
  case headers => exact fun l' d seen seen' _ _ _ _ h h' => h.perm h'

theorem variables_partition_axes_two_of_three :
    let args := [2, 1, 3].map fun n => RangeArg.scalar (.ofInt64 n)
    let e := { Evaluator.ofArgs .empty .empty with arityWarnings := false }
    let ctx : ExecutionContext := ⟨{}, .empty⟩
    let body : Body Nat KernelFault := fun _ n => (.ok (), n + 1)
    ∃ d c u, RangeDomain.ofArguments args = .ok d ∧
      (∃ error, (⟨d, .vars 4⟩ : RangeLoop).compile = .error error) ∧
      (⟨d, .vars 2⟩ : RangeLoop).compile = .ok c ∧
      (⟨d, .vars 2⟩ : RangeLoop).unroll foldConstants {} = .ok u ∧
      (∃ w, u.arityWarning.toList = [w] ∧ w.code = some .arityWarning) ∧
      (∀ it ∈ u.iterations, it.SharesOut (.vars 2)) ∧
      (∃ report seen, c.forEachSerial e body.traced (0, []) = (.ok report, 6, seen) ∧
        report.warnings = [] ∧
        (seen.map Iteration.visit).Perm (u.iterations.map Iteration.visit)) ∧
      (∃ report seen w, ctx.launch c .empty body.traced (0, []) = (.ok report, 6, seen) ∧
        report.warnings = [w] ∧
        (seen.map Iteration.visit).Perm (u.iterations.map Iteration.visit)) ∧
      ∃ report seen w,
        ctx.launchOn c .empty body.traced (0, [])
          (fun p => (p.backwardRun c.binding body 0).traced) = (.ok report, 6, seen) ∧
        report.warnings = [w] ∧
        (seen.map Iteration.visit).Perm (u.iterations.map Iteration.visit) := by
  intro args e ctx body
  obtain ⟨d, c, u, quiet, loud, hd, hfour, hc, hu, hserial, hlaunch, hpool⟩ : ∃ d c u quiet loud,
      RangeDomain.ofArguments args = .ok d ∧ 3 = d.rank ∧
      (⟨d, .vars 2⟩ : RangeLoop).compile = .ok c ∧
      (⟨d, .vars 2⟩ : RangeLoop).unroll foldConstants {} = .ok u ∧
      c.forEachSerial e body 0 = (.ok quiet, 6) ∧ ctx.launch c .empty body 0 = (.ok loud, 6) ∧
      ctx.launchOn c .empty body 0 (fun p => p.backwardRun c.binding body 0) = (.ok loud, 6) :=
    ⟨_, _, _, _, _, rfl, rfl, rfl, rfl, rfl, rfl, rfl⟩
  have hrefused := (variables_partition_axes ⟨d, .vars 4⟩).1.mpr ⟨4, rfl, .inr (by simp only; omega)⟩
  obtain ⟨-, hcompiled, hunrolled, halike⟩ := variables_partition_axes ⟨d, .vars 2⟩
  obtain ⟨-, hserials, hlaunches, hpools⟩ := hcompiled c hc
  obtain ⟨⟨r, hr, hcopies⟩, -⟩ := hunrolled _ _ u hu
  have hfewer : (⟨d, .vars 2⟩ : RangeLoop).BindsFewer := ⟨2, rfl, by simp only; omega⟩
  have hsame {e : Evaluator} {r' : ResolvedDomain} (hr' : d.resolve e = .ok r') : r' = r :=
    Except.ok.inj (hr'.symm.trans (RangeDomain.resolve_of_foldStatic (foldConstants_soundFor e) hr))
  refine ⟨d, c, u, hd, hrefused, hc, hu, hcopies.reports.1 ⟨hfewer, rfl⟩, hcopies.shares,
    ?serial, ?launch, ?pool⟩
  case serial =>
    obtain ⟨r', seen, hr', htraced, hcalls⟩ := hserials _ _ _ _ _ _ hserial
    exact ⟨quiet, seen, htraced, hcalls.reports.2 (fun h => nomatch h.2),
      halike _ _ _ _ _ _ _ _ (hsame hr' ▸ hcalls) hcopies⟩
  case launch =>
    obtain ⟨r', seen, hr', htraced, hcalls⟩ := hlaunches _ _ _ _ _ _ _ hlaunch
    obtain ⟨w, hw, -⟩ := hcalls.reports.1 ⟨hfewer, rfl⟩
    exact ⟨loud, seen, w, htraced, hw, halike _ _ _ _ _ _ _ _ (hsame hr' ▸ hcalls) hcopies⟩
  case pool =>
    obtain ⟨r', seen, hr', htraced, hcalls⟩ := hpools _ _ _ _ _ _ _ _ hpool
    obtain ⟨w, hw, -⟩ := hcalls.reports.1 ⟨hfewer, rfl⟩
    exact ⟨loud, seen, w, htraced, hw, halike _ _ _ _ _ _ _ _ (hsame hr' ▸ hcalls) hcopies⟩

end RangeLoop

end LoopNest
