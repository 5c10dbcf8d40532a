import LoopNest.Proofs.Dispatch.Strides
import LoopNest.Proofs.Domain.Computed
import LoopNest.Proofs.Loop.Agreement
import LoopNest.Proofs.Loop.Exhaustion

/-! Loops whose body runs another loop over bounds that it computes from its own tuple. Together
they are one loop over a dependent set of pairs: what is visited, in which order and up to which
fault, as if the pairs had been listed beforehand. -/

namespace LoopNest

def runEach {α σ ε : Type} (body : α → σ → Except ε Unit × σ) :
    List α → σ → Except ε Unit × σ
  | [], s => (.ok (), s)
  | a :: as, s =>
    match body a s with
    | (.ok (), s) => runEach body as s
    | (.error e, s) => (.error e, s)

section RunEach

variable {α β σ ε : Type}

theorem StaticLoop.runAll_eq_runEach (body : Body σ ε) (its : List Iteration) (s : σ) :
    runAll body its s = runEach body its s := by
  induction its generalizing s with
  | nil => rfl
  | cons it its ih =>
    rw [runAll, runEach]
    rcases body it s with ⟨_ | _, s'⟩
    · rfl
    · exact ih s'

theorem runEach_map (f : β → α) (body : α → σ → Except ε Unit × σ) (bs : List β) (s : σ) :
    runEach body (bs.map f) s = runEach (fun b => body (f b)) bs s := by
  induction bs generalizing s with
  | nil => rfl
  | cons b bs ih =>
    rw [List.map_cons, runEach, runEach]
    rcases body (f b) s with ⟨_ | _, s'⟩
    · rfl
    · exact ih s'

theorem runEach_append (body : α → σ → Except ε Unit × σ) (as bs : List α) (s : σ) :
    runEach body (as ++ bs) s =
      match runEach body as s with
      | (.ok (), s) => runEach body bs s
      | (.error e, s) => (.error e, s) := by
  induction as generalizing s with
  | nil => rfl
  | cons a as ih =>
    rw [List.cons_append, runEach, runEach]
    rcases body a s with ⟨_ | _, s'⟩
    · rfl
    · exact ih s'

theorem runEach_flatMap {outer : List α} {inner : α → List β}
    {step : α → σ → Except ε Unit × σ} (body : α → β → σ → Except ε Unit × σ)
    (hstep : ∀ a ∈ outer, ∀ s, step a s = runEach (body a) (inner a) s) (s : σ) :
    runEach step outer s =
      runEach (Function.uncurry body)
        (outer.flatMap fun a => (inner a).map fun b => (a, b)) s := by
  induction outer generalizing s with
  | nil => rfl
  | cons a outer ih =>
    obtain ⟨ha, houter⟩ := List.forall_mem_cons.mp hstep
    have hbody : (fun b => Function.uncurry body (a, b)) = body a := rfl
    rw [List.flatMap_cons, runEach_append, runEach_map, hbody, runEach, ha]
    rcases runEach (body a) (inner a) s with ⟨_ | _, s'⟩
    · rfl
    · exact ih houter s'

theorem map_unit (x : Except ε Unit) : (x.map fun _ => ()) = x := by
  cases x <;> rfl

end RunEach

/-! What is visited over a domain, and over one domain for each tuple of another. -/

namespace GroupedIndex

/-- A padded record in the range between two others, component by component. -/
structure Between (lower upper t : GroupedIndex) : Prop where
  canonical : t.Canonical
  length_eq : t.toList.length = min lower.toList.length upper.toList.length
  within : ∀ (k : Nat) (l u v : Int64), lower.toList[k]? = some l → upper.toList[k]? = some u →
    t.toList[k]? = some v → l ≤ v ∧ v < u

theorem contains_between_iff {lower upper t : GroupedIndex} :
    (ResolvedDomain.between lower upper).Contains t ↔ Between lower upper t := by
  rw [ResolvedDomain.Contains, Axes.Contains, ResolvedDomain.between, List.forall₂_iff_get]
  constructor
  · rintro ⟨hcanonical, hlength, hwithin⟩
    rw [List.length_zipWith] at hlength
    refine ⟨hcanonical, hlength.symm, fun k l u v hl hu hv => ?_⟩
    obtain ⟨hkl, rfl⟩ := List.getElem?_eq_some_iff.mp hl
    obtain ⟨hku, rfl⟩ := List.getElem?_eq_some_iff.mp hu
    obtain ⟨hkv, rfl⟩ := List.getElem?_eq_some_iff.mp hv
    simpa [ResolvedAxis.Contains] using hwithin k (by rw [List.length_zipWith]; omega) hkv
  · rintro ⟨hcanonical, hlength, hwithin⟩
    refine ⟨hcanonical, by rw [List.length_zipWith, hlength], fun k hk hkv => ?_⟩
    rw [List.length_zipWith] at hk
    simpa [ResolvedAxis.Contains] using hwithin k _ _ _
      (List.getElem?_eq_getElem (by omega)) (List.getElem?_eq_getElem (by omega))
      (List.getElem?_eq_getElem hkv)

def PairBefore (p q : GroupedIndex × GroupedIndex) : Prop :=
  (List.compareLex Ord.compare p.1.toList q.1.toList).then
    (List.compareLex Ord.compare p.2.toList q.2.toList) = .lt

end GroupedIndex

namespace ResolvedDomain

def iterations (d : ResolvedDomain) (binding : Binding) : List Iteration :=
  StaticLoop.iterations ⟨d.tuples, binding, none⟩

theorem map_index_iterations (d : ResolvedDomain) (binding : Binding) :
    (d.iterations binding).map Iteration.index = d.tuples.toList := by
  rw [iterations, StaticLoop.iterations, List.map_map]
  exact List.zipIdx_map_fst 0 d.tuples.toList

theorem iterations_eq_of_plans {d : ResolvedDomain} {p : DispatchPlan} (hp : p.Plans d)
    (binding : Binding) : d.iterations binding = p.iterations binding :=
  StaticLoop.iterations_eq (s := ⟨d.tuples, binding, none⟩) rfl hp

def pairs (d : ResolvedDomain) (inner : GroupedIndex → ResolvedDomain) :
    List (GroupedIndex × GroupedIndex) :=
  d.tuples.toList.flatMap fun t => (inner t).tuples.toList.map fun s => (t, s)

theorem pairwise_pairs (d : ResolvedDomain) (inner : GroupedIndex → ResolvedDomain) :
    (d.pairs inner).Pairwise GroupedIndex.PairBefore := by
  rw [pairs, List.pairwise_flatMap]
  refine ⟨fun t _ => ?_, d.pairwise_tuples.imp fun {t t'} hlt => ?_⟩
  · rw [List.pairwise_map]
    refine (inner t).pairwise_tuples.imp fun {s s'} hlt => ?_
    have hself : List.compareLex compare t.toList t.toList = .eq :=
      @Std.ReflCmp.compare_self _ (List.compareLex Ord.compare) _ t.toList
    rw [GroupedIndex.PairBefore, hself]
    exact hlt
  · simp only [List.mem_map]
    rintro _ ⟨s, -, rfl⟩ _ ⟨s', -, rfl⟩
    rw [GroupedIndex.PairBefore, hlt]
    rfl

theorem mem_pairs_iff {d : ResolvedDomain} {inner : GroupedIndex → ResolvedDomain}
    (hrank : 0 < d.rank ∧ d.rank ≤ maxRank)
    (hinner : ∀ t, d.Contains t → 0 < (inner t).rank ∧ (inner t).rank ≤ maxRank)
    {t s : GroupedIndex} : (t, s) ∈ d.pairs inner ↔ d.Contains t ∧ (inner t).Contains s := by
  simp only [pairs, List.mem_flatMap, List.mem_map, Prod.mk.injEq, ← Array.mem_def,
    mem_tuples_iff hrank.1 hrank.2]
  constructor
  · rintro ⟨_, ht, _, hs, rfl, rfl⟩
    exact ⟨ht, (mem_tuples_iff (hinner _ ht).1 (hinner _ ht).2).mp hs⟩
  · rintro ⟨ht, hs⟩
    exact ⟨t, ht, s, (mem_tuples_iff (hinner t ht).1 (hinner t ht).2).mpr hs, rfl, rfl⟩

end ResolvedDomain

/-- The body of an outer loop that runs an inner loop for each of its tuples. Bounds are resolved
with the arguments and the storage as they are at that moment. -/
def nestedBody {σ : Type} (inner : GroupedIndex → CompiledLoop) (evaluator : σ → Evaluator)
    (body : Iteration → Body σ KernelFault) : Body σ KernelFault :=
  fun it s =>
    match (inner it.index).forEachSerial (evaluator s) (body it) s with
    | (.ok _, s) => (.ok (), s)
    | (.error fault, s) => (.error fault, s)

structure CompiledLoop.Spans (c : CompiledLoop) (lower upper : GroupedIndex) : Prop where
  made : ∃ l : RangeLoop,
    RangeDomain.ofArguments [.between lower upper] = .ok l.domain ∧ l.compile = .ok c
  fits : Axes.exactVolume (ResolvedDomain.between lower upper).axes < UInt64.size

namespace CompiledLoop.Spans

variable {c : CompiledLoop} {lower upper : GroupedIndex} (h : c.Spans lower upper)

include h

theorem rank : 0 < (ResolvedDomain.between lower upper).rank ∧
    (ResolvedDomain.between lower upper).rank ≤ maxRank := by
  obtain ⟨l, hl, -⟩ := h.made
  obtain ⟨-, hcount, -⟩ := RangeDomain.ofArguments_eq_ok hl
  rwa [(RangeArg.fixes_between lower upper).length_eq] at hcount

theorem exists_plan : ∃ p : DispatchPlan, p.Plans (.between lower upper) ∧
    ∀ e, c.plan e = .ok p := by
  obtain ⟨hpos, hle⟩ := h.rank
  have hfits := h.fits
  rw [← Axes.natCast_volume, Nat.cast_lt] at hfits
  obtain ⟨p, hp⟩ := DispatchPlan.exists_ofDomain hpos hle hfits
  obtain ⟨l, hl, hc⟩ := h.made
  refine ⟨p, DispatchPlan.plans_of_ofDomain hp, fun e => ?_⟩
  have hresolve := RangeDomain.resolve_of_foldStatic (foldConstants_soundFor e)
    (RangeDomain.foldStatic_of_fixes (RangeArg.fixes_between lower upper) hl)
  rw [plan, RangeLoop.domain_of_compile hc, hresolve]
  exact hp

end CompiledLoop.Spans

section Nested

variable {σ : Type} {d : ResolvedDomain} {lower upper : GroupedIndex → GroupedIndex}
  {inner : GroupedIndex → CompiledLoop}

def nestedVisits (outer : List Iteration) (lower upper : GroupedIndex → GroupedIndex)
    (inner : GroupedIndex → CompiledLoop) : List (Iteration × Iteration) :=
  outer.flatMap fun it =>
    ((ResolvedDomain.between (lower it.index) (upper it.index)).iterations
      (inner it.index).binding).map fun jt => (it, jt)

theorem map_index_nestedVisits (binding : Binding) :
    (nestedVisits (d.iterations binding) lower upper inner).map
        (Prod.map Iteration.index Iteration.index) =
      d.pairs fun t => .between (lower t) (upper t) := by
  rw [ResolvedDomain.pairs, ← d.map_index_iterations binding, List.flatMap_map, nestedVisits,
    List.map_flatMap]
  congr 1
  funext it
  rw [← ResolvedDomain.map_index_iterations _ (inner it.index).binding, List.map_map, List.map_map]
  rfl

theorem nestedBody_eq {t : GroupedIndex} {it : Iteration} (hit : it.index = t)
    (h : (inner t).Spans (lower t) (upper t)) (evaluator : σ → Evaluator)
    (body : Iteration → Body σ KernelFault) (s : σ) :
    nestedBody inner evaluator body it s =
      runEach (body it)
        ((ResolvedDomain.between (lower t) (upper t)).iterations (inner t).binding) s := by
  obtain ⟨p, hp, hplan⟩ := h.exists_plan
  rw [nestedBody, hit, CompiledLoop.forEachSerial_eq (hplan (evaluator s)),
    ResolvedDomain.iterations_eq_of_plans hp, ← StaticLoop.runAll_eq_runEach]
  rcases StaticLoop.runAll (body it) (p.iterations (inner t).binding) s with ⟨_ | _, s'⟩
  · rfl
  · rfl

theorem runAll_nestedBody (binding : Binding)
    (h : ∀ t ∈ d.tuples, (inner t).Spans (lower t) (upper t)) (evaluator : σ → Evaluator)
    (body : Iteration → Body σ KernelFault) (s : σ) :
    StaticLoop.runAll (nestedBody inner evaluator body) (d.iterations binding) s =
      runEach (Function.uncurry body)
        (nestedVisits (d.iterations binding) lower upper inner) s := by
  rw [StaticLoop.runAll_eq_runEach]
  refine runEach_flatMap body (fun it hit s => nestedBody_eq rfl (h _ ?_) evaluator body s) s
  have hmem := List.mem_map_of_mem (f := Iteration.index) hit
  rwa [d.map_index_iterations, ← Array.mem_def] at hmem

/-- A list of what a nested run visits: every tuple of the outer domain with every tuple in its own
range, in lexicographic order, hence each pair once. -/
structure VisitsPairs (d : ResolvedDomain) (lower upper : GroupedIndex → GroupedIndex)
    (visits : List (Iteration × Iteration)) : Prop where
  mem_iff : ∀ t s, (t, s) ∈ visits.map (Prod.map Iteration.index Iteration.index) ↔
    d.Contains t ∧ GroupedIndex.Between (lower t) (upper t) s
  ordered :
    (visits.map (Prod.map Iteration.index Iteration.index)).Pairwise GroupedIndex.PairBefore

theorem visitsPairs_nestedVisits (hrank : 0 < d.rank ∧ d.rank ≤ maxRank)
    (h : ∀ t, d.Contains t → (inner t).Spans (lower t) (upper t)) (binding : Binding) :
    VisitsPairs d lower upper (nestedVisits (d.iterations binding) lower upper inner) where
  mem_iff t s := by
    rw [map_index_nestedVisits, ResolvedDomain.mem_pairs_iff hrank fun t ht => (h t ht).rank]
    exact and_congr_right fun _ => GroupedIndex.contains_between_iff
  ordered := by
    rw [map_index_nestedVisits]
    exact d.pairwise_pairs _

end Nested

/-- A way to run a body over a loop does, with a nested body, what one run over `visits` does, up to
the same fault and with the same state. -/
def RunsOver {ρ : Type} (run : (σ : Type) → Body σ KernelFault → σ → Except KernelFault ρ × σ)
    (done : ρ) (inner : GroupedIndex → CompiledLoop) (visits : List (Iteration × Iteration)) : Prop :=
  ∀ (σ : Type) (evaluator : σ → Evaluator) (body : Iteration → Body σ KernelFault) (s : σ),
    run σ (nestedBody inner evaluator body) s =
      ((runEach (Function.uncurry body) visits s).1.map fun _ => done,
        (runEach (Function.uncurry body) visits s).2)

namespace RangeLoop

variable {l : RangeLoop} {lower upper : GroupedIndex → GroupedIndex}
  {inner : GroupedIndex → CompiledLoop}

theorem nested_serial {d : ResolvedDomain} {e : Evaluator} {c : CompiledLoop} {p : DispatchPlan}
    (hc : l.compile = .ok c) (hp : c.plan e = .ok p) (hd : l.domain.resolve e = .ok d)
    (h : ∀ t, d.Contains t → (inner t).Spans (lower t) (upper t)) :
    ∃ visits, VisitsPairs d lower upper visits ∧
      RunsOver (fun _ => c.forEachSerial e) (c.report p e.arityWarnings) inner visits := by
  obtain ⟨d', hd', -, hplans⟩ := CompiledLoop.plan_eq_ok hp
  rw [domain_of_compile hc, hd] at hd'
  cases hd'
  refine ⟨nestedVisits (d.iterations c.binding) lower upper inner,
    visitsPairs_nestedVisits ⟨hplans.rank_pos, hplans.rank_le⟩ h c.binding,
    fun σ evaluator body s => ?_⟩
  have hspans : ∀ t ∈ d.tuples, (inner t).Spans (lower t) (upper t) := fun t ht =>
    h t ((ResolvedDomain.mem_tuples_iff hplans.rank_pos hplans.rank_le).mp ht)
  change c.forEachSerial e (nestedBody inner evaluator body) s = _
  rw [CompiledLoop.forEachSerial_eq hp, ← ResolvedDomain.iterations_eq_of_plans hplans,
    runAll_nestedBody c.binding hspans]

theorem nested_unrolled {args : List RangeArg} {d : ResolvedDomain} {fold : Folder}
    {settings : LaunchSettings} {u : StaticLoop} (hargs : RangeDomain.ofArguments args = .ok l.domain)
    (hu : l.unroll fold settings = .ok u) (hd : l.domain.foldStatic fold = .ok d)
    (h : ∀ t, d.Contains t → (inner t).Spans (lower t) (upper t)) :
    ∃ visits, VisitsPairs d lower upper visits ∧
      RunsOver (fun _ => u.forEach) () inner visits := by
  obtain ⟨c, d', -, hd', -, rfl⟩ := unroll_eq_ok_iff.mp hu
  rw [hd] at hd'
  cases hd'
  have hrank : 0 < d.rank ∧ d.rank ≤ maxRank := by
    have hlength := (RangeDomain.foldStatic_eq_ok_iff.mp hd).length_eq
    rw [ResolvedDomain.rank, ← hlength]
    exact RangeDomain.rank_of_ofArguments hargs
  refine ⟨nestedVisits (d.iterations c.binding) lower upper inner,
    visitsPairs_nestedVisits hrank h c.binding, fun σ evaluator body s => ?_⟩
  have hspans : ∀ t ∈ d.tuples, (inner t).Spans (lower t) (upper t) := fun t ht =>
    h t ((ResolvedDomain.mem_tuples_iff hrank.1 hrank.2).mp ht)
  refine (runAll_nestedBody c.binding hspans evaluator body s).trans ?_
  exact Prod.ext (map_unit _).symm rfl

/-- Loops over computed bounds. The range between two indices is accepted whenever both have a
component, and so is the range up to one that has; it folds, and it resolves to the components
themselves whatever the arguments and the storage are. Nested in another loop, serial or unrolled,
with bounds that are any functions of the outer tuple and totals that fit in 64 bits, it visits
exactly the outer tuples with the tuples of their own ranges, in lexicographic order of the pair. -/
theorem computed_bounds_nest :
    (∀ lower upper : GroupedIndex, 0 < min lower.toList.length upper.toList.length →
      ∃ d, RangeDomain.ofArguments [.between lower upper] = .ok d ∧
        d.rank = min lower.toList.length upper.toList.length ∧
        d.foldStatic foldConstants = .ok (.between lower upper) ∧
        ∀ e, d.resolve e = .ok (.between lower upper)) ∧
    (∀ upper : GroupedIndex, 0 < upper.toList.length →
      ∃ d, RangeDomain.ofArguments [.ofGrouped upper] = .ok d ∧ d.rank = upper.toList.length ∧
        d.foldStatic foldConstants = .ok (.upTo upper) ∧
        ∀ e, d.resolve e = .ok (.upTo upper)) ∧
    ∀ (l : RangeLoop) (d : ResolvedDomain) (lower upper : GroupedIndex → GroupedIndex)
      (inner : GroupedIndex → CompiledLoop),
      (∀ t, d.Contains t → (inner t).Spans (lower t) (upper t)) →
      (∀ e c p, l.compile = .ok c → c.plan e = .ok p → l.domain.resolve e = .ok d →
        ∃ visits, VisitsPairs d lower upper visits ∧
          RunsOver (fun _ => c.forEachSerial e) (c.report p e.arityWarnings) inner visits) ∧
      ∀ args fold settings u, RangeDomain.ofArguments args = .ok l.domain →
        l.unroll fold settings = .ok u → l.domain.foldStatic fold = .ok d →
        ∃ visits, VisitsPairs d lower upper visits ∧
          RunsOver (fun _ => u.forEach) () inner visits :=
  ⟨fun _ _ hpos => RangeDomain.exists_between hpos, fun _ hpos => RangeDomain.exists_ofGrouped hpos,
    fun _ _ _ _ _ h => ⟨fun _ _ _ hc hp hd => nested_serial hc hp hd h,
      fun _ _ _ _ hargs hu hd => nested_unrolled hargs hu hd h⟩⟩

theorem computed_bounds_nest_triangle :
    let least : GroupedIndex := .ofListTruncated [-1]
    let inner (t : GroupedIndex) : CompiledLoop :=
      match RangeDomain.ofArguments [.between least t] with
      | .ok d => ⟨d, .whole d.rank, none⟩
      | .error _ => ⟨⟨[], .render []⟩, .whole 0, none⟩
    let d : ResolvedDomain := ⟨[⟨-1, 2⟩]⟩
    let e := Evaluator.ofArgs .empty .empty
    (∃ d', RangeDomain.ofArguments [.ofGrouped least] = .ok d' ∧ d'.rank = 1) ∧
    ∃ (l : RangeLoop) (c : CompiledLoop) (p : DispatchPlan) (u : StaticLoop),
      RangeDomain.ofArguments [.seq [.ofInt64 (-1), .ofInt64 2]] = .ok l.domain ∧
      l.compile = .ok c ∧ c.plan e = .ok p ∧ l.domain.resolve e = .ok d ∧
      l.unroll foldConstants {} = .ok u ∧ u.size = 3 ∧
      (∀ t, d.Contains t → (inner t).Spans least t) ∧
      (∃ visits, VisitsPairs d (fun _ => least) id visits ∧
        RunsOver (fun _ => c.forEachSerial e) (c.report p e.arityWarnings) inner visits) ∧
      ∃ visits, VisitsPairs d (fun _ => least) id visits ∧
        RunsOver (fun _ => u.forEach) () inner visits := by
  intro least inner d e
  obtain ⟨l, c, p, u, hl, hc, hp, hd, hu, hsize, hfold⟩ : ∃ (l : RangeLoop) (c : CompiledLoop)
      (p : DispatchPlan) (u : StaticLoop),
      RangeDomain.ofArguments [.seq [.ofInt64 (-1), .ofInt64 2]] = .ok l.domain ∧
      l.compile = .ok c ∧ c.plan e = .ok p ∧ l.domain.resolve e = .ok d ∧
      l.unroll foldConstants {} = .ok u ∧ u.size = 3 ∧
      l.domain.foldStatic foldConstants = .ok d :=
    ⟨⟨_, .grouped⟩, _, _, _, rfl, rfl, rfl, rfl, rfl, rfl, rfl⟩
  have hspans (t : GroupedIndex) (ht : d.Contains t) : (inner t).Spans least t := by
    obtain ⟨v, hv⟩ := List.length_eq_one_iff.mp ht.2.length_eq
    have hleast : least.toList = [-1] := by decide
    have hpos : 0 < min least.toList.length t.toList.length := by simp [hv, hleast]
    obtain ⟨d', hd', -⟩ := RangeDomain.exists_between hpos
    refine ⟨⟨⟨d', .grouped⟩, hd', ?_⟩, ?_⟩
    · simp only [inner, hd']
      rfl
    · have hupper := v.toInt_lt
      simp only [ResolvedDomain.between, hv, hleast, List.zipWith_cons_cons, List.zipWith_nil_left,
        Axes.exactVolume, List.map_cons, List.map_nil, List.prod_cons, List.prod_nil, mul_one,
        ResolvedAxis.extent]
      have hlower : (-1 : Int64).toInt = -1 := rfl
      rw [hlower, UInt64.size]
      omega
  obtain ⟨-, hscalar, hnest⟩ := computed_bounds_nest
  obtain ⟨d', hd', hrank, -⟩ := hscalar least (by decide)
  obtain ⟨hserial, hunrolled⟩ := hnest l d (fun _ => least) id inner hspans
  exact ⟨⟨d', hd', hrank⟩, l, c, p, u, hl, hc, hp, hd, hu, hsize, hspans,
    hserial e c p hc hp hd, hunrolled _ _ _ u hl hu hfold⟩

end RangeLoop

end LoopNest
