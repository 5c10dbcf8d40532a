import LoopNest.Loop.Basic
import LoopNest.Proofs.Number.WordProduct
import Mathlib.Data.List.Nodup

/-! Launches on a pool of workers. The pool itself is not modelled, only what it is relied on for. A
body counts as one step, as it does when it makes a single store; a run is then the list of the
indices that ran, in the order in which they took effect. The row-major launch is one such run. -/

namespace LoopNest

namespace DispatchPlan

variable {σ ε : Type}

/-- Runs the body at the given flat indices. A fault does not keep the later ones from running, and
every fault is kept with its index. -/
def runAt (p : DispatchPlan) (binding : Binding) (body : Body σ ε) :
    List UInt64 → σ → List (UInt64 × ε) × σ
  | [], s => ([], s)
  | flat :: order, s =>
    match body (p.iteration binding flat) s with
    | (.ok (), s) => runAt p binding body order s
    | (.error e, s) =>
      let (faults, s) := runAt p binding body order s
      ((flat, e) :: faults, s)

end DispatchPlan

/-- What a pool did with a plan, and what it returned. No index runs twice. It succeeds only after
every index ran without a fault; any fault it returns was raised. -/
structure PoolRun {σ ε : Type} (p : DispatchPlan) (binding : Binding) (body : Body σ ε) (s : σ) where
  order : List UInt64
  outcome : Except (UInt64 × ε) Unit
  nodup : order.Nodup
  lt_total : ∀ flat ∈ order, flat < p.total
  complete : outcome = .ok () →
    (∀ flat < p.total, flat ∈ order) ∧ (p.runAt binding body order s).1 = []
  raised : ∀ fault, outcome = .error fault → fault ∈ (p.runAt binding body order s).1

def CompiledLoop.answer (l : CompiledLoop) (p : DispatchPlan) (warnings : Bool) :
    Except (UInt64 × KernelFault) Unit → Except LaunchError LaunchReport
  | .ok () => .ok (l.report p warnings)
  | .error (flat, fault) => .error (.fault flat fault)

def ExecutionContext.launchOn {σ : Type} (c : ExecutionContext) (l : CompiledLoop)
    (args : KernelArgs) (body : Body σ KernelFault) (s : σ)
    (pool : ∀ p, PoolRun p l.binding body s) : Except LaunchError LaunchReport × σ :=
  match l.plan (c.evaluator args) with
  | .error error => (.error error, s)
  | .ok p =>
    (l.answer p c.settings.arityWarnings (pool p).outcome,
      (p.runAt l.binding body (pool p).order s).2)

def flats (n : Nat) : List UInt64 := (List.range n).map Nat.toUInt64

theorem nodup_flats {n : Nat} (h : n ≤ UInt64.size) : (flats n).Nodup := by
  refine List.Nodup.map_on (fun i hi j hj hij => ?_) List.nodup_range
  rw [List.mem_range] at hi hj
  rw [← toNat_toUInt64_of_lt (by omega : i < UInt64.size), hij, toNat_toUInt64_of_lt (by omega)]

theorem mem_flats {n : Nat} (h : n ≤ UInt64.size) {flat : UInt64} :
    flat ∈ flats n ↔ flat.toNat < n := by
  simp only [flats, List.mem_map, List.mem_range]
  constructor
  · rintro ⟨i, hi, rfl⟩
    rw [toNat_toUInt64_of_lt (by omega : i < UInt64.size)]
    exact hi
  · exact fun hflat => ⟨flat.toNat, hflat, UInt64.ofNat_toNat⟩

theorem PoolRun.perm_flats {σ ε : Type} {p : DispatchPlan} {binding : Binding} {body : Body σ ε}
    {s : σ} (pool : PoolRun p binding body s) (h : (p.runAt binding body pool.order s).1 = []) :
    pool.outcome = .ok () ∧ pool.order.Perm (flats p.total.toNat) := by
  have hok : pool.outcome = .ok () := by
    cases houtcome : pool.outcome with
    | ok => rfl
    | error fault =>
      have hraised := pool.raised fault houtcome
      rw [h] at hraised
      cases hraised
  have hsize := p.total.toNat_lt.le
  refine ⟨hok, (List.perm_ext_iff_of_nodup pool.nodup (nodup_flats hsize)).mpr fun flat => ?_⟩
  rw [mem_flats hsize, ← UInt64.lt_iff_toNat_lt]
  exact ⟨pool.lt_total flat, (pool.complete hok).1 flat⟩

namespace DispatchPlan

variable {σ ε : Type} (p : DispatchPlan) (binding : Binding) (body : Body σ ε)

def backwardRun (s : σ) : PoolRun p binding body s where
  order := (flats p.total.toNat).reverse
  outcome :=
    match (p.runAt binding body (flats p.total.toNat).reverse s).1 with
    | [] => .ok ()
    | fault :: _ => .error fault
  nodup := List.nodup_reverse.mpr (nodup_flats p.total.toNat_lt.le)
  lt_total := by
    intro flat hflat
    rw [List.mem_reverse, mem_flats p.total.toNat_lt.le] at hflat
    exact UInt64.lt_iff_toNat_lt.mpr hflat
  complete := by
    intro hok
    split at hok
    · rename_i hnone
      refine ⟨fun flat hflat => ?_, hnone⟩
      rw [List.mem_reverse, mem_flats p.total.toNat_lt.le]
      exact UInt64.lt_iff_toNat_lt.mp hflat
    · cases hok
  raised := by
    intro fault hfault
    split at hfault
    · cases hfault
    · rename_i hfaults
      cases hfault
      rw [hfaults]
      exact List.mem_cons_self ..

/-- The indices that a row-major run gets to. -/
def ranFrom : Nat → UInt64 → σ → List UInt64
  | 0, _, _ => []
  | count + 1, flat, s =>
    match body (p.iteration binding flat) s with
    | (.ok (), s) => flat :: ranFrom count (flat + 1) s
    | (.error _, _) => [flat]

theorem runAt_ranFrom (count : Nat) (flat : UInt64) (s : σ) :
    p.runAt binding body (p.ranFrom binding body count flat s) s =
      (match (p.runFrom binding body count flat s).1 with
        | .ok () => []
        | .error fault => [fault],
        (p.runFrom binding body count flat s).2) := by
  induction count generalizing flat s with
  | zero => rfl
  | succ count ih =>
    rw [ranFrom, runFrom]
    rcases hbody : body (p.iteration binding flat) s with ⟨_ | _, s'⟩
    -- The order ends where the run stops, so nothing is left to run after the fault.
    · simp [runAt, hbody]
    · simp [runAt, hbody, ih]

theorem ranFrom_eq (count : Nat) (flat : UInt64) (s : σ)
    (h : flat.toNat + count < UInt64.size) :
    ∃ n ≤ count, p.ranFrom binding body count flat s =
        (List.range' flat.toNat n).map Nat.toUInt64 ∧
      ((p.runFrom binding body count flat s).1 = .ok () → n = count) := by
  induction count generalizing flat s with
  | zero => exact ⟨0, Nat.le_refl 0, rfl, fun _ => rfl⟩
  | succ count ih =>
    have hflat : flat.toNat.toUInt64 = flat := UInt64.ofNat_toNat
    rw [ranFrom, runFrom]
    rcases hbody : body (p.iteration binding flat) s with ⟨_ | _, s'⟩
    · exact ⟨1, by omega, by simp [hflat], by simp⟩
    · have hnext := toNat_succ (by omega : flat.toNat + 1 < UInt64.size)
      obtain ⟨n, hn, hran, hall⟩ := ih (flat + 1) s' (by omega)
      refine ⟨n + 1, by omega, ?_, fun hok => congrArg (· + 1) (hall hok)⟩
      simp only [hran, hnext, List.range'_succ, List.map_cons, hflat]

theorem exists_ranFrom_eq (s : σ) :
    ∃ n ≤ p.total.toNat, p.ranFrom binding body p.total.toNat 0 s = flats n ∧
      ((p.run binding body s).1 = .ok () → n = p.total.toNat) := by
  simpa [List.range_eq_range', run, flats] using
    p.ranFrom_eq binding body p.total.toNat 0 s (by simpa using p.total.toNat_lt)

def serialRun (s : σ) : PoolRun p binding body s where
  order := p.ranFrom binding body p.total.toNat 0 s
  outcome := (p.run binding body s).1
  nodup := by
    obtain ⟨n, hn, hran, -⟩ := p.exists_ranFrom_eq binding body s
    rw [hran]
    exact nodup_flats (hn.trans p.total.toNat_lt.le)
  lt_total := by
    intro flat hflat
    obtain ⟨n, hn, hran, -⟩ := p.exists_ranFrom_eq binding body s
    rw [hran, mem_flats (hn.trans p.total.toNat_lt.le)] at hflat
    exact UInt64.lt_iff_toNat_lt.mpr (hflat.trans_le hn)
  complete := by
    intro hok
    obtain ⟨n, -, hran, hall⟩ := p.exists_ranFrom_eq binding body s
    refine ⟨fun flat hflat => ?_, ?_⟩
    · rw [hran, hall hok, mem_flats p.total.toNat_lt.le]
      exact UInt64.lt_iff_toNat_lt.mp hflat
    · rw [run] at hok
      rw [runAt_ranFrom, hok]
  raised := by
    intro fault hfault
    rw [run] at hfault
    rw [runAt_ranFrom, hfault]
    exact List.mem_singleton_self fault

end DispatchPlan

theorem ExecutionContext.launch_eq_launchOn {σ : Type} (c : ExecutionContext) (l : CompiledLoop)
    (args : KernelArgs) (body : Body σ KernelFault) (s : σ) :
    c.launch l args body s =
      c.launchOn l args body s fun p => p.serialRun l.binding body s := by
  rw [launch, launchOn]
  cases hplan : l.plan (c.evaluator args) with
  | error error => rfl
  | ok p =>
    simp only [DispatchPlan.serialRun, DispatchPlan.runAt_ranFrom, DispatchPlan.run]
    rcases p.runFrom l.binding body p.total.toNat 0 s with ⟨_ | _, s'⟩ <;> rfl

end LoopNest
