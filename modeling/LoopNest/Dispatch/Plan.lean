import LoopNest.Dispatch.Binding
import LoopNest.Domain.Resolved
import LoopNest.Launch.Error

/-!
Dispatch plans: one flat counter for all axes of a domain. The stride of an axis is the product of
the later sizes, and

  value k = lower k + (flat / stride k) % size k,

so the first axis varies slowest. The map is pure: flat indices may run in any order, and one after
the other up to the first fault is one of them.
-/

namespace LoopNest

def setStride (sizes : List UInt64) (k : Nat) (strides : List UInt64) : List UInt64 :=
  strides.set k (strides.getD (k + 1) 1 * sizes.getD (k + 1) 1)

def rowMajorStrides (sizes : List UInt64) : List UInt64 :=
  (List.range (sizes.length - 1)).foldr (setStride sizes) (List.replicate sizes.length 1)

theorem setStride_succ (s stride : UInt64) (sizes strides : List UInt64) (k : Nat) :
    setStride (s :: sizes) (k + 1) (stride :: strides) = stride :: setStride sizes k strides := rfl

theorem foldr_setStride_succ (s stride : UInt64) (sizes strides : List UInt64) (ks : List Nat) :
    (ks.map Nat.succ).foldr (setStride (s :: sizes)) (stride :: strides) =
      stride :: ks.foldr (setStride sizes) strides := by
  induction ks with
  | nil => rfl
  | cons k ks ih => rw [List.map_cons, List.foldr_cons, ih, setStride_succ, List.foldr_cons]

theorem rowMajorStrides_cons_cons (s t : UInt64) (sizes : List UInt64) :
    rowMajorStrides (s :: t :: sizes) =
      (rowMajorStrides (t :: sizes)).headD 1 * t :: rowMajorStrides (t :: sizes) := by
  have hlater : ((List.range sizes.length).map Nat.succ).foldr (setStride (s :: t :: sizes))
      (List.replicate (sizes.length + 2) 1) = 1 :: rowMajorStrides (t :: sizes) := by
    rw [List.replicate_succ, foldr_setStride_succ]
    rfl
  rw [rowMajorStrides]
  simp only [List.length_cons, Nat.add_sub_cancel, List.range_succ_eq_map,
    List.foldr_cons, hlater]
  simp [setStride, List.head?_eq_getElem?, List.headD_eq_head?_getD]

theorem rowMajorStrides_cons (s : UInt64) (sizes : List UInt64) :
    rowMajorStrides (s :: sizes) = sizes.foldl (· * ·) 1 :: rowMajorStrides sizes := by
  induction sizes generalizing s with
  | nil => rfl
  | cons t sizes ih =>
    have hproduct : sizes.foldl (· * ·) (t * 1) = t * sizes.foldl (· * ·) 1 := List.foldl_assoc
    rw [rowMajorStrides_cons_cons, ih, List.headD_cons, List.foldl_cons, UInt64.one_mul,
      UInt64.mul_comm, ← hproduct, UInt64.mul_one]

@[simp]
theorem length_rowMajorStrides (sizes : List UInt64) :
    (rowMajorStrides sizes).length = sizes.length := by
  induction sizes with
  | nil => rfl
  | cons s sizes ih => simp [rowMajorStrides_cons, ih]

structure DispatchPlan where
  axes : List ResolvedAxis
  sizes : List UInt64
  strides : List UInt64
  total : UInt64
deriving DecidableEq

namespace DispatchPlan

/-- Plans a domain of one to eight axes whose total fits. An empty domain needs no strides. -/
def ofDomain (d : ResolvedDomain) : Except LaunchError DispatchPlan :=
  if d.rank = 0 ∨ maxRank < d.rank then .error (.rank d.rank)
  else
    match d.total? with
    | none => .error (.domainOverflow d.sizes)
    | some total =>
      let strides := if total = 0 then List.replicate d.rank 1 else rowMajorStrides d.sizes
      .ok ⟨d.axes, d.sizes, strides, total⟩

def rank (p : DispatchPlan) : Nat := p.axes.length

def component (flat : UInt64) (axis : ResolvedAxis) : UInt64 × UInt64 → Int64
  | (size, stride) => axis.lower + (flat / stride % size).toInt64

/-- The tuple of a flat index below the total. On a single axis the counter is the offset itself. -/
def map (p : DispatchPlan) (flat : UInt64) : GroupedIndex :=
  match p.axes with
  | [axis] => .ofListTruncated [axis.lower + flat.toInt64]
  | axes => .ofListTruncated (List.zipWith (component flat) axes (p.sizes.zip p.strides))

variable {σ ε : Type}

def iteration (p : DispatchPlan) (binding : Binding) (flat : UInt64) : Iteration :=
  ⟨flat, p.map flat, binding⟩

/-- Runs `count` indices from `flat` on. A fault comes with the index it was raised at. -/
def runFrom (p : DispatchPlan) (binding : Binding) (body : Body σ ε) :
    Nat → UInt64 → σ → Except (UInt64 × ε) Unit × σ
  | 0, _, s => (.ok (), s)
  | count + 1, flat, s =>
    match body (p.iteration binding flat) s with
    | (.ok (), s) => runFrom p binding body count (flat + 1) s
    | (.error e, s) => (.error (flat, e), s)

def run (p : DispatchPlan) (binding : Binding) (body : Body σ ε) (s : σ) :
    Except (UInt64 × ε) Unit × σ :=
  p.runFrom binding body p.total.toNat 0 s

end DispatchPlan

end LoopNest
