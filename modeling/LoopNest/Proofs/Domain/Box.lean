import LoopNest.Domain.Resolved
import LoopNest.Proofs.MixedRadix
import LoopNest.Proofs.Number.WordProduct
import Mathlib.Data.List.Forall2

/-! Tuples of a box of half-open ranges, numbered in row-major order. Places along an axis are exact
even where the axis is wider than the signed words are high: the wrapping sum of a lower bound and
a place below the size is the integer sum.

The total of a domain is the exact product of its sizes wherever that product fits in 64 bits. An
empty axis settles the total before any multiplication can fail. -/

namespace LoopNest

namespace ResolvedAxis

def Contains (a : ResolvedAxis) (v : Int64) : Prop := a.lower ≤ v ∧ v < a.upper

instance (a : ResolvedAxis) (v : Int64) : Decidable (a.Contains v) :=
  inferInstanceAs (Decidable (_ ∧ _))

def nth (a : ResolvedAxis) (k : Nat) : Int64 := a.lower + Int64.ofNat k

def place (a : ResolvedAxis) (v : Int64) : Nat := (v.toInt - a.lower.toInt).toNat

variable {a : ResolvedAxis}

theorem contains_iff {v : Int64} :
    a.Contains v ↔ a.lower.toInt ≤ v.toInt ∧ v.toInt < a.upper.toInt := by
  rw [Contains, Int64.le_iff_toInt_le, Int64.lt_iff_toInt_lt]

theorem toInt_nth_of_le {k : Nat} (h : a.lower.toInt + k ≤ a.upper.toInt) :
    (a.nth k).toInt = a.lower.toInt + k := by
  have hlo := a.lower.le_toInt
  have hup := a.upper.toInt_lt
  rw [nth, ← Int64.ofInt_eq_ofNat, ← Int64.ofInt_toInt a.lower, ← Int64.ofInt_add,
    Int64.toInt_ofInt_of_le (by simp; omega) (by simp; omega)]
  simp

theorem toInt_nth {k : Nat} (h : k < a.size.toNat) : (a.nth k).toInt = a.lower.toInt + k := by
  rw [toNat_size] at h
  exact toInt_nth_of_le (by omega)

theorem contains_nth {k : Nat} (h : k < a.size.toNat) : a.Contains (a.nth k) := by
  rw [contains_iff, toInt_nth h]
  rw [toNat_size] at h
  omega

theorem place_lt {v : Int64} (h : a.Contains v) : a.place v < a.size.toNat := by
  rw [contains_iff] at h
  rw [place, toNat_size]
  omega

theorem nth_place {v : Int64} (h : a.Contains v) : a.nth (a.place v) = v := by
  apply Int64.toInt_inj.mp
  rw [toInt_nth (place_lt h)]
  rw [contains_iff] at h
  rw [place]
  omega

theorem place_nth {k : Nat} (h : k < a.size.toNat) : a.place (a.nth k) = k := by
  rw [place, toInt_nth h]
  omega

theorem nth_succ (k : Nat) : a.nth k + 1 = a.nth (k + 1) := by
  rw [nth, nth, Int64.ofNat_add, Int64.add_assoc]
  rfl

theorem nth_zero : a.nth 0 = a.lower := Int64.add_zero a.lower

theorem nth_succ_lt_upper {k : Nat} (h : k < a.size.toNat) :
    a.nth k + 1 < a.upper ↔ k + 1 < a.size.toNat := by
  rw [toNat_size] at h ⊢
  rw [nth_succ, Int64.lt_iff_toInt_lt, toInt_nth_of_le (by omega)]
  omega

theorem compare_nth {i j : Nat} (hi : i < a.size.toNat) (hj : j < a.size.toNat) :
    compare (a.nth i) (a.nth j) = compare i j := by
  have hlt {p q : Nat} (hp : p < a.size.toNat) (hq : q < a.size.toNat) (h : p < q) :
      a.nth p < a.nth q := by
    rw [Int64.lt_iff_toInt_lt, toInt_nth hp, toInt_nth hq]
    omega
  rcases lt_trichotomy i j with h | h | h
  · rw [Nat.compare_eq_lt.mpr h]
    exact Std.compare_eq_lt.mpr (hlt hi hj h)
  · rw [h, Nat.compare_eq_eq.mpr rfl]
    exact Std.ReflCmp.compare_self
  · rw [Nat.compare_eq_gt.mpr h]
    exact Std.compare_eq_gt.mpr (hlt hj hi h)

end ResolvedAxis

/-! Boxes as lists of axes. -/

namespace Axes

def counts (axes : List ResolvedAxis) : List Nat := axes.map fun a => a.size.toNat

def volume (axes : List ResolvedAxis) : Nat := (counts axes).prod

/-- One value for every axis, each in its range. -/
def Contains (axes : List ResolvedAxis) (values : List Int64) : Prop :=
  List.Forall₂ ResolvedAxis.Contains axes values

instance (axes : List ResolvedAxis) (values : List Int64) : Decidable (Contains axes values) :=
  inferInstanceAs (Decidable (List.Forall₂ _ _ _))

/-- The tuple with a given row-major number. -/
def tuple (axes : List ResolvedAxis) (n : Nat) : List Int64 :=
  List.zipWith ResolvedAxis.nth axes (MixedRadix.digits (counts axes) n)

def number (axes : List ResolvedAxis) (values : List Int64) : Nat :=
  MixedRadix.value (counts axes) (List.zipWith ResolvedAxis.place axes values)

variable {axes : List ResolvedAxis}

theorem volume_cons (a : ResolvedAxis) (axes : List ResolvedAxis) :
    volume (a :: axes) = a.size.toNat * volume axes := List.prod_cons

theorem tuple_cons (a : ResolvedAxis) (axes : List ResolvedAxis) (n : Nat) :
    tuple (a :: axes) n = a.nth (n / volume axes) :: tuple axes (n % volume axes) := rfl

@[simp] theorem length_tuple (axes : List ResolvedAxis) (n : Nat) :
    (tuple axes n).length = axes.length := by
  simp [tuple, counts]

theorem Contains.length_eq {values : List Int64} (h : Contains axes values) :
    values.length = axes.length := (List.Forall₂.length_eq h).symm

theorem contains_zipWith_nth {ds : List Nat} (h : MixedRadix.Within (counts axes) ds) :
    Contains axes (List.zipWith ResolvedAxis.nth axes ds) := by
  induction axes generalizing ds with
  | nil =>
    cases h
    exact .nil
  | cons a axes ih =>
    obtain _ | ⟨hd, hds⟩ := h
    exact .cons (ResolvedAxis.contains_nth hd) (ih hds)

theorem within_zipWith_place {values : List Int64} (h : Contains axes values) :
    MixedRadix.Within (counts axes) (List.zipWith ResolvedAxis.place axes values) := by
  induction h with
  | nil => exact .nil
  | cons hv _ ih => exact .cons (ResolvedAxis.place_lt hv) ih

theorem zipWith_nth_place {values : List Int64} (h : Contains axes values) :
    List.zipWith ResolvedAxis.nth axes (List.zipWith ResolvedAxis.place axes values) = values := by
  induction h with
  | nil => rfl
  | cons hv _ ih => rw [List.zipWith_cons_cons, List.zipWith_cons_cons, ih, ResolvedAxis.nth_place hv]

theorem zipWith_place_nth {ds : List Nat} (h : MixedRadix.Within (counts axes) ds) :
    List.zipWith ResolvedAxis.place axes (List.zipWith ResolvedAxis.nth axes ds) = ds := by
  induction axes generalizing ds with
  | nil =>
    cases h
    rfl
  | cons a axes ih =>
    obtain _ | ⟨hd, hds⟩ := h
    rw [List.zipWith_cons_cons, List.zipWith_cons_cons, ih hds, ResolvedAxis.place_nth hd]

theorem contains_tuple {n : Nat} (h : n < volume axes) : Contains axes (tuple axes n) :=
  contains_zipWith_nth (MixedRadix.within_digits h)

theorem number_lt {values : List Int64} (h : Contains axes values) :
    number axes values < volume axes := MixedRadix.value_lt (within_zipWith_place h)

theorem number_tuple {n : Nat} (h : n < volume axes) : number axes (tuple axes n) = n := by
  rw [number, tuple, zipWith_place_nth (MixedRadix.within_digits h), MixedRadix.value_digits h]

theorem tuple_number {values : List Int64} (h : Contains axes values) :
    tuple axes (number axes values) = values := by
  rw [tuple, number, MixedRadix.digits_value (within_zipWith_place h), zipWith_nth_place h]

theorem tuple_zero (axes : List ResolvedAxis) :
    tuple axes 0 = axes.map ResolvedAxis.lower := by
  induction axes with
  | nil => rfl
  | cons a axes ih => rw [tuple_cons, Nat.zero_div, Nat.zero_mod, ih, a.nth_zero, List.map_cons]

theorem compareLex_zipWith_nth {ds es : List Nat} (hd : MixedRadix.Within (counts axes) ds)
    (he : MixedRadix.Within (counts axes) es) :
    List.compareLex compare (List.zipWith ResolvedAxis.nth axes ds)
      (List.zipWith ResolvedAxis.nth axes es) = List.compareLex compare ds es := by
  induction axes generalizing ds es with
  | nil =>
    cases hd
    cases he
    rfl
  | cons a axes ih =>
    obtain _ | ⟨hd, hds⟩ := hd
    obtain _ | ⟨he, hes⟩ := he
    rw [List.zipWith_cons_cons, List.zipWith_cons_cons, List.compareLex_cons_cons,
      List.compareLex_cons_cons, ResolvedAxis.compare_nth hd he, ih hds hes]

theorem compareLex_tuple {n m : Nat} (hn : n < volume axes) (hm : m < volume axes) :
    List.compareLex compare (tuple axes n) (tuple axes m) = compare n m := by
  rw [tuple, tuple, compareLex_zipWith_nth (MixedRadix.within_digits hn)
    (MixedRadix.within_digits hm), MixedRadix.compareLex_digits hn hm]

end Axes

namespace ResolvedDomain

theorem map_toNat_sizes (d : ResolvedDomain) : d.sizes.map UInt64.toNat = Axes.counts d.axes := by
  rw [sizes, List.map_map]
  rfl

theorem volume_eq (d : ResolvedDomain) : d.volume = Axes.volume d.axes := by
  rw [volume, map_toNat_sizes, Axes.volume, List.prod_eq_foldl]

theorem volume_eq_zero_iff (d : ResolvedDomain) : Axes.volume d.axes = 0 ↔ 0 ∈ d.sizes := by
  rw [Axes.volume, ← map_toNat_sizes, prod_map_toNat_eq_zero_iff]

theorem total?_eq (d : ResolvedDomain) :
    d.total? =
      if Axes.volume d.axes < UInt64.size then some (Axes.volume d.axes).toUInt64 else none := by
  rw [total?]
  by_cases h : 0 ∈ d.sizes
  · rw [if_pos (List.elem_eq_true_of_mem h), d.volume_eq_zero_iff.mpr h]
    rfl
  · rw [if_neg (by simpa using h), mulCounts?, foldlM_mulCount? (by decide) h, map_toNat_sizes]
    simp [Axes.volume]

theorem total?_eq_some_iff {d : ResolvedDomain} {total : UInt64} :
    d.total? = some total ↔ Axes.volume d.axes = total.toNat := by
  rw [total?_eq]
  split
  · rename_i h
    rw [Option.some.injEq, ← UInt64.toNat_inj, toNat_toUInt64_of_lt h]
  · rename_i h
    simp only [reduceCtorEq, false_iff]
    intro heq
    exact h (heq ▸ total.toNat_lt)

end ResolvedDomain

end LoopNest
