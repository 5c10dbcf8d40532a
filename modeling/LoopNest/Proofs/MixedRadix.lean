import Mathlib.Algebra.BigOperators.Group.List.Basic
import Mathlib.Algebra.Order.Group.Nat
import Mathlib.Tactic.Linarith
import Mathlib.Tactic.Ring

/-! Mixed-radix numerals over unbounded naturals, most significant digit first. The radices are the
sizes of the axes of a box or the extents of a buffer; both number their cells this way. Machine
words enter only in the modules that use this one. -/

namespace LoopNest.MixedRadix

/-- The digits of `n`. A number below the product of the sizes has every digit below its size. -/
def digits : List Nat → Nat → List Nat
  | [], _ => []
  | _ :: sizes, n => n / sizes.prod :: digits sizes (n % sizes.prod)

def value : List Nat → List Nat → Nat
  | _ :: sizes, d :: ds => d * sizes.prod + value sizes ds
  | _, _ => 0

def Within (sizes ds : List Nat) : Prop := List.Forall₂ (fun s d => d < s) sizes ds

def weights : List Nat → List Nat
  | [] => []
  | _ :: sizes => sizes.prod :: weights sizes

theorem prod_tail_pos {s n : Nat} {sizes : List Nat} (h : n < (s :: sizes).prod) :
    0 < sizes.prod := by
  rw [List.prod_cons] at h
  exact Nat.pos_of_ne_zero fun h0 => by simp [h0] at h

@[simp] theorem length_digits (sizes : List Nat) (n : Nat) :
    (digits sizes n).length = sizes.length := by
  induction sizes generalizing n with
  | nil => rfl
  | cons s sizes ih => simp [digits, ih]

theorem within_digits {sizes : List Nat} {n : Nat} (h : n < sizes.prod) :
    Within sizes (digits sizes n) := by
  induction sizes generalizing n with
  | nil => exact .nil
  | cons s sizes ih =>
    have hpos := prod_tail_pos h
    rw [List.prod_cons] at h
    exact .cons ((Nat.div_lt_iff_lt_mul hpos).mpr h) (ih (Nat.mod_lt n hpos))

theorem value_digits {sizes : List Nat} {n : Nat} (h : n < sizes.prod) :
    value sizes (digits sizes n) = n := by
  induction sizes generalizing n with
  | nil =>
    have hn : n = 0 := by simpa using h
    simp [value, hn]
  | cons s sizes ih =>
    rw [digits, value, ih (Nat.mod_lt n (prod_tail_pos h)), mul_comm]
    exact Nat.div_add_mod n sizes.prod

theorem value_lt {sizes ds : List Nat} (h : Within sizes ds) : value sizes ds < sizes.prod := by
  induction h with
  | nil => simp [value]
  | @cons s d sizes ds hd _ ih =>
    have hle : (d + 1) * sizes.prod ≤ s * sizes.prod := Nat.mul_le_mul_right _ hd
    rw [value, List.prod_cons]
    linarith

theorem digits_value {sizes ds : List Nat} (h : Within sizes ds) :
    digits sizes (value sizes ds) = ds := by
  induction h with
  | nil => rfl
  | @cons s d sizes ds _ hds ih =>
    have hlt := value_lt hds
    have hpos : 0 < sizes.prod := by omega
    have hdiv : (d * sizes.prod + value sizes ds) / sizes.prod = d := by
      rw [mul_comm, Nat.mul_add_div hpos, Nat.div_eq_of_lt hlt, add_zero]
    have hmod : (d * sizes.prod + value sizes ds) % sizes.prod = value sizes ds := by
      rw [mul_comm, Nat.mul_add_mod, Nat.mod_eq_of_lt hlt]
    rw [value, digits, hdiv, hmod, ih]

theorem value_inj {sizes ds es : List Nat} (hd : Within sizes ds) (he : Within sizes es)
    (h : value sizes ds = value sizes es) : ds = es := by
  rw [← digits_value hd, h, digits_value he]

theorem value_append {sizes ds : List Nat} (h : sizes.length = ds.length) (later es : List Nat) :
    value (sizes ++ later) (ds ++ es) = value sizes ds * later.prod + value later es := by
  induction sizes generalizing ds with
  | nil =>
    obtain rfl := List.length_eq_zero_iff.mp h.symm
    simp [value]
  | cons s sizes ih =>
    obtain ⟨d, ds, rfl⟩ := List.exists_cons_of_length_eq_add_one h.symm
    rw [List.cons_append, List.cons_append, value, value, ih (Nat.succ.inj h), List.prod_append]
    ring

theorem le_of_mem_digits {sizes : List Nat} {n d : Nat} (h : d ∈ digits sizes n) : d ≤ n := by
  induction sizes generalizing n with
  | nil => cases h
  | cons s sizes ih =>
    rcases List.mem_cons.mp h with rfl | hd
    · exact Nat.div_le_self ..
    · exact (ih hd).trans (Nat.mod_le ..)

theorem Within.forall_lt {sizes ds : List Nat} (h : Within sizes ds) {bound : Nat}
    (hsizes : ∀ s ∈ sizes, s ≤ bound) : ∀ d ∈ ds, d < bound := by
  induction h with
  | nil => simp
  | cons hd _ ih =>
    obtain ⟨hs, hsizes⟩ := List.forall_mem_cons.mp hsizes
    exact List.forall_mem_cons.mpr ⟨hd.trans_le hs, ih hsizes⟩

/-- All numerals below the sizes in lexicographic order: the last digit counts fastest. -/
def numerals : List Nat → List (List Nat)
  | [] => [[]]
  | s :: sizes => (List.range s).flatMap fun d => (numerals sizes).map (d :: ·)

theorem within_iff_mem_numerals {sizes ds : List Nat} : Within sizes ds ↔ ds ∈ numerals sizes := by
  induction sizes generalizing ds with
  | nil => rw [Within, List.forall₂_nil_left_iff, numerals, List.mem_singleton]
  | cons s sizes ih =>
    simp only [Within, List.forall₂_cons_left_iff, numerals, List.mem_flatMap, List.mem_range,
      List.mem_map]
    constructor
    · rintro ⟨d, ds, hd, hds, rfl⟩
      exact ⟨d, hd, ds, ih.mp hds, rfl⟩
    · rintro ⟨d, hd, ds, hds, rfl⟩
      exact ⟨d, ds, hd, ih.mpr hds, rfl⟩

theorem numerals_append (sizes later : List Nat) :
    numerals (sizes ++ later) =
      (numerals sizes).flatMap fun ds => (numerals later).map (ds ++ ·) := by
  induction sizes with
  | nil => simp [numerals]
  | cons s sizes ih =>
    simp only [List.cons_append, numerals, ih, List.flatMap_assoc, List.flatMap_map,
      List.map_flatMap, List.map_map]
    rfl

theorem range_mul (s v : Nat) :
    (List.range s).flatMap (fun d => (List.range v).map (d * v + ·)) = List.range (s * v) := by
  induction s with
  | zero => simp
  | succ s ih =>
    rw [List.range_succ, List.flatMap_append, ih, Nat.succ_mul, List.range_add]
    simp

theorem map_value_numerals (sizes : List Nat) :
    (numerals sizes).map (value sizes) = List.range sizes.prod := by
  induction sizes with
  | nil => rfl
  | cons s sizes ih =>
    rw [List.prod_cons, ← range_mul, ← ih]
    simp [numerals, List.map_flatMap, value, Function.comp_def]

theorem zipWith_weights (sizes : List Nat) (n : Nat) :
    List.zipWith (fun s w => n / w % s) sizes (weights sizes) = digits sizes (n % sizes.prod) := by
  induction sizes with
  | nil => rfl
  | cons s sizes ih =>
    rw [weights, List.zipWith_cons_cons, ih, digits, List.prod_cons, mul_comm s,
      Nat.mod_mul_right_div_self, Nat.mod_mul_right_mod]

theorem succ_of_lt {n v : Nat} (h : n % v + 1 < v) :
    (n + 1) / v = n / v ∧ (n + 1) % v = n % v + 1 := by
  rw [Nat.div_mod_unique (by omega)]
  have hn := Nat.div_add_mod n v
  omega

theorem succ_of_eq {n v : Nat} (h : n % v + 1 = v) :
    (n + 1) / v = n / v + 1 ∧ (n + 1) % v = 0 := by
  rw [Nat.div_mod_unique (by omega), mul_add]
  have hn := Nat.div_add_mod n v
  omega

theorem compare_div_mod {v : Nat} (hv : 0 < v) (n m : Nat) :
    compare n m = (compare (n / v) (m / v)).then (compare (n % v) (m % v)) := by
  have hn := Nat.div_add_mod n v
  have hm := Nat.div_add_mod m v
  have hnl := Nat.mod_lt n hv
  have hml := Nat.mod_lt m hv
  rcases lt_trichotomy (n / v) (m / v) with h | h | h
  · have hstep : v * (n / v) + v ≤ v * (m / v) := Nat.mul_le_mul_left v h
    rw [Nat.compare_eq_lt.mpr h, Nat.compare_eq_lt.mpr (by omega)]
    rfl
  · rw [h] at hn
    rw [h, Nat.compare_eq_eq.mpr rfl, Ordering.eq_then]
    rcases lt_trichotomy (n % v) (m % v) with hl | hl | hl
    · rw [Nat.compare_eq_lt.mpr hl, Nat.compare_eq_lt.mpr (by omega)]
    · rw [Nat.compare_eq_eq.mpr hl, Nat.compare_eq_eq.mpr (by omega)]
    · rw [Nat.compare_eq_gt.mpr hl, Nat.compare_eq_gt.mpr (by omega)]
  · have hstep : v * (m / v) + v ≤ v * (n / v) := Nat.mul_le_mul_left v h
    rw [Nat.compare_eq_gt.mpr h, Nat.compare_eq_gt.mpr (by omega)]
    rfl

theorem compareLex_digits {sizes : List Nat} {n m : Nat} (hn : n < sizes.prod)
    (hm : m < sizes.prod) :
    List.compareLex compare (digits sizes n) (digits sizes m) = compare n m := by
  induction sizes generalizing n m with
  | nil =>
    obtain rfl : n = 0 := by simpa using hn
    obtain rfl : m = 0 := by simpa using hm
    rfl
  | cons s sizes ih =>
    have hpos := prod_tail_pos hn
    rw [digits, digits, List.compareLex_cons_cons, ih (Nat.mod_lt n hpos) (Nat.mod_lt m hpos),
      compare_div_mod hpos n m]

theorem compare_value {sizes ds es : List Nat} (hd : Within sizes ds) (he : Within sizes es) :
    compare (value sizes ds) (value sizes es) = List.compareLex compare ds es := by
  rw [← compareLex_digits (value_lt hd) (value_lt he), digits_value hd, digits_value he]

end LoopNest.MixedRadix
