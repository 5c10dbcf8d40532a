import LoopNest.GroupedIndex
import Mathlib.Data.List.OfFn

/-! Grouped indices as padded tuples. A canonical record is its components followed by zeros, so it
is determined by them, and records of one length are ordered as their components are. -/

namespace LoopNest.GroupedIndex

theorem length_toList_le (g : GroupedIndex) : g.toList.length ≤ maxRank := by
  simp only [toList, List.length_take, Vector.length_toList]
  exact Nat.min_le_right _ _

theorem toList_ofListTruncated_of_le {l : List Int64} (h : l.length ≤ maxRank) :
    (ofListTruncated l).toList = l := by
  rw [toList_ofListTruncated, List.take_of_length_le h]

theorem ofListTruncated_toList {g : GroupedIndex} (h : g.Canonical) :
    ofListTruncated g.toList = g := by
  obtain ⟨len, slots⟩ := g
  obtain ⟨hlen, hzero⟩ := h
  simp only [maxRank] at hlen hzero
  have hcount : (toList ⟨len, slots⟩).length = len.toNat := by
    simp only [toList, List.length_take, Vector.length_toList]
    omega
  simp only [ofListTruncated, hcount, mk.injEq, maxRank, Nat.min_eq_left hlen]
  refine ⟨by simp, ?_⟩
  ext i hi
  simp only [toList, Vector.getElem_ofFn, List.getD_eq_getElem?_getD, List.getElem?_take]
  split
  · simp [hi]
  · rename_i hge
    exact (hzero ⟨i, hi⟩ (by simpa using hge)).symm

theorem toList_slots_ofListTruncated {l : List Int64} (h : l.length ≤ maxRank) :
    (ofListTruncated l).slots.toList = l ++ List.replicate (maxRank - l.length) 0 := by
  rw [maxRank] at h ⊢
  apply List.ext_getElem?
  intro i
  simp only [ofListTruncated]
  grind

theorem compareLex_append_self {l m : List Int64} (rest : List Int64)
    (h : l.length = m.length) :
    List.compareLex Ord.compare (l ++ rest) (m ++ rest) = List.compareLex Ord.compare l m := by
  induction l generalizing m with
  | nil =>
    obtain rfl := List.length_eq_zero_iff.mp h.symm
    exact @Std.ReflCmp.compare_self _ (List.compareLex Ord.compare) _ rest
  | cons x l ih =>
    obtain ⟨y, m, rfl⟩ := List.exists_cons_of_length_eq_add_one h.symm
    simp only [List.cons_append, List.compareLex_cons_cons, ih (Nat.succ.inj h)]

theorem compare_ofListTruncated {l m : List Int64} (hlen : l.length = m.length)
    (h : l.length ≤ maxRank) :
    (ofListTruncated l).compare (ofListTruncated m) = List.compareLex Ord.compare l m := by
  have hcount : (ofListTruncated l).len = (ofListTruncated m).len := by
    simp only [ofListTruncated, hlen]
  rw [compare, hcount, Std.ReflOrd.compare_self, Ordering.eq_then, toList_slots_ofListTruncated h,
    toList_slots_ofListTruncated (hlen ▸ h), ← hlen, compareLex_append_self _ hlen]

end LoopNest.GroupedIndex
