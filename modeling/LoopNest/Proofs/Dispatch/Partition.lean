import LoopNest.Dispatch.Binding
import LoopNest.Proofs.GroupedIndex
import Mathlib.Data.List.Basic

/-! Loop variables as a partition of the axes. The groups of a binding follow one another from the
first axis to the last, so the values of the variables put together again are the index. -/

namespace LoopNest

/-- Groups that follow one another from `start` to `stop`, without gaps. -/
def Tiles (start stop : Nat) : List AxisGroup → Prop
  | [] => start = stop
  | g :: groups => g.start = start ∧ start ≤ g.stop ∧ Tiles g.stop stop groups

namespace AxisGroup

def pick (g : AxisGroup) (values : List Int64) : List Int64 :=
  (values.drop g.start).take (g.stop - g.start)

theorem length_pick {g : AxisGroup} {values : List Int64} (h : g.stop ≤ values.length) :
    (g.pick values).length = g.stop - g.start := by
  rw [pick, List.length_take, List.length_drop]
  omega

theorem pick_single {k : Nat} {values : List Int64} (h : k < values.length) :
    (⟨k, k + 1⟩ : AxisGroup).pick values = [values[k]] := by
  have hcount : k + 1 - k = 1 := by omega
  rw [pick, List.drop_eq_getElem_cons h, hcount]
  rfl

end AxisGroup

namespace Tiles

variable {start stop : Nat} {groups : List AxisGroup}

theorem le (h : Tiles start stop groups) : start ≤ stop := by
  induction groups generalizing start with
  | nil => exact Nat.le_of_eq h
  | cons g groups ih => exact h.2.1.trans (ih h.2.2)

theorem bounds (h : Tiles start stop groups) : ∀ g ∈ groups, g.start ≤ g.stop ∧ g.stop ≤ stop := by
  induction groups generalizing start with
  | nil => simp
  | cons g groups ih =>
    obtain ⟨rfl, hle, hrest⟩ := h
    exact List.forall_mem_cons.mpr ⟨⟨hle, le hrest⟩, ih hrest⟩

theorem append {mid : Nat} {later : List AxisGroup} (h : Tiles start mid groups)
    (hlater : Tiles mid stop later) : Tiles start stop (groups ++ later) := by
  induction groups generalizing start with
  | nil =>
    obtain rfl := h
    exact hlater
  | cons g groups ih => exact ⟨h.1, h.2.1, ih h.2.2⟩

/-- What the groups pick, one after the other, is everything from `start` to `stop`. -/
theorem flatMap_pick (h : Tiles start stop groups) (values : List Int64) :
    groups.flatMap (·.pick values) = (values.drop start).take (stop - start) := by
  induction groups generalizing start with
  | nil =>
    obtain rfl := h
    simp
  | cons g groups ih =>
    obtain ⟨rfl, hle, hrest⟩ := h
    have hstop := hrest.le
    have hsplit : stop - g.start = (g.stop - g.start) + (stop - g.stop) := by omega
    have hskip : g.start + (g.stop - g.start) = g.stop := by omega
    rw [List.flatMap_cons, ih hrest, hsplit, List.take_add, List.drop_drop, hskip]
    rfl

theorem singles (count : Nat) :
    Tiles 0 count ((List.range count).map fun k => ⟨k, k + 1⟩) := by
  induction count with
  | zero => rfl
  | succ count ih =>
    rw [List.range_succ, List.map_append]
    exact ih.append ⟨rfl, Nat.le_succ count, rfl⟩

end Tiles

namespace Binding

variable {b : Binding} {index : GroupedIndex} {g : AxisGroup} {k : Nat}

def value (b : Binding) (index : GroupedIndex) (g : AxisGroup) : LoopVar :=
  if !b.grouped && g.stop == g.start + 1 then .scalar (index.toList.getD g.start 0)
  else .grouped (.ofListTruncated (g.pick index.toList))

theorem bind?_eq_value (hg : b.groups[k]? = some g) (hle : g.start ≤ g.stop)
    (hstop : g.stop ≤ index.toList.length) : b.bind? k index = some (b.value index g) := by
  rw [bind?, hg, Option.bind_eq_bind, Option.bind_some, value]
  by_cases hsingle : !b.grouped && g.stop == g.start + 1
  · rw [if_pos hsingle, if_pos hsingle]
    have hlt : g.start < index.toList.length := by
      rw [Bool.and_eq_true, beq_iff_eq] at hsingle
      omega
    simp [GroupedIndex.get?, hlt]
  · rw [if_neg hsingle, if_neg hsingle, GroupedIndex.slice?, if_pos ⟨hle, hstop⟩]
    rfl

theorem value_single (hb : b.grouped = false) (hk : k < index.toList.length) :
    b.value index ⟨k, k + 1⟩ = .scalar index.toList[k] := by
  rw [value, hb]
  simp [hk]

theorem value_group (h : b.grouped = true ∨ g.start + 1 < g.stop) :
    b.value index g = .grouped (.ofListTruncated (g.pick index.toList)) := by
  refine if_neg fun hsingle => ?_
  simp only [Bool.and_eq_true, Bool.not_eq_true', beq_iff_eq] at hsingle
  obtain hb | hlt := h
  · rw [hb] at hsingle
    exact absurd hsingle.1 Bool.noConfusion
  · omega

theorem toList_value (hstop : g.stop ≤ index.toList.length)
    (hrank : index.toList.length ≤ maxRank) :
    (b.value index g).toList = g.pick index.toList := by
  rw [value]
  split
  · rename_i hsingle
    rw [Bool.and_eq_true, beq_iff_eq] at hsingle
    obtain ⟨start, stop⟩ := g
    obtain rfl : stop = start + 1 := hsingle.2
    rw [AxisGroup.pick_single hstop]
    simp [LoopVar.toList, Nat.lt_of_succ_le hstop]
  · refine GroupedIndex.toList_ofListTruncated_of_le ?_
    rw [AxisGroup.length_pick hstop]
    omega

theorem filterMap_range_getElem? {α β : Type} (l : List α) (f : α → β) :
    (List.range l.length).filterMap (fun k => l[k]?.map f) = l.map f := by
  induction l with
  | nil => rfl
  | cons a l ih =>
    rw [List.length_cons, List.range_succ_eq_map, List.filterMap_cons, List.filterMap_map,
      List.map_cons, ← ih]
    rfl

theorem bind?_eq_none (h : b.groups.length ≤ k) : b.bind? k index = none := by
  rw [bind?, List.getElem?_eq_none h]
  rfl

section Tiled

variable (htiles : Tiles 0 index.toList.length b.groups)

include htiles

theorem bind?_eq_map (k : Nat) : b.bind? k index = b.groups[k]?.map (b.value index) := by
  cases hg : b.groups[k]? with
  | none => exact bind?_eq_none (List.getElem?_eq_none_iff.mp hg)
  | some g =>
    obtain ⟨hle, hstop⟩ := htiles.bounds g (List.mem_of_getElem? hg)
    exact bind?_eq_value hg hle hstop

theorem isSome_bind?_iff : (b.bind? k index).isSome ↔ k < b.varCount := by
  rw [bind?_eq_map htiles, varCount]
  simp

theorem flatMap_toList_vars (hrank : index.toList.length ≤ maxRank) (flat : UInt64) :
    (Iteration.vars ⟨flat, index, b⟩).flatMap LoopVar.toList = index.toList := by
  have hvars : Iteration.vars ⟨flat, index, b⟩ = b.groups.map (b.value index) := by
    have hvar : Iteration.var? ⟨flat, index, b⟩ = fun k => b.groups[k]?.map (b.value index) :=
      funext fun k => bind?_eq_map htiles k
    rw [Iteration.vars, hvar]
    exact filterMap_range_getElem? _ _
  rw [hvars, List.flatMap_map]
  calc
    b.groups.flatMap (fun g => (b.value index g).toList)
      = b.groups.flatMap (·.pick index.toList) :=
        List.flatMap_congr fun g hg => toList_value (htiles.bounds g hg).2 hrank
    _ = index.toList := by rw [htiles.flatMap_pick]; simp

end Tiled

theorem tiles_ofVars? {count rank : Nat} (h : ofVars? count rank = some b) :
    Tiles 0 rank b.groups := by
  rw [ofVars?] at h
  split at h
  · cases h
  · cases h
    have hle : count - 1 ≤ rank := by omega
    exact (Tiles.singles (count - 1)).append ⟨rfl, hle, rfl⟩

end Binding

end LoopNest
