import LoopNest.Loop.Basic
import LoopNest.Proofs.Dispatch.Partition

/-! What a checked header makes of an index. Its variables share out the components, each of them
one or more axes, in order and without gaps. -/

namespace LoopNest

namespace Binding

variable {b : Binding} {count rank : Nat}

theorem groups_ofVars? (h : ofVars? count rank = some b) :
    (0 < count ∧ count ≤ rank) ∧ b.grouped = false ∧
      (∀ k < count - 1, b.groups[k]? = some ⟨k, k + 1⟩) ∧
      b.groups[count - 1]? = some ⟨count - 1, rank⟩ := by
  refine ⟨ofVars?_isSome_iff.mp (Option.isSome_of_eq_some h), ?_⟩
  rw [ofVars?] at h
  split at h
  · cases h
  · cases h
    refine ⟨rfl, fun k hk => ?_, ?_⟩
    · simp [List.getElem?_append_left, hk]
    · simp

end Binding

/-- The variables of an iteration share out the components of its index as its header says: all of
them to one group; one to each variable; or one to each variable but the last, and the rest to that
one. -/
structure Iteration.SharesOut (it : Iteration) (targets : LoopTargets) : Prop where
  isSome_var?_iff : ∀ k, (it.var? k).isSome ↔ k < it.binding.varCount
  concat : it.vars.flatMap LoopVar.toList = it.index.toList
  whole : targets = .grouped →
    it.binding.varCount = 1 ∧ ∃ g, it.var? 0 = some (.grouped g) ∧ g.toList = it.index.toList
  perAxis : ∀ n, targets = .vars n → n = it.index.toList.length →
    it.binding.varCount = n ∧
      ∀ k < n, ∃ v, it.index.toList[k]? = some v ∧ it.var? k = some (.scalar v)
  tail : ∀ n, targets = .vars n → n < it.index.toList.length →
    it.binding.varCount = n ∧
      (∀ k < n - 1, ∃ v, it.index.toList[k]? = some v ∧ it.var? k = some (.scalar v)) ∧
      ∃ g, it.var? (n - 1) = some (.grouped g) ∧ g.toList = it.index.toList.drop (n - 1) ∧
        g.toList.length = it.index.toList.length - n + 1

namespace RangeLoop

def BindsFewer (l : RangeLoop) : Prop := ∃ n, l.targets = .vars n ∧ n < l.domain.rank

/-- A grouped header, or one with at least one variable and no more than there are axes. -/
def HeaderFits (l : RangeLoop) : Prop := ∀ n, l.targets = .vars n → 0 < n ∧ n ≤ l.domain.rank

variable {l : RangeLoop} {c : CompiledLoop}

theorem compile_cases (h : l.compile = .ok c) :
    (l.targets = .grouped ∧ c = ⟨l.domain, .whole l.domain.rank, none⟩) ∨
      ∃ n b, l.targets = .vars n ∧ Binding.ofVars? n l.domain.rank = some b ∧
        c = ⟨l.domain, b, if n < l.domain.rank then
          some (arityWarning l.domain.callSite.source n l.domain.rank) else none⟩ := by
  rw [compile] at h
  split at h
  · rename_i htargets
    cases h
    exact .inl ⟨htargets, rfl⟩
  · rename_i n htargets
    split at h
    · cases h
    · rename_i b hb
      cases h
      exact .inr ⟨n, b, htargets, hb, rfl⟩

theorem exists_compile_iff : (∃ c, l.compile = .ok c) ↔ l.HeaderFits := by
  constructor
  · rintro ⟨c, hc⟩ n hn
    obtain ⟨htargets, -⟩ | ⟨m, b, htargets, hb, -⟩ := compile_cases hc
    · rw [hn] at htargets
      cases htargets
    · rw [hn] at htargets
      cases htargets
      exact (Binding.groups_ofVars? hb).1
  · intro hfits
    rw [compile]
    split
    · exact ⟨_, rfl⟩
    · rename_i n htargets
      obtain ⟨b, hb⟩ := Option.isSome_iff_exists.mp
        (Binding.ofVars?_isSome_iff.mpr (hfits n htargets))
      rw [hb]
      exact ⟨_, rfl⟩

theorem exists_compile_error_iff :
    (∃ error, l.compile = .error error) ↔
      ∃ n, l.targets = .vars n ∧ (n = 0 ∨ l.domain.rank < n) := by
  have hok : (∃ error, l.compile = .error error) ↔ ¬∃ c, l.compile = .ok c := by
    cases l.compile <;> simp
  rw [hok, exists_compile_iff, HeaderFits, not_forall]
  refine exists_congr fun n => ?_
  rw [Classical.not_imp]
  exact and_congr_right fun _ => by omega

theorem tiles_of_compile (h : l.compile = .ok c) : Tiles 0 l.domain.rank c.binding.groups := by
  obtain ⟨-, rfl⟩ | ⟨n, b, -, hb, rfl⟩ := compile_cases h
  · exact ⟨rfl, Nat.zero_le _, rfl⟩
  · exact Binding.tiles_ofVars? hb

section SharesOut

variable {it : Iteration} (hc : l.compile = .ok c) (hbinding : it.binding = c.binding)
  (hlength : it.index.toList.length = l.domain.rank)

include hc hbinding hlength

theorem var?_eq_map (k : Nat) :
    it.var? k = it.binding.groups[k]?.map (it.binding.value it.index) := by
  have htiles := tiles_of_compile hc
  rw [← hlength, ← hbinding] at htiles
  exact Binding.bind?_eq_map htiles k

theorem var?_single {k : Nat} (hb : it.binding.grouped = false)
    (hg : it.binding.groups[k]? = some ⟨k, k + 1⟩) (hk : k < l.domain.rank) :
    ∃ v, it.index.toList[k]? = some v ∧ it.var? k = some (.scalar v) := by
  rw [← hlength] at hk
  refine ⟨it.index.toList[k], List.getElem?_eq_getElem hk, ?_⟩
  rw [var?_eq_map hc hbinding hlength, hg, Option.map_some, Binding.value_single hb hk]

theorem var?_group {k : Nat} {g : AxisGroup} (hg : it.binding.groups[k]? = some g)
    (hgroup : it.binding.grouped = true ∨ g.start + 1 < g.stop) (hstop : g.stop ≤ l.domain.rank) :
    ∃ i, it.var? k = some (.grouped i) ∧ i.toList = g.pick it.index.toList := by
  have hvar : it.var? k = some (it.binding.value it.index g) := by
    rw [var?_eq_map hc hbinding hlength, hg, Option.map_some]
  have hvalue : it.binding.value it.index g = .grouped (.ofListTruncated (g.pick it.index.toList)) :=
    Binding.value_group hgroup
  have hlist := Binding.toList_value (b := it.binding) (hlength ▸ hstop) it.index.length_toList_le
  rw [hvalue] at hvar hlist
  exact ⟨_, hvar, hlist⟩

theorem whole_of_compile (htargets : l.targets = .grouped) :
    it.binding.varCount = 1 ∧ ∃ g, it.var? 0 = some (.grouped g) ∧ g.toList = it.index.toList := by
  obtain ⟨-, rfl⟩ | ⟨n, b, hn, -⟩ := compile_cases hc
  · have hgroups : it.binding = .whole l.domain.rank := hbinding
    obtain ⟨i, hvar, hlist⟩ := var?_group hc hbinding hlength (k := 0) (g := ⟨0, l.domain.rank⟩)
      (by rw [hgroups]; rfl) (.inl (by rw [hgroups]; rfl)) (Nat.le_refl _)
    refine ⟨by rw [hgroups]; rfl, i, hvar, ?_⟩
    rw [hlist, AxisGroup.pick, List.drop_zero, ← hlength, Nat.sub_zero, List.take_length]
  · rw [htargets] at hn
    cases hn

theorem vars_of_compile {n : Nat} (htargets : l.targets = .vars n) :
    it.binding.varCount = n ∧ (0 < n ∧ n ≤ l.domain.rank) ∧ it.binding.grouped = false ∧
      (∀ k < n - 1, ∃ v, it.index.toList[k]? = some v ∧ it.var? k = some (.scalar v)) ∧
      it.binding.groups[n - 1]? = some ⟨n - 1, l.domain.rank⟩ := by
  obtain ⟨hgrouped, -⟩ | ⟨m, b, hm, hb, hvars⟩ := compile_cases hc
  · rw [htargets] at hgrouped
    cases hgrouped
  · obtain rfl : n = m := LoopTargets.vars.inj (htargets.symm.trans hm)
    have hgroups : it.binding = b := by rw [hbinding, hvars]
    obtain ⟨hfits, hplain, hsingles, hlast⟩ := Binding.groups_ofVars? hb
    have hcount := Binding.varCount_of_ofVars?_eq_some hb
    rw [← hgroups] at hplain hsingles hlast hcount
    refine ⟨hcount, hfits, hplain, fun k hk => ?_, hlast⟩
    exact var?_single hc hbinding hlength hplain (hsingles k hk) (by omega)

theorem perAxis_of_compile {n : Nat} (htargets : l.targets = .vars n)
    (heq : n = it.index.toList.length) {k : Nat} (hk : k < n) :
    ∃ v, it.index.toList[k]? = some v ∧ it.var? k = some (.scalar v) := by
  obtain ⟨-, -, hplain, hsingle, hlast⟩ := vars_of_compile hc hbinding hlength htargets
  by_cases hlater : k < n - 1
  · exact hsingle k hlater
  · -- The last variable has the one axis that is left.
    obtain rfl : k = n - 1 := by omega
    have hstop : l.domain.rank = n - 1 + 1 := by omega
    rw [hstop] at hlast
    exact var?_single hc hbinding hlength hplain hlast (by omega)

theorem tail_of_compile {n : Nat} (htargets : l.targets = .vars n)
    (hlt : n < it.index.toList.length) :
    ∃ g, it.var? (n - 1) = some (.grouped g) ∧ g.toList = it.index.toList.drop (n - 1) ∧
      g.toList.length = it.index.toList.length - n + 1 := by
  obtain ⟨-, ⟨hpos, -⟩, -, -, hlast⟩ := vars_of_compile hc hbinding hlength htargets
  have hmany : n - 1 + 1 < l.domain.rank := by omega
  obtain ⟨i, hvar, hlist⟩ := var?_group hc hbinding hlength hlast (.inr hmany) (Nat.le_refl _)
  have hrest : i.toList = it.index.toList.drop (n - 1) := by
    rw [hlist, AxisGroup.pick, List.take_of_length_le]
    rw [List.length_drop, hlength]
  refine ⟨i, hvar, hrest, ?_⟩
  rw [hrest, List.length_drop]
  omega

theorem sharesOut_of_compile : it.SharesOut l.targets := by
  have htiles := tiles_of_compile hc
  rw [← hlength, ← hbinding] at htiles
  exact {
    isSome_var?_iff := fun k => Binding.isSome_bind?_iff htiles
    concat := Binding.flatMap_toList_vars htiles it.index.length_toList_le it.flat
    whole := whole_of_compile hc hbinding hlength
    perAxis := fun n hn heq => ⟨(vars_of_compile hc hbinding hlength hn).1,
      fun k hk => perAxis_of_compile hc hbinding hlength hn heq hk⟩
    tail := fun n hn hlt => by
      obtain ⟨hcount, -, -, hsingle, -⟩ := vars_of_compile hc hbinding hlength hn
      exact ⟨hcount, hsingle, tail_of_compile hc hbinding hlength hn hlt⟩ }

end SharesOut

end RangeLoop

end LoopNest
