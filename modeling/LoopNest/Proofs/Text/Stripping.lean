import LoopNest.Text.Basic
import Mathlib.Data.List.DropRight

/-! Characters taken off both ends of a text. -/

namespace LoopNest

/-- Whether `core` is what is left of a text without the characters `p` at its ends. -/
def Strips (p : Char → Bool) (text core : List Char) : Prop :=
  ∃ before after, text = before ++ core ++ after ∧ (∀ c ∈ before, p c) ∧ (∀ c ∈ after, p c) ∧
    (∀ c, core.head? = some c → p c = false) ∧ ∀ c, core.getLast? = some c → p c = false

variable {p : Char → Bool} {text core before after : List Char}

theorem not_mem_of_forall {c : Char} (h : ∀ x ∈ text, p x) (hc : p c = false) : c ∉ text :=
  fun hmem => by simp [h c hmem] at hc

theorem dropWhile_eq_self_of_head? (h : ∀ c, text.head? = some c → p c = false) :
    text.dropWhile p = text := by
  cases text with
  | nil => rfl
  | cons c text => rw [List.dropWhile_cons_of_neg (by simp [h c rfl])]

theorem rdropWhile_eq_self_of_getLast? (h : ∀ c, text.getLast? = some c → p c = false) :
    text.rdropWhile p = text := by
  rw [List.rdropWhile, dropWhile_eq_self_of_head? (by simpa using h), List.reverse_reverse]

theorem dropWhile_append_cons {c : Char} (h : p c = false) :
    (text ++ c :: after).dropWhile p = text.dropWhile p ++ c :: after := by
  induction text with
  | nil => rw [List.nil_append, List.dropWhile_cons_of_neg (by simp [h]), List.dropWhile_nil,
      List.nil_append]
  | cons first text ih =>
    rw [List.cons_append, List.dropWhile_cons, List.dropWhile_cons, ih]
    split <;> rfl

theorem rdropWhile_append_of_pos (h : ∀ c ∈ after, p c) :
    (text ++ after).rdropWhile p = text.rdropWhile p := by
  rw [List.rdropWhile, List.reverse_append,
    List.dropWhile_append_of_pos fun c hc => h c (List.mem_reverse.mp hc), List.rdropWhile]

theorem rdropWhile_append_cons {c : Char} (h : p c = false) :
    (text ++ c :: after).rdropWhile p = text ++ c :: after.rdropWhile p := by
  induction after using List.reverseRecOn with
  | nil => rw [List.rdropWhile_concat_neg p text c (by simp [h]), List.rdropWhile_nil]
  | append_singleton after last ih =>
    rw [← List.cons_append, ← List.append_assoc, List.rdropWhile_concat, List.rdropWhile_concat, ih]
    split <;> simp

theorem strips_iff : Strips p text core ↔ (text.dropWhile p).rdropWhile p = core := by
  constructor
  · rintro ⟨before, after, rfl, hbefore, hafter, hhead, hlast⟩
    rw [List.append_assoc, List.dropWhile_append_of_pos hbefore]
    cases core with
    | nil =>
      rw [List.nil_append, List.dropWhile_eq_nil_iff.mpr hafter]
      rfl
    | cons c core =>
      rw [dropWhile_eq_self_of_head? (by simpa using hhead), rdropWhile_append_of_pos hafter,
        rdropWhile_eq_self_of_getLast? hlast]
  · rintro rfl
    have hhead : ∀ c, (text.dropWhile p).head? = some c → p c = false := fun c hc => by
      simpa [hc] using List.head?_dropWhile_not p text
    refine ⟨text.takeWhile p, (text.dropWhile p).rtakeWhile p, ?_, fun c => List.mem_takeWhile_imp,
      fun c => List.mem_rtakeWhile_imp, fun c hc => hhead c ?_, fun c hc => ?_⟩
    · rw [List.append_assoc, List.rdropWhile_append_rtakeWhile, List.takeWhile_append_dropWhile]
    · obtain ⟨rest, hrest⟩ := List.rdropWhile_prefix (l := text.dropWhile p) p
      obtain ⟨core, hcore⟩ := List.head?_eq_some_iff.mp hc
      rw [← hrest, hcore, List.cons_append, List.head?_cons]
    · rw [List.rdropWhile, List.getLast?_reverse] at hc
      simpa [hc] using List.head?_dropWhile_not p (text.dropWhile p).reverse

namespace Strips

theorem append_right (h : Strips p text core) (hafter : ∀ c ∈ after, p c) :
    Strips p (text ++ after) core := by
  obtain ⟨before, rest, rfl, hbefore, hrest, hends⟩ := h
  refine ⟨before, rest ++ after, by simp, hbefore, fun c hc => ?_, hends⟩
  exact (List.mem_append.mp hc).elim (hrest c) (hafter c)

theorem mem_iff {c : Char} (h : Strips p text core) (hc : p c = false) : c ∈ core ↔ c ∈ text := by
  obtain ⟨before, after, rfl, hbefore, hafter, -⟩ := h
  simp [not_mem_of_forall hbefore hc, not_mem_of_forall hafter hc]

theorem count_eq {c : Char} (h : Strips p text core) (hc : p c = false) :
    core.count c = text.count c := by
  obtain ⟨before, after, rfl, hbefore, hafter, -⟩ := h
  rw [List.count_append, List.count_append, List.count_eq_zero.mpr (not_mem_of_forall hbefore hc),
    List.count_eq_zero.mpr (not_mem_of_forall hafter hc), Nat.zero_add, Nat.add_zero]

end Strips

theorem strips_isBlank_iff : Strips isBlank text core ↔ trimBlanks text = core := strips_iff

theorem strips_trimBlanks (text : List Char) : Strips isBlank text (trimBlanks text) :=
  strips_isBlank_iff.mpr rfl

theorem trimBlanks_append_cons {c : Char} (h : isBlank c = false) :
    trimBlanks (before ++ c :: after) =
      before.dropWhile isBlank ++ c :: after.rdropWhile isBlank := by
  rw [trimBlanks, dropWhile_append_cons h]
  exact rdropWhile_append_cons h

end LoopNest
