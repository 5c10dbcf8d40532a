import LoopNest.Proofs.Dispatch.Bijection
import LoopNest.Proofs.Loop.Enumeration

/-! What the odometer gives out is the box of a domain in lexicographic order, each tuple once. Before
the end every component lies in its axis, hence below an upper bound, and adding one to it stays a
signed word. -/

namespace LoopNest

namespace ResolvedDomain

variable {d : ResolvedDomain}

theorem mem_tuples_iff (hpos : 0 < d.axes.length) (hle : d.axes.length ≤ maxRank)
    {t : GroupedIndex} : t ∈ d.tuples ↔ d.Contains t := by
  rw [Array.mem_def, toList_tuples hpos hle, List.mem_map]
  have hlength (n : Nat) : (Axes.tuple d.axes n).length ≤ maxRank := by simpa using hle
  constructor
  · rintro ⟨n, hn, rfl⟩
    refine ⟨GroupedIndex.canonical_ofListTruncated _, ?_⟩
    rw [GroupedIndex.toList_ofListTruncated_of_le (hlength n)]
    exact Axes.contains_tuple (List.mem_range.mp hn)
  · rintro ⟨hcanonical, hbox⟩
    refine ⟨Axes.number d.axes t.toList, List.mem_range.mpr (Axes.number_lt hbox), ?_⟩
    rw [Axes.tuple_number hbox, GroupedIndex.ofListTruncated_toList hcanonical]

theorem pairwise_tuples (d : ResolvedDomain) :
    d.tuples.toList.Pairwise fun s t => List.compareLex compare s.toList t.toList = .lt := by
  by_cases h : d.Unwalked
  · rw [tuples_of_unwalked h]
    exact .nil
  · obtain ⟨hpos, hle, -⟩ := not_unwalked_iff.mp h
    have hlength (n : Nat) : (Axes.tuple d.axes n).length ≤ maxRank := by simpa using hle
    rw [toList_tuples hpos hle, List.pairwise_map]
    refine List.pairwise_lt_range.imp_of_mem fun {n m} hn hm hlt => ?_
    rw [GroupedIndex.toList_ofListTruncated_of_le (hlength n),
      GroupedIndex.toList_ofListTruncated_of_le (hlength m),
      Axes.compareLex_tuple (List.mem_range.mp hn) (List.mem_range.mp hm)]
    exact Nat.compare_eq_lt.mpr hlt

theorem contains_current {n : Nat} {values : List Int64}
    (h : ((Odometer.ofDomain d).after n).current = some values) : Axes.Contains d.axes values := by
  by_cases hd : d.Unwalked
  · rw [Odometer.after_of_ended (current_ofDomain_of_unwalked hd),
      current_ofDomain_of_unwalked hd] at h
    cases h
  · rw [after_ofDomain hd, Odometer.startingAt] at h
    obtain ⟨hn, rfl⟩ : n < Axes.volume d.axes ∧ Axes.tuple d.axes n = values := by simpa using h
    exact Axes.contains_tuple hn

theorem toInt_succ_of_contains {a : ResolvedAxis} {v : Int64} (h : a.Contains v) :
    (v + 1).toInt = v.toInt + 1 := by
  have hv := (ResolvedAxis.contains_iff.mp h).2
  have hupper := a.upper.toInt_lt
  have hlower := v.le_toInt
  rw [Int64.toInt_add, Int64.toInt_one]
  exact Int.bmod_eq_of_le (by omega) (by omega)

theorem forall_mem_toInt_succ {axes : List ResolvedAxis} {values : List Int64}
    (h : Axes.Contains axes values) : ∀ v ∈ values, (v + 1).toInt = v.toInt + 1 := by
  induction h with
  | nil => simp
  | cons hv _ ih => exact List.forall_mem_cons.mpr ⟨toInt_succ_of_contains hv, ih⟩

/-- The calls of an odometer give out one list of tuples and nothing after it. The list is empty
for a domain without axes, with more than eight, or with an empty one, and otherwise it is the box in
lexicographic order. No tick overflows, and before the end every component is in its axis. -/
theorem odometer_exhausts_box (d : ResolvedDomain) :
    (∀ n, (Odometer.ofDomain d).call? n = d.tuples.toList[n]?) ∧
    (d.Unwalked → d.tuples = #[]) ∧
    (¬d.Unwalked → ∀ t, t ∈ d.tuples ↔ d.Contains t) ∧
    d.tuples.toList.Pairwise (fun s t => List.compareLex compare s.toList t.toList = .lt) ∧
    ∀ n values, ((Odometer.ofDomain d).after n).current = some values →
      Axes.Contains d.axes values ∧ ∀ v ∈ values, (v + 1).toInt = v.toInt + 1 := by
  refine ⟨d.call?_ofDomain, tuples_of_unwalked, fun h t => ?_, d.pairwise_tuples,
    fun n values h => ⟨contains_current h, forall_mem_toInt_succ (contains_current h)⟩⟩
  obtain ⟨hpos, hle, -⟩ := not_unwalked_iff.mp h
  exact mem_tuples_iff hpos hle

theorem odometer_exhausts_box_extremes :
    let d : ResolvedDomain := ⟨[⟨9223372036854775805, 9223372036854775807⟩,
      ⟨-9223372036854775808, -9223372036854775807⟩]⟩
    d.tuples.toList.map GroupedIndex.toList =
        [[9223372036854775805, -9223372036854775808],
          [9223372036854775806, -9223372036854775808]] ∧
      (∀ n, 2 ≤ n → (Odometer.ofDomain d).call? n = none) ∧
      ∀ t, t ∈ d.tuples ↔ d.Contains t := by
  intro d
  obtain ⟨hcalls, -, hbox, -, -⟩ := odometer_exhausts_box d
  have htuples : d.tuples.toList.length = 2 := rfl
  refine ⟨rfl, fun n hn => ?_, hbox (not_unwalked_iff.mpr (by decide))⟩
  rw [hcalls, List.getElem?_eq_none (htuples ▸ hn)]

end ResolvedDomain

end LoopNest
