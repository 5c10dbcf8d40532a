import LoopNest.Domain.Resolved
import LoopNest.Proofs.Domain.Box

/-! The odometer gives out the tuples of a domain by their row-major numbers. After as many calls as
there are tuples it has run out, so collecting that many cuts nothing off. A box may have more tuples
than a word can count, so calls are numbered by naturals. -/

namespace LoopNest

theorem tick?_tuple {axes : List ResolvedAxis} {n : Nat} (h : n < Axes.volume axes) :
    tick? axes (Axes.tuple axes n) =
      if n + 1 < Axes.volume axes then some (Axes.tuple axes (n + 1)) else none := by
  induction axes generalizing n with
  | nil =>
    have hn : n = 0 := by simpa [Axes.volume, Axes.counts] using h
    rw [hn]
    rfl
  | cons a axes ih =>
    have hpos : 0 < Axes.volume axes := MixedRadix.prod_tail_pos h
    rw [Axes.volume_cons] at h ⊢
    have hdigit := (Nat.div_lt_iff_lt_mul hpos).mpr h
    have hmod := Nat.mod_lt n hpos
    rw [Axes.tuple_cons, tick?, ih hmod]
    by_cases hlow : n % Axes.volume axes + 1 < Axes.volume axes
    · -- The later axes tick and this one stands still.
      obtain ⟨hdiv, hrem⟩ := MixedRadix.succ_of_lt hlow
      have hnext : n + 1 < a.size.toNat * Axes.volume axes :=
        (Nat.div_lt_iff_lt_mul hpos).mp (hdiv ▸ hdigit)
      rw [if_pos hlow, if_pos hnext, Axes.tuple_cons, hdiv, hrem]
    · -- The later axes have run out and start again.
      obtain ⟨hdiv, hrem⟩ := MixedRadix.succ_of_eq (n := n) (v := Axes.volume axes) (by omega)
      have hnext : n / Axes.volume axes + 1 < a.size.toNat ↔
          n + 1 < a.size.toNat * Axes.volume axes := hdiv ▸ Nat.div_lt_iff_lt_mul hpos
      rw [if_neg hlow, Axes.tuple_cons, hdiv, hrem, Axes.tuple_zero, ← ResolvedAxis.nth_succ]
      simp only [ResolvedAxis.nth_succ_lt_upper hdigit, hnext]

namespace Odometer

/-- The walk that gives out the tuple of `n` next, or has ended. -/
def startingAt (axes : List ResolvedAxis) (n : Nat) : Odometer :=
  ⟨axes, if n < Axes.volume axes then some (Axes.tuple axes n) else none⟩

theorem ofDomain_eq_startingAt {d : ResolvedDomain} (hpos : 0 < d.axes.length)
    (hle : d.axes.length ≤ maxRank) : ofDomain d = .startingAt d.axes 0 := by
  have hempty : d.sizes.contains 0 = true ↔ ¬0 < Axes.volume d.axes := by
    rw [List.contains_iff_mem, ← d.volume_eq_zero_iff]
    omega
  simp only [ofDomain, Odometer.startingAt, ResolvedDomain.rank, Axes.tuple_zero, hempty]
  by_cases h : 0 < Axes.volume d.axes
  · rw [if_neg (by omega), if_pos h]
  · rw [if_pos (by omega), if_neg h]

theorem next?_startingAt (axes : List ResolvedAxis) (n : Nat) :
    (Odometer.startingAt axes n).next? =
      if n < Axes.volume axes then
        some (.ofListTruncated (Axes.tuple axes n), .startingAt axes (n + 1))
      else none := by
  by_cases h : n < Axes.volume axes
  · simp [next?, Odometer.startingAt, h, tick?_tuple h]
  · simp [next?, Odometer.startingAt, h]

theorem collectInto_startingAt (axes : List ResolvedAxis) (tuples : Array GroupedIndex) (count n : Nat)
    (h : n + count ≤ Axes.volume axes) :
    (collectInto tuples count (.startingAt axes n)).toList =
      tuples.toList ++
        (List.range' n count).map fun k => .ofListTruncated (Axes.tuple axes k) := by
  induction count generalizing tuples n with
  | zero => simp [collectInto]
  | succ count ih =>
    rw [collectInto, next?_startingAt, if_pos (by omega)]
    simp only
    rw [ih _ _ (by omega)]
    simp [List.range'_succ]

def advance (o : Odometer) : Odometer :=
  match o.next? with
  | some (_, next) => next
  | none => o

def after (o : Odometer) : Nat → Odometer
  | 0 => o
  | n + 1 => (o.after n).advance

def call? (o : Odometer) (n : Nat) : Option GroupedIndex := (o.after n).next?.map Prod.fst

theorem advance_startingAt (axes : List ResolvedAxis) (n : Nat) :
    (Odometer.startingAt axes n).advance = .startingAt axes (n + 1) := by
  rw [advance, next?_startingAt]
  by_cases h : n < Axes.volume axes
  · rw [if_pos h]
  · have hnext : ¬n + 1 < Axes.volume axes := by omega
    simp [Odometer.startingAt, h, hnext]

theorem after_startingAt (axes : List ResolvedAxis) (n : Nat) :
    (Odometer.startingAt axes 0).after n = .startingAt axes n := by
  induction n with
  | zero => rfl
  | succ n ih => rw [after, ih, advance_startingAt]

theorem after_of_ended {o : Odometer} (h : o.current = none) (n : Nat) : o.after n = o := by
  induction n with
  | zero => rfl
  | succ n ih => rw [after, ih, advance, next?, h, Option.map_none]

theorem collectInto_of_ended {o : Odometer} (h : o.current = none) (tuples : Array GroupedIndex)
    (count : Nat) : collectInto tuples count o = tuples := by
  cases count with
  | zero => rfl
  | succ count => simp [collectInto, next?, h]

end Odometer

namespace ResolvedDomain

variable {d : ResolvedDomain}

theorem toList_tuples (hpos : 0 < d.axes.length) (hle : d.axes.length ≤ maxRank) :
    d.tuples.toList =
      (List.range (Axes.volume d.axes)).map fun k => .ofListTruncated (Axes.tuple d.axes k) := by
  rw [tuples, Odometer.take, Odometer.ofDomain_eq_startingAt hpos hle, volume_eq,
    Odometer.collectInto_startingAt _ _ _ _ (by omega), List.range_eq_range']
  rfl

/-- A domain whose walk gives out nothing. -/
def Unwalked (d : ResolvedDomain) : Prop :=
  d.rank = 0 ∨ maxRank < d.rank ∨ ∃ a ∈ d.axes, a.upper ≤ a.lower

theorem contains_zero_sizes_iff : d.sizes.contains 0 ↔ ∃ a ∈ d.axes, a.upper ≤ a.lower := by
  have hsize (a : ResolvedAxis) : a.size = 0 ↔ a.upper ≤ a.lower := by
    rw [← UInt64.toNat_inj, a.toNat_size, Int64.le_iff_toInt_le, UInt64.toNat_zero]
    omega
  simp only [List.contains_iff_mem, sizes, List.mem_map, hsize]

theorem current_ofDomain_of_unwalked (h : d.Unwalked) : (Odometer.ofDomain d).current = none := by
  rw [Unwalked, ← contains_zero_sizes_iff] at h
  exact if_pos h

theorem tuples_of_unwalked (h : d.Unwalked) : d.tuples = #[] :=
  Odometer.collectInto_of_ended (current_ofDomain_of_unwalked h) #[] d.volume

theorem not_unwalked_iff :
    ¬d.Unwalked ↔ 0 < d.axes.length ∧ d.axes.length ≤ maxRank ∧ ∀ a ∈ d.axes, a.lower < a.upper := by
  simp only [Unwalked, rank, not_or, not_exists, not_and, Nat.not_lt, Nat.pos_iff_ne_zero,
    Int64.not_le]

theorem after_ofDomain (h : ¬d.Unwalked) (n : Nat) :
    (Odometer.ofDomain d).after n = .startingAt d.axes n := by
  obtain ⟨hpos, hle, -⟩ := not_unwalked_iff.mp h
  rw [Odometer.ofDomain_eq_startingAt hpos hle, Odometer.after_startingAt]

theorem call?_ofDomain (d : ResolvedDomain) (n : Nat) :
    (Odometer.ofDomain d).call? n = d.tuples.toList[n]? := by
  by_cases h : d.Unwalked
  · rw [Odometer.call?, Odometer.after_of_ended (current_ofDomain_of_unwalked h), Odometer.next?,
      current_ofDomain_of_unwalked h, tuples_of_unwalked h]
    rfl
  · obtain ⟨hpos, hle, -⟩ := not_unwalked_iff.mp h
    rw [Odometer.call?, after_ofDomain h, Odometer.next?_startingAt, toList_tuples hpos hle]
    by_cases hn : n < Axes.volume d.axes
    · simp [hn]
    · simp [hn]

theorem isSome_call?_iff (hpos : 0 < d.axes.length) (hle : d.axes.length ≤ maxRank) {n : Nat} :
    ((Odometer.ofDomain d).call? n).isSome ↔ n < Axes.volume d.axes := by
  rw [Odometer.ofDomain_eq_startingAt hpos hle, Odometer.call?, Odometer.after_startingAt,
    Odometer.next?_startingAt]
  split <;> simp_all

/-- Collecting stops exactly where the odometer has nothing more to give out. -/
theorem size_tuples (hpos : 0 < d.axes.length) (hle : d.axes.length ≤ maxRank) :
    d.tuples.size = Axes.volume d.axes := by
  refine eq_of_forall_lt_iff fun n => ?_
  rw [← isSome_call?_iff hpos hle, call?_ofDomain]
  simp

end ResolvedDomain

end LoopNest
