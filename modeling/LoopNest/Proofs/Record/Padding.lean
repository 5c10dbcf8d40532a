import LoopNest.Proofs.Loop.Agreement
import LoopNest.Proofs.Loop.Exhaustion
import LoopNest.Record.Codec

/-! Grouped indices are compared slot by slot, unused slots included, and their components are a
range of slots that ends at the count. Both are right for padded records only. Everything that makes
an index pads it, and one that was written reads back as it was. But reading takes any record, so a
stored one that nobody wrote may have components out of range, or differ from an equal one. -/

namespace LoopNest

namespace Codec

theorem decode?_encode_uInt8 (v : UInt8) : (decode? (encode v) : Option UInt8) = some v := by
  have hlt := v.toNat_lt
  have hrange : (0 : Int) ≤ v.toNat ∧ (v.toNat : Int) ≤ 0xFF := by omega
  simp [encode, decode?, Data.intBetween?, hrange]

theorem decode?_encode_int64 (v : Int64) : (decode? (encode v) : Option Int64) = some v := by
  have hlower := v.le_toInt
  have hupper := v.toInt_lt
  have hrange : -wordBound ≤ v.toInt ∧ v.toInt ≤ wordBound - 1 := by
    rw [wordBound]
    omega
  simp [encode, decode?, Data.intBetween?, hrange]

theorem mapM_decode?_map_encode {α : Type} [Codec α]
    (h : ∀ a : α, decode? (encode a) = some a) (l : List α) :
    (l.map encode).mapM (decode? : Data → Option α) = some l := by
  induction l with
  | nil => rfl
  | cons a l ih => simp [h, ih]

theorem decode?_encode_vector {α : Type} [Codec α] {n : Nat}
    (h : ∀ a : α, decode? (encode a) = some a) (v : Vector α n) :
    (decode? (encode v) : Option (Vector α n)) = some v := by
  simp [encode, decode?, mapM_decode?_map_encode h, Vector.toList]

end Codec

namespace GroupedIndex

def window? (g : GroupedIndex) : Option (List Int64) :=
  if g.len.toNat ≤ g.slots.size then some (g.slots.toList.take g.len.toNat) else none

/-- The ways to come by an index: from a list, by cutting one, from the walk of a domain in either
direction, and by reading one that was written. -/
inductive Made : GroupedIndex → Prop where
  | ofList {l : List Int64} {g : GroupedIndex} (h : ofList? l = some g) : Made g
  | slice {g part : GroupedIndex} {start stop : Nat} (h : g.slice? start stop = some part) :
    Made part
  | map {d : ResolvedDomain} {p : DispatchPlan} (h : DispatchPlan.ofDomain d = .ok p)
    (flat : UInt64) : Made (p.map flat)
  | call {d : ResolvedDomain} {n : Nat} {t : GroupedIndex}
    (h : (Odometer.ofDomain d).call? n = some t) : Made t
  | unroll {l : RangeLoop} {fold : Folder} {settings : LaunchSettings} {s : StaticLoop}
    {t : GroupedIndex} (h : l.unroll fold settings = .ok s) (ht : t ∈ s.tuples) : Made t
  | reread {g t : GroupedIndex} (hg : Made g)
    (h : Codec.decode? (Codec.encode g) = some t) : Made t

theorem decode?_encode (g : GroupedIndex) :
    (Codec.decode? (Codec.encode g) : Option GroupedIndex) = some g := by
  have hfields : (Codec.decode? (Codec.encode g) : Option GroupedIndex) = do
      return ⟨← Codec.decode? (Codec.encode g.len), ← Codec.decode? (Codec.encode g.slots)⟩ := rfl
  rw [hfields, Codec.decode?_encode_uInt8, Codec.decode?_encode_vector Codec.decode?_encode_int64]
  rfl

theorem canonical_of_mem_tuples {d : ResolvedDomain} {t : GroupedIndex} (h : t ∈ d.tuples) :
    t.Canonical := by
  by_cases hd : d.Unwalked
  · simp [ResolvedDomain.tuples_of_unwalked hd] at h
  · obtain ⟨hpos, hle, -⟩ := ResolvedDomain.not_unwalked_iff.mp hd
    exact ((ResolvedDomain.mem_tuples_iff hpos hle).mp h).1

theorem Made.canonical {g : GroupedIndex} (h : Made g) : g.Canonical := by
  induction h with
  | @ofList l g h =>
    rw [ofList?] at h
    split at h
    · cases h
      exact canonical_ofListTruncated l
    · cases h
  | slice h =>
    rw [slice?] at h
    split at h
    · cases h
      exact canonical_ofListTruncated _
    · cases h
  | map h flat =>
    rw [DispatchPlan.map]
    split
    · exact canonical_ofListTruncated _
    · exact canonical_ofListTruncated _
  | call h =>
    rw [ResolvedDomain.call?_ofDomain] at h
    exact canonical_of_mem_tuples (Array.mem_def.mpr (List.mem_of_getElem? h))
  | unroll h ht =>
    obtain ⟨compiled, resolved, -, -, -, rfl⟩ := RangeLoop.unroll_eq_ok_iff.mp h
    exact canonical_of_mem_tuples ht
  | reread _ h ih =>
    rw [decode?_encode, Option.some.injEq] at h
    exact h ▸ ih

variable {a b g : GroupedIndex}

theorem Canonical.length_toList (h : g.Canonical) : g.toList.length = g.len.toNat := by
  have hle : g.len.toNat ≤ 8 := h.1
  simpa [toList] using hle

theorem Canonical.window?_eq (h : g.Canonical) : g.window? = some g.toList := if_pos h.1

theorem made_iff_canonical : Made g ↔ g.Canonical := by
  refine ⟨Made.canonical, fun h => .ofList (l := g.toList) ?_⟩
  rw [ofList?, if_pos (h.length_toList ▸ h.1), ofListTruncated_toList h]

theorem eq_iff_toList_eq (ha : a.Canonical) (hb : b.Canonical) : a = b ↔ a.toList = b.toList := by
  constructor
  · exact congrArg toList
  · intro h
    rw [← ofListTruncated_toList ha, h, ofListTruncated_toList hb]

theorem compare_eq (ha : a.Canonical) (hb : b.Canonical) :
    a.compare b =
      (Ord.compare a.toList.length b.toList.length).then
        (List.compareLex Ord.compare a.toList b.toList) := by
  rw [ha.length_toList, hb.length_toList, ← UInt8.compare_eq_toNat_compare_toNat]
  by_cases hlen : a.len = b.len
  · have hlength : a.toList.length = b.toList.length := by
      rw [ha.length_toList, hb.length_toList, hlen]
    have hlist := compare_ofListTruncated hlength (ha.length_toList ▸ ha.1)
    rw [ofListTruncated_toList ha, ofListTruncated_toList hb] at hlist
    rw [hlist, hlen, Std.ReflOrd.compare_self, Ordering.eq_then]
  · have hne : Ord.compare a.len b.len ≠ .eq := fun h => hlen (Std.LawfulEqOrd.eq_of_compare h)
    rw [compare]
    cases h : Ord.compare a.len b.len with
    | eq => exact absurd h hne
    | lt => rfl
    | gt => rfl

/-- Exactly the padded records can be made. Their components are in range, two of them are equal
if and only if their components are, and they are ordered by the number of components first and then
by the components from the left. -/
theorem made_iff_padded (a b : GroupedIndex) :
    (Made a ↔ a.len.toNat ≤ maxRank ∧ ∀ i : Fin 8, a.len.toNat ≤ i.val → a.slots[i] = 0) ∧
    (Made a → a.window? = some a.toList) ∧
    (Made a → Made b →
      (a = b ↔ a.toList = b.toList) ∧
        a.compare b =
          (Ord.compare a.toList.length b.toList.length).then
            (List.compareLex Ord.compare a.toList b.toList)) :=
  ⟨made_iff_canonical, fun h => h.canonical.window?_eq,
    fun ha hb => ⟨eq_iff_toList_eq ha.canonical hb.canonical,
      compare_eq ha.canonical hb.canonical⟩⟩

theorem made_iff_padded_slice :
    ∃ g part whole : GroupedIndex, ofList? [7, -1, 4] = some g ∧ g.slice? 1 3 = some part ∧
      ofList? [-1, 4] = some whole ∧ part = whole ∧ part.compare g = .lt := by
  obtain ⟨g, hg⟩ : ∃ g, ofList? [7, -1, 4] = some g := ⟨_, rfl⟩
  obtain ⟨whole, hwhole⟩ : ∃ whole, ofList? [-1, 4] = some whole := ⟨_, rfl⟩
  have hlist := ofList?_eq_some hg
  obtain ⟨part, hpart⟩ : ∃ part, g.slice? 1 3 = some part := ⟨_, if_pos (by simp [hlist])⟩
  have hcut := toList_of_slice?_eq_some (by simp [hlist, maxRank]) hpart
  obtain ⟨-, -, hequal⟩ := made_iff_padded part whole
  obtain ⟨-, -, hlonger⟩ := made_iff_padded part g
  refine ⟨g, part, whole, hg, hpart, hwhole, ?_, ?_⟩
  · rw [(hequal (.slice hpart) (.ofList hwhole)).1, hcut, hlist, ofList?_eq_some hwhole]
    rfl
  · rw [(hlonger (.slice hpart) (.ofList hg)).2, hcut, hlist]
    rfl

/-- A stored count past the slots is read without complaint, and so are slots behind the count that
are not zero: the one has no components to show, the other differs from an index like it. -/
theorem reads_unpadded_record :
    let stored (len : Int) (last : Int) : Data := .record [("len", .int len),
      ("values", .list [.int 5, .int 0, .int 0, .int 0, .int 0, .int 0, .int 0, .int last])]
    (∃ g : GroupedIndex, Codec.decode? (stored 255 0) = some g ∧ ¬g.len.toNat ≤ maxRank ∧
      g.window? = none) ∧
    ∃ a b : GroupedIndex, Codec.decode? (stored 1 0) = some a ∧
      Codec.decode? (stored 1 9) = some b ∧ a.toList = b.toList ∧ a ≠ b := by
  refine ⟨⟨⟨255, #v[5, 0, 0, 0, 0, 0, 0, 0]⟩, rfl, by decide, rfl⟩,
    ⟨1, #v[5, 0, 0, 0, 0, 0, 0, 0]⟩, ⟨1, #v[5, 0, 0, 0, 0, 0, 0, 9]⟩, rfl, rfl, rfl, by decide⟩

end GroupedIndex

end LoopNest
