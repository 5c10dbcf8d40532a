import LoopNest.Text.Basic

/-!
Grouped indices: up to eight axis values bundled with their number. The record is also a wire
format, so it is kept as it is written, a count and eight slots; `Canonical` says which records
the constructors make.
-/

namespace LoopNest

def maxRank : Nat := 8

structure GroupedIndex where
  len : UInt8
  slots : Vector Int64 8
deriving DecidableEq

namespace GroupedIndex

def toList (g : GroupedIndex) : List Int64 := g.slots.toList.take g.len.toNat

/-- Keeps at most eight components and fills the unused slots with zeros. -/
def ofListTruncated (l : List Int64) : GroupedIndex where
  len := (min l.length maxRank).toUInt8
  slots := Vector.ofFn fun i => l.getD i 0

@[simp]
theorem toNat_len_ofListTruncated (l : List Int64) :
    (ofListTruncated l).len.toNat = min l.length maxRank := by
  simp only [ofListTruncated, maxRank, Nat.toUInt8_eq, UInt8.toNat_ofNat']
  omega

@[simp]
theorem toList_ofListTruncated (l : List Int64) : (ofListTruncated l).toList = l.take maxRank := by
  apply List.ext_getElem?
  intro i
  rw [toList, toNat_len_ofListTruncated]
  simp only [ofListTruncated, List.getElem?_take, maxRank]
  grind

def ofList? (l : List Int64) : Option GroupedIndex :=
  if l.length ≤ maxRank then some (ofListTruncated l) else none

theorem ofList?_eq_some {l : List Int64} {g : GroupedIndex} (h : ofList? l = some g) :
    g.toList = l := by
  unfold ofList? at h
  split at h
  · cases h
    rw [toList_ofListTruncated]
    exact List.take_of_length_le (by assumption)
  · cases h

/-- A record whose count is a rank and whose unused slots are zero. -/
def Canonical (g : GroupedIndex) : Prop :=
  g.len.toNat ≤ maxRank ∧ ∀ i : Fin 8, g.len.toNat ≤ i.val → g.slots.get i = 0

instance (g : GroupedIndex) : Decidable g.Canonical :=
  inferInstanceAs (Decidable (_ ∧ _))

theorem canonical_ofListTruncated (l : List Int64) : (ofListTruncated l).Canonical := by
  refine ⟨toNat_len_ofListTruncated l ▸ Nat.min_le_right .., fun i hi => ?_⟩
  rw [toNat_len_ofListTruncated, maxRank] at hi
  have : l.length ≤ i.val := by omega
  change (ofListTruncated l).slots[i.val] = 0
  simp [ofListTruncated, List.getElem?_eq_none this]

def isEmpty (g : GroupedIndex) : Bool := g.len == 0

def get? (g : GroupedIndex) (k : Nat) : Option Int64 := g.toList[k]?

def sum (g : GroupedIndex) : Int64 := g.toList.foldl (· + ·) 0

/-- Components `start` up to, not including, `stop`; `none` if that is no range of components. -/
def slice? (g : GroupedIndex) (start stop : Nat) : Option GroupedIndex :=
  if start ≤ stop ∧ stop ≤ g.toList.length then
    some (ofListTruncated ((g.toList.drop start).take (stop - start)))
  else none

theorem toList_of_slice?_eq_some {g s : GroupedIndex} {start stop : Nat}
    (hg : g.toList.length ≤ maxRank) (h : g.slice? start stop = some s) :
    s.toList = (g.toList.drop start).take (stop - start) := by
  unfold slice? at h
  split at h
  · cases h
    rw [toList_ofListTruncated]
    exact List.take_of_length_le (by simp; omega)
  · cases h

def compare (a b : GroupedIndex) : Ordering :=
  (Ord.compare a.len b.len).then (List.compareLex Ord.compare a.slots.toList b.slots.toList)

def text (g : GroupedIndex) : String := "(" ++ commaSeparated (g.toList.map toString) ++ ")"

def listText (g : GroupedIndex) : String := bracketed g.toList

end GroupedIndex

end LoopNest
