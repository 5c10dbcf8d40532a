import LoopNest.Bound.Eval
import LoopNest.Proofs.Scalar.Reading
import LoopNest.Proofs.Storage.Addressing

/-! The elements of integer fields as numbers. Every cell holds a value of its kind, from the layout
on and through all stores; an element is the number its cell is read as, and loading it for a bound gives
that number or says why not. -/

namespace LoopNest

namespace Buffer

/-- Every cell of an integer buffer holds a value of its kind. -/
def Canonical (b : Buffer) : Prop :=
  ∀ k, b.kind = .int k → ∀ bits ∈ b.cells, k.Range (k.read bits)

theorem Canonical.setCell {b : Buffer} (h : b.Canonical) (offset bits : UInt64)
    (hbits : ∀ k, b.kind = .int k → k.Range (k.read bits)) : (b.setCell offset bits).Canonical := by
  intro k hk other hother
  rcases Array.mem_or_eq_of_mem_setIfInBounds hother with hold | rfl
  · exact h k hk other hold
  · exact hbits k hk

theorem canonical_invariant : Registry.BufferInvariant Canonical where
  zeroed h k hk bits hbits := by
    rw [bits_of_zeroed? h hbits, ← (eq_of_zeroed? h).1, hk]
    exact k.range_read_zeroBits
  setInt b offset value h := by
    refine h.setCell offset _ fun k hk => ?_
    rw [hk]
    exact k.range_read_encodeInt value
  setFloat b offset value h := by
    refine h.setCell offset _ fun k hk => ?_
    rw [hk]
    exact k.range_read_encodeInt value.toInt64
  clear b h k hk bits hbits := by
    rw [(Array.mem_replicate.mp hbits).2]
    exact k.range_read_zeroBits

def InBounds (b : Buffer) (index : List Int) : Prop :=
  List.Forall₂ (fun extent i => 0 ≤ i ∧ i < extent.toNat) b.shape index

instance (b : Buffer) (index : List Int) : Decidable (b.InBounds index) :=
  inferInstanceAs (Decidable (List.Forall₂ _ _ _))

/-- The number in the cell of an index. Floats, and elements of several components, are none. -/
def element? (b : Buffer) (index : List Int) : Option Int :=
  match b.kind with
  | .float _ => none
  | .int k =>
    if b.elementShape = [] ∧ b.InBounds index then
      (b.cells[MixedRadix.value (b.shape.map UInt64.toNat) (index.map Int.toNat)]?).map k.read
    else none

def indexFault? (b : Buffer) (index : List Int) : Option AccessFault :=
  if index.length ≠ b.shape.length ∨ b.elementShape ≠ [] then
    some (.rank index.length 0 b.shape.length b.elementShape.length)
  else if b.InBounds index then none
  else some (.outOfBounds (index.map Int64.ofInt) [] b.shape b.elementShape)

variable {b : Buffer} {index : List Int64} {name text : String}

theorem inBounds_map_toInt : b.InBounds (index.map Int64.toInt) ↔ InExtents b.shape index := by
  rw [InBounds, List.forall₂_map_right_iff, inExtents_iff]

theorem load_of_indexFault?_eq_some (hb : b.Built) {cause : AccessFault}
    (h : b.indexFault? (index.map Int64.toInt) = some cause) : b.load index [] = .error cause := by
  have hoffset : b.offset index [] = .error cause := by
    simp only [indexFault?, List.length_map] at h
    split at h
    · rename_i hrank
      cases h
      have hlength : index.length ≠ b.shape.length ∨
          ([] : List Int64).length ≠ b.elementShape.length :=
        hrank.imp_right fun helem => by simpa [eq_comm] using helem
      rw [Buffer.offset, if_pos hlength]
      rfl
    · rename_i hrank
      obtain ⟨hlength, helem⟩ := not_or.mp hrank
      rw [not_not] at hlength helem
      split at h
      · cases h
      · rename_i hout
        rw [inBounds_map_toInt] at hout
        cases h
        rw [offset_of_not_inExtents (hb.offsetsFit_of_scalar helem) helem hlength hout, helem]
        simp [Function.comp_def]
  rw [load, cell, hoffset]
  rfl

theorem load_of_indexFault?_eq_none (hb : b.Built)
    (h : b.indexFault? (index.map Int64.toInt) = none) :
    ∃ bits ∈ b.cells, b.load index [] = .ok bits ∧
      ∀ k, b.kind = .int k → b.element? (index.map Int64.toInt) = some (k.read bits) := by
  simp only [indexFault?, List.length_map] at h
  split at h
  · cases h
  rename_i hrank
  obtain ⟨-, helem⟩ := not_or.mp hrank
  rw [not_not] at helem
  split at h
  · rename_i hin
    obtain ⟨offset, hoffset⟩ :=
      exists_offset_of_inExtents hb.fits helem (inBounds_map_toInt.mp hin)
    obtain ⟨hlt, hload, -⟩ := access_of_cell (cell_of_offset hb.allocated hoffset)
    refine ⟨b.cells[offset.toNat], Array.getElem_mem hlt, hload, fun k hk => ?_⟩
    have hnumber : MixedRadix.value (b.shape.map UInt64.toNat)
        ((index.map Int64.toInt).map Int.toNat) = offset.toNat := by
      simp [toNat_offset hoffset, cellNumber, extents, helem, Function.comp_def]
    rw [element?, hk]
    simp only
    rw [if_pos ⟨helem, hin⟩, hnumber, Array.getElem?_eq_getElem hlt, Option.map_some]
  · cases h

theorem of_element?_eq_some {index : List Int} {n : Int} (h : b.element? index = some n) :
    ∃ k bits, b.kind = .int k ∧ bits ∈ b.cells ∧ n = k.read bits ∧ b.indexFault? index = none := by
  rw [element?] at h
  split at h
  · cases h
  · rename_i k hk
    split at h
    · rename_i hin
      obtain ⟨helem, hbounds⟩ := hin
      obtain ⟨bits, hbits, rfl⟩ := Option.map_eq_some_iff.mp h
      refine ⟨k, bits, hk, Array.mem_of_getElem? hbits, rfl, ?_⟩
      have hlength : index.length = b.shape.length := hbounds.length_eq.symm
      rw [indexFault?, if_neg (not_or.mpr ⟨not_not.mpr hlength, not_not.mpr helem⟩),
        if_pos hbounds]
    · cases h

end Buffer

end LoopNest
