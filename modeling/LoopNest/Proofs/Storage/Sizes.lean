import LoopNest.Proofs.Failure
import LoopNest.Proofs.Number.WordProduct
import LoopNest.Storage.Buffer

/-! How many cells a buffer has. One is built if every product towards the count is a word and so many
bytes can be allocated; then there is a cell for every place that the extents count, and stores and
clearing keep it so. -/

namespace LoopNest

namespace Buffer

structure Allocatable (shape elementShape : List UInt64) : Prop where
  shape_fits : ProductsFit shape
  element_fits : ProductsFit elementShape
  bytes_le : ((shape ++ elementShape).map UInt64.toNat).prod * cellBytes ≤ maxBytes

theorem allocatable_iff {shape elementShape : List UInt64} :
    Allocatable shape elementShape ↔ ProductsFit shape ∧ ProductsFit elementShape ∧
      ((shape ++ elementShape).map UInt64.toNat).prod * cellBytes ≤ maxBytes :=
  ⟨fun h => ⟨h.1, h.2, h.3⟩, fun h => ⟨h.1, h.2.1, h.2.2⟩⟩

instance (shape elementShape : List UInt64) : Decidable (Allocatable shape elementShape) :=
  decidable_of_iff _ allocatable_iff.symm

def Allocated (b : Buffer) : Prop := b.size = (b.extents.map UInt64.toNat).prod

def Fits (b : Buffer) : Prop := (b.extents.map UInt64.toNat).prod < UInt64.size

/-- Going from the left, the extents multiply to at most a word, so that no offset can leave the words
before a component is found to be outside. -/
def OffsetsFit (b : Buffer) : Prop :=
  ∀ front ∈ b.extents.inits, (front.map UInt64.toNat).prod ≤ UInt64.size

instance (b : Buffer) : Decidable b.Allocated := inferInstanceAs (Decidable (_ = _))

instance (b : Buffer) : Decidable b.Fits := inferInstanceAs (Decidable (_ < _))

instance (b : Buffer) : Decidable b.OffsetsFit :=
  inferInstanceAs (Decidable (∀ front ∈ b.extents.inits, _))

structure Built (b : Buffer) : Prop where
  allocatable : Allocatable b.shape b.elementShape
  allocated : b.Allocated

section Zeroed

variable {kind : ScalarKind} {shape elementShape : List UInt64} {b : Buffer}

theorem cellCount?_eq_some_iff {count : UInt64} :
    cellCount? shape elementShape = some count ↔ ProductsFit shape ∧ ProductsFit elementShape ∧
      count.toNat = ((shape ++ elementShape).map UInt64.toNat).prod := by
  simp only [cellCount?, Option.bind_eq_bind, Option.bind_eq_some_iff, mulCounts?_eq_some_iff,
    mulCount?_eq_some_iff, List.map_append, List.prod_append]
  constructor
  · rintro ⟨cells, ⟨hshape, hcells⟩, components, ⟨helement, hcomponents⟩, hcount⟩
    exact ⟨hshape, helement, by rw [hcount, hcells, hcomponents]⟩
  · rintro ⟨hshape, helement, hcount⟩
    have hcells := hshape shape ((List.mem_inits ..).mpr (List.prefix_refl shape))
    have hcomponents := helement elementShape ((List.mem_inits ..).mpr (List.prefix_refl _))
    refine ⟨_, ⟨hshape, toNat_toUInt64_of_lt hcells⟩, _,
      ⟨helement, toNat_toUInt64_of_lt hcomponents⟩, ?_⟩
    rw [toNat_toUInt64_of_lt hcells, toNat_toUInt64_of_lt hcomponents, hcount]

theorem zeroed?_eq_some_iff :
    zeroed? kind shape elementShape = some b ↔ Allocatable shape elementShape ∧
      b = ⟨kind, shape, elementShape,
        Array.replicate ((shape ++ elementShape).map UInt64.toNat).prod kind.zeroBits⟩ := by
  simp only [zeroed?, Option.bind_eq_bind, Option.bind_eq_some_iff, cellCount?_eq_some_iff]
  constructor
  · rintro ⟨count, ⟨hshape, helement, hcount⟩, h⟩
    split at h
    · rename_i hbytes
      cases h
      exact ⟨⟨hshape, helement, hcount ▸ hbytes⟩, by rw [hcount]⟩
    · cases h
  · rintro ⟨⟨hshape, helement, hbytes⟩, rfl⟩
    have hcount : ((shape ++ elementShape).map UInt64.toNat).prod < UInt64.size := by
      have hmax : maxBytes < UInt64.size * cellBytes := by decide
      exact Nat.lt_of_mul_lt_mul_right (Nat.lt_of_le_of_lt hbytes hmax)
    refine ⟨_, ⟨hshape, helement, toNat_toUInt64_of_lt hcount⟩, ?_⟩
    rw [toNat_toUInt64_of_lt hcount, if_pos hbytes]
    rfl

theorem zeroed?_eq_none_iff :
    zeroed? kind shape elementShape = none ↔ ¬Allocatable shape elementShape := by
  rw [Option.eq_none_iff_forall_ne_some]
  constructor
  · exact fun hnone h => hnone _ (zeroed?_eq_some_iff.mpr ⟨h, rfl⟩)
  · exact fun h b hb => h (zeroed?_eq_some_iff.mp hb).1

variable (h : zeroed? kind shape elementShape = some b)
include h

theorem eq_of_zeroed? : b.kind = kind ∧ b.shape = shape ∧ b.elementShape = elementShape := by
  obtain ⟨-, rfl⟩ := zeroed?_eq_some_iff.mp h
  exact ⟨rfl, rfl, rfl⟩

theorem bits_of_zeroed? {bits : UInt64} (hbits : bits ∈ b.cells) : bits = kind.zeroBits := by
  obtain ⟨-, rfl⟩ := zeroed?_eq_some_iff.mp h
  exact (Array.mem_replicate.mp hbits).2

theorem built_of_zeroed? : b.Built := by
  obtain ⟨hallocatable, rfl⟩ := zeroed?_eq_some_iff.mp h
  exact ⟨hallocatable, Array.size_replicate ..⟩

end Zeroed

namespace Built

variable {b : Buffer} (h : b.Built)
include h

theorem size_mul_le : b.size * cellBytes ≤ maxBytes := h.allocated ▸ h.allocatable.bytes_le

theorem fits : b.Fits := by
  have hbytes : (b.extents.map UInt64.toNat).prod * cellBytes ≤ maxBytes := h.allocatable.bytes_le
  have hmax : maxBytes < UInt64.size * cellBytes := by decide
  exact Nat.lt_of_mul_lt_mul_right (Nat.lt_of_le_of_lt hbytes hmax)

/-- Only an element without components can hide extents that multiply to more than a word. -/
theorem offsetsFit (hzero : 0 ∈ b.elementShape → 0 ∈ b.shape) : b.OffsetsFit := by
  intro front hfront
  obtain ⟨rest, hsplit⟩ := (List.mem_inits ..).mp hfront
  obtain ⟨later, hshape, -⟩ | ⟨part, rfl, helement⟩ := List.append_eq_append_iff.mp hsplit
  · exact (h.allocatable.shape_fits front
      ((List.mem_inits ..).mpr ⟨later, hshape.symm⟩)).le
  · rw [List.map_append, List.prod_append]
    by_cases hempty : 0 ∈ b.shape
    · rw [prod_map_toNat_eq_zero_iff.mpr hempty, zero_mul]
      exact Nat.zero_le _
    · have hpart := prod_le_of_mem_inits (mt hzero hempty)
        ((List.mem_inits ..).mpr ⟨rest, helement.symm⟩)
      have hall := h.fits
      rw [Fits, extents, List.map_append, List.prod_append] at hall
      exact (Nat.mul_le_mul_left _ hpart).trans hall.le

theorem offsetsFit_of_scalar (helem : b.elementShape = []) : b.OffsetsFit :=
  h.offsetsFit (by simp [helem])

end Built

structure Alike (b' b : Buffer) : Prop where
  kind_eq : b'.kind = b.kind
  shape_eq : b'.shape = b.shape
  elementShape_eq : b'.elementShape = b.elementShape
  size_eq : b'.size = b.size

variable {b b' : Buffer}

theorem Alike.refl (b : Buffer) : b.Alike b := ⟨rfl, rfl, rfl, rfl⟩

theorem Alike.trans {b'' : Buffer} (h' : b''.Alike b') (h : b'.Alike b) : b''.Alike b :=
  ⟨h'.1.trans h.1, h'.2.trans h.2, h'.3.trans h.3, h'.4.trans h.4⟩

theorem Alike.extents_eq (h : b'.Alike b) : b'.extents = b.extents := by
  rw [extents, extents, h.shape_eq, h.elementShape_eq]

theorem Alike.allocated (h : b'.Alike b) (hb : b.Allocated) : b'.Allocated := by
  rw [Allocated, h.size_eq, h.extents_eq]
  exact hb

theorem Alike.built (h : b'.Alike b) (hb : b.Built) : b'.Built where
  allocatable := by
    rw [h.shape_eq, h.elementShape_eq]
    exact hb.allocatable
  allocated := h.allocated hb.allocated

theorem alike_setCell (b : Buffer) (offset bits : UInt64) : (b.setCell offset bits).Alike b :=
  ⟨rfl, rfl, rfl, size_setCell b offset bits⟩

theorem alike_clear (b : Buffer) : b.clear.Alike b := ⟨rfl, rfl, rfl, size_clear b⟩

theorem cell_eq_ok_iff {index element : List Int64} {offset : UInt64} :
    b.cell index element = .ok offset ↔
      b.offset index element = .ok offset ∧ offset.toNat < b.size := by
  simp only [cell, bind_eq_ok_iff]
  constructor
  · rintro ⟨offset, hoffset, h⟩
    split at h
    · rename_i hlt
      rw [pure_eq_ok_iff] at h
      exact h ▸ ⟨hoffset, hlt⟩
    · cases h
  · rintro ⟨hoffset, hlt⟩
    exact ⟨offset, hoffset, by rw [if_pos hlt, pure_eq_ok_iff]⟩

end Buffer

end LoopNest
