import LoopNest.Proofs.Storage.LastStores

/-! Positions and cells of the buffers that are built. Exactly the positions inside have an offset, each
of these is that of a cell, and each cell has a position; offsets count whole elements in row-major
order and then the components of an element. -/

namespace LoopNest.Buffer

variable {b : Buffer} {index element : List Int64} {offset : UInt64}

theorem access_of_offset_eq_error {fault : AccessFault}
    (h : b.offset index element = .error fault) :
    b.load index element = .error fault ∧ ∀ bits, b.store index element bits = .error fault := by
  have hcell : b.cell index element = .error fault := by
    rw [cell, h]
    rfl
  refine ⟨?_, fun bits => ?_⟩
  · rw [load, hcell]
    rfl
  · rw [store, hcell]
    rfl

section Order

variable (h : b.offset index element = .ok offset)
include h

theorem toNat_offset_eq_add :
    offset.toNat =
      cellNumber b.shape index * (b.elementShape.map UInt64.toNat).prod +
        cellNumber b.elementShape element := by
  have hindex := (offset_eq_ok_iff.mp h).1
  rw [toNat_offset h, extents, cellNumber_append hindex.symm]

theorem offset_lt_iff {index' element' : List Int64} {offset' : UInt64}
    (h' : b.offset index' element' = .ok offset') :
    offset < offset' ↔
      List.compareLex compare (index ++ element) (index' ++ element') = .lt := by
  have hin := (offset_eq_ok_iff.mp h).2.2.1
  have hin' := (offset_eq_ok_iff.mp h').2.2.1
  rw [UInt64.lt_iff_toNat_lt, toNat_offset h, toNat_offset h', ← compare_cellNumber hin hin',
    Nat.compare_eq_lt]

end Order

theorem exists_position (hb : b.Built) (hlt : offset.toNat < b.size) :
    ∃ index element, b.offset index element = .ok offset := by
  have hshort : offset.toNat < 2 ^ 63 := by
    have hbytes := hb.size_mul_le
    rw [cellBytes, maxBytes] at hbytes
    omega
  obtain ⟨values, hin, hvalue⟩ := exists_cellNumber_eq hshort (hb.allocated ▸ hlt)
  exact exists_offset_eq_iff.mpr ⟨values, hin, hvalue.symm⟩

/-- Addressing of a buffer that was built, whatever it holds since. A position has an offset exactly if
its index is inside the shape and its component inside the element shape; where it has none, loads and
stores fail with the same fault, and the run goes on unless an offset left the words before. The offset
is the row-major number of the position and that of a cell, the one that is read and replaced. Offsets
are ordered as positions are, by the first axis of the shape first and by the last axis of an element
last, no two positions share one, and every cell has a position. -/
theorem offset_numbers_cells {kind : ScalarKind} {shape elementShape : List UInt64}
    {zeros b : Buffer} (hzeros : zeroed? kind shape elementShape = some zeros)
    (hb : b.Alike zeros) :
    (∀ index element,
      (∃ offset, b.offset index element = .ok offset) ↔
        InExtents shape index ∧ InExtents elementShape element) ∧
    (∀ index element fault, b.offset index element = .error fault →
      (b.OffsetsFit → fault.aborts = false) ∧ b.load index element = .error fault ∧
        ∀ bits, b.store index element bits = .error fault) ∧
    (∀ index element offset, b.offset index element = .ok offset →
      offset.toNat =
        cellNumber shape index * (elementShape.map UInt64.toNat).prod +
          cellNumber elementShape element ∧
      ∃ hlt : offset.toNat < b.cells.size,
        b.load index element = .ok b.cells[offset.toNat] ∧
        ∀ bits, b.store index element bits =
          .ok { b with cells := b.cells.set offset.toNat bits }) ∧
    (∀ index element offset index' element' offset',
      b.offset index element = .ok offset → b.offset index' element' = .ok offset' →
      (offset < offset' ↔
        List.compareLex compare (index ++ element) (index' ++ element') = .lt) ∧
      (offset = offset' → index = index' ∧ element = element')) ∧
    b.size = (shape.map UInt64.toNat).prod * (elementShape.map UInt64.toNat).prod ∧
    ∀ offset, offset.toNat < b.size → ∃ index element, b.offset index element = .ok offset := by
  have hbuilt : b.Built := hb.built (built_of_zeroed? hzeros)
  obtain ⟨-, hshape, helement⟩ := eq_of_zeroed? hzeros
  rw [← hshape, ← helement, ← hb.shape_eq, ← hb.elementShape_eq]
  refine ⟨fun index element => exists_offset_iff hbuilt.fits,
    fun index element fault h =>
      ⟨fun hoffsets => aborts_of_offset_eq_error hoffsets h, access_of_offset_eq_error h⟩,
    fun index element offset h =>
      ⟨toNat_offset_eq_add h, access_of_cell (cell_of_offset hbuilt.allocated h)⟩,
    fun index element offset index' element' offset' h h' => ⟨offset_lt_iff h h', ?_⟩,
    ?_, fun offset => exists_position hbuilt⟩
  · rintro rfl
    exact offset_inj h h'
  · rw [hbuilt.allocated, extents, List.map_append, List.prod_append]

theorem offset_numbers_cells_pairs :
    ∃ zeros, zeroed? (.int .i32) [2, 3] [2] = some zeros ∧
      (zeros.setCell 7 5).Alike zeros ∧
      (zeros.setCell 7 5).offset [1, 0] [1] = .ok 7 ∧
      (zeros.setCell 7 5).load [1, 0] [1] = .ok 5 ∧
      (¬∃ offset, (zeros.setCell 7 5).offset [1, 0] [2] = .ok offset) ∧
      ∃ index element, (zeros.setCell 7 5).offset index element = .ok 11 := by
  have hzeros : zeroed? (.int .i32) [2, 3] [2] =
      some ⟨.int .i32, [2, 3], [2], Array.replicate 12 0⟩ := by decide
  have hb := alike_setCell ⟨.int .i32, [2, 3], [2], Array.replicate 12 0⟩ 7 5
  obtain ⟨hinside, -, hnumber, -, -, hcells⟩ := offset_numbers_cells hzeros hb
  obtain ⟨offset, hoffset⟩ := (hinside [1, 0] [1]).mpr (by decide)
  obtain ⟨hvalue, hlt, hload, -⟩ := hnumber _ _ _ hoffset
  obtain rfl : offset = 7 := UInt64.toNat_inj.mp (hvalue.trans (by decide))
  exact ⟨_, hzeros, hb, hoffset, hload, (hinside [1, 0] [2]).not.mpr (by decide),
    hcells 11 (by decide)⟩

end LoopNest.Buffer
