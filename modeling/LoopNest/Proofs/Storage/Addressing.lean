import LoopNest.Proofs.MixedRadix
import LoopNest.Proofs.Number.WordProduct
import LoopNest.Proofs.Storage.History

/-! Row-major offsets as mixed-radix numbers. An offset is reached inside the extents only, and then it
is the number of the index, so different indices have different cells. The numbers are ordered as the
indices are, and every number below the product of the extents is that of an index as long as a
signed word holds it. -/

namespace LoopNest

/-- The number of an index in row-major order. -/
def cellNumber (extents : List UInt64) (index : List Int64) : Nat :=
  MixedRadix.value (extents.map UInt64.toNat) (index.map Int64.toNatClampNeg)

theorem inExtents_iff {extents : List UInt64} {index : List Int64} :
    InExtents extents index ↔
      List.Forall₂ (fun e i => 0 ≤ i.toInt ∧ i.toInt < e.toNat) extents index := by
  rw [List.forall₂_iff_zip, InExtents]
  refine and_congr_right fun _ => ⟨fun h {e i} hp => h (e, i) hp, fun h p hp => h hp⟩

theorem within_of_inExtents {extents : List UInt64} {index : List Int64}
    (h : InExtents extents index) :
    MixedRadix.Within (extents.map UInt64.toNat) (index.map Int64.toNatClampNeg) := by
  rw [MixedRadix.Within, List.forall₂_map_left_iff, List.forall₂_map_right_iff]
  refine (inExtents_iff.mp h).imp fun e i hi => ?_
  rw [Int64.toNatClampNeg]
  omega

theorem cellNumber_lt {extents : List UInt64} {index : List Int64} (h : InExtents extents index) :
    cellNumber extents index < (extents.map UInt64.toNat).prod :=
  MixedRadix.value_lt (within_of_inExtents h)

theorem compare_toNatClampNeg {i j : Int64} (hi : 0 ≤ i.toInt) (hj : 0 ≤ j.toInt) :
    compare i.toNatClampNeg j.toNatClampNeg = compare i j := by
  have hlt : i.toNatClampNeg < j.toNatClampNeg ↔ i < j := by
    rw [Int64.lt_iff_toInt_lt, Int64.toNatClampNeg, Int64.toNatClampNeg]
    omega
  have heq : i.toNatClampNeg = j.toNatClampNeg ↔ i = j := by
    rw [← Int64.toInt_inj, Int64.toNatClampNeg, Int64.toNatClampNeg]
    omega
  simp only [compare, compareOfLessAndEq, hlt, heq]

theorem compareLex_map_toNatClampNeg {extents : List UInt64} {index other : List Int64}
    (h : InExtents extents index) (ho : InExtents extents other) :
    List.compareLex compare (index.map Int64.toNatClampNeg) (other.map Int64.toNatClampNeg) =
      List.compareLex compare index other := by
  rw [inExtents_iff] at h ho
  induction h generalizing other with
  | nil =>
    cases ho
    rfl
  | cons hi _ ih =>
    obtain _ | ⟨hj, hrest⟩ := ho
    rw [List.map_cons, List.map_cons, List.compareLex_cons_cons, List.compareLex_cons_cons,
      compare_toNatClampNeg hi.1 hj.1, ih hrest]

theorem compare_cellNumber {extents : List UInt64} {index other : List Int64}
    (h : InExtents extents index) (ho : InExtents extents other) :
    compare (cellNumber extents index) (cellNumber extents other) =
      List.compareLex compare index other :=
  (MixedRadix.compare_value (within_of_inExtents h) (within_of_inExtents ho)).trans
    (compareLex_map_toNatClampNeg h ho)

theorem cellNumber_inj {extents : List UInt64} {index other : List Int64}
    (h : InExtents extents index) (ho : InExtents extents other)
    (heq : cellNumber extents index = cellNumber extents other) : index = other := by
  have hsame : List.compareLex compare index other = .eq := by
    rw [← compare_cellNumber h ho, heq, Nat.compare_eq_eq]
  exact Std.LawfulEqCmp.eq_of_compare hsame

theorem cellNumber_append {shape elementShape : List UInt64} {index : List Int64}
    (h : shape.length = index.length) (element : List Int64) :
    cellNumber (shape ++ elementShape) (index ++ element) =
      cellNumber shape index * (elementShape.map UInt64.toNat).prod +
        cellNumber elementShape element := by
  rw [cellNumber, List.map_append, List.map_append, MixedRadix.value_append (by simpa using h)]
  rfl

theorem inExtents_cons {e : UInt64} {extents : List UInt64} {i : Int64} {index : List Int64} :
    InExtents (e :: extents) (i :: index) ↔
      (0 ≤ i.toInt ∧ i.toInt < e.toNat) ∧ InExtents extents index := by
  rw [inExtents_iff, inExtents_iff, List.forall₂_cons]

theorem cellNumber_cons (e : UInt64) (extents : List UInt64) (i : Int64) (index : List Int64) :
    cellNumber (e :: extents) (i :: index) =
      i.toNatClampNeg * (extents.map UInt64.toNat).prod + cellNumber extents index := rfl

theorem toNat_toUInt64_of_inRange {e : UInt64} {i : Int64} (h : 0 ≤ i ∧ i.toUInt64 < e) :
    i.toUInt64.toNat = i.toNatClampNeg ∧ i.toNatClampNeg < e.toNat := by
  have hvalue := Int64.toNat_toUInt64_of_le h.1
  exact ⟨hvalue, hvalue ▸ UInt64.lt_iff_toNat_lt.mp h.2⟩

theorem rowMajorFrom_eq_ok_iff {extents : List UInt64} {index : List Int64}
    (hlength : extents.length = index.length) {offset result : UInt64} :
    rowMajorFrom offset extents index = .ok result ↔ InExtents extents index ∧
      result.toNat =
        offset.toNat * (extents.map UInt64.toNat).prod + cellNumber extents index := by
  induction extents generalizing index offset with
  | nil =>
    obtain rfl := List.length_eq_zero_iff.mp hlength.symm
    simp [rowMajorFrom, InExtents, cellNumber, MixedRadix.value, ← UInt64.toNat_inj, eq_comm]
  | cons e extents ih =>
    obtain ⟨i, index, rfl⟩ := List.exists_cons_of_length_eq_add_one hlength.symm
    rw [rowMajorFrom, inExtents_cons, cellNumber_cons]
    by_cases hin : 0 ≤ i ∧ i.toUInt64 < e
    · obtain ⟨hvalue, -⟩ := toNat_toUInt64_of_inRange hin
      simp only [if_pos hin, inRange_iff.mp hin, true_and, and_self, List.map_cons, List.prod_cons]
      cases hstep : mulAddCount? offset e i.toUInt64 with
      | some next =>
        have hnext := mulAddCount?_eq_some_iff.mp hstep
        simp only
        rw [ih (Nat.succ.inj hlength), hnext, hvalue]
        refine and_congr_right fun _ => Eq.congr_right ?_
        ring
      | none =>
        simp only [reduceCtorEq, false_iff, not_and]
        intro hrest hresult
        -- The later extents are not zero, so the offset up to here is no greater than the result.
        have hpos := Nat.zero_lt_of_lt (cellNumber_lt hrest)
        have hle := Nat.le_mul_of_pos_right (offset.toNat * e.toNat + i.toUInt64.toNat) hpos
        have hlt : offset.toNat * e.toNat + i.toUInt64.toNat < UInt64.size := by
          have hword : result.toNat < UInt64.size := result.toNat_lt
          rw [hvalue] at hle ⊢
          rw [add_mul, mul_assoc] at hle
          omega
        rw [mulAddCount?_eq_some_iff.mpr (toNat_toUInt64_of_lt hlt)] at hstep
        cases hstep
    · rw [if_neg hin]
      simp [mt inRange_iff.mpr hin]

/-- As long as each product from the left is at most a word, so is each offset on the way. -/
theorem rowMajorFrom_ne_overflow {extents : List UInt64} {index : List Int64} {offset : UInt64}
    (h : ∀ front ∈ extents.inits,
      (offset.toNat + 1) * (front.map UInt64.toNat).prod ≤ UInt64.size) :
    rowMajorFrom offset extents index ≠ .error .overflow := by
  induction extents generalizing index offset with
  | nil => simp [rowMajorFrom]
  | cons e extents ih =>
    cases index with
    | nil => simp [rowMajorFrom]
    | cons i index =>
      rw [rowMajorFrom]
      split
      · rename_i hin
        obtain ⟨hvalue, hlt⟩ := toNat_toUInt64_of_inRange hin
        simp only [List.inits_cons, List.forall_mem_cons, List.forall_mem_map, List.map_cons,
          List.prod_cons, ← mul_assoc] at h
        have hbelow : offset.toNat * e.toNat + i.toUInt64.toNat < (offset.toNat + 1) * e.toNat := by
          rw [hvalue, add_mul, one_mul]
          omega
        have hword : (offset.toNat + 1) * e.toNat ≤ UInt64.size := by
          simpa using h.2 [] (by simp)
        have hstep := mulAddCount?_eq_some_iff.mpr
          (toNat_toUInt64_of_lt (Nat.lt_of_lt_of_le hbelow hword))
        rw [hstep]
        simp only
        refine ih fun front hfront => le_trans ?_ (h.2 front hfront)
        rw [mulAddCount?_eq_some_iff.mp hstep]
        exact Nat.mul_le_mul_right _ hbelow
      · simp

theorem rowMajor_eq_ok_iff {extents : List UInt64} {index : List Int64}
    (hlength : extents.length = index.length) {result : UInt64} :
    rowMajor extents index = .ok result ↔
      InExtents extents index ∧ result.toNat = cellNumber extents index := by
  rw [rowMajor, rowMajorFrom_eq_ok_iff hlength, UInt64.toNat_zero, zero_mul, zero_add]

theorem inExtents_map_ofNat {extents : List UInt64} {ds : List Nat} (hshort : ∀ d ∈ ds, d < 2 ^ 63)
    (h : MixedRadix.Within (extents.map UInt64.toNat) ds) :
    InExtents extents (ds.map Int64.ofNat) ∧
      (ds.map Int64.ofNat).map Int64.toNatClampNeg = ds := by
  rw [inExtents_iff]
  induction extents generalizing ds with
  | nil =>
    cases h
    exact ⟨.nil, rfl⟩
  | cons e extents ih =>
    obtain _ | ⟨hd, hds⟩ := h
    rename_i d ds
    obtain ⟨hword, hshort⟩ := List.forall_mem_cons.mp hshort
    obtain ⟨hin, hback⟩ := ih hshort hds
    have hvalue : (Int64.ofNat d).toInt = d := Int64.toInt_ofNat_of_lt hword
    refine ⟨.cons (by omega) hin, ?_⟩
    rw [List.map_cons, List.map_cons, hback, Int64.toNatClampNeg, hvalue, Int.toNat_natCast]

theorem exists_cellNumber_eq {extents : List UInt64} {n : Nat} (hshort : n < 2 ^ 63)
    (h : n < (extents.map UInt64.toNat).prod) :
    ∃ index, InExtents extents index ∧ cellNumber extents index = n := by
  have hdigits : ∀ d ∈ MixedRadix.digits (extents.map UInt64.toNat) n, d < 2 ^ 63 :=
    fun d hd => lt_of_le_of_lt (MixedRadix.le_of_mem_digits hd) hshort
  obtain ⟨hin, hback⟩ := inExtents_map_ofNat hdigits (MixedRadix.within_digits h)
  exact ⟨_, hin, by rw [cellNumber, hback, MixedRadix.value_digits h]⟩

namespace Buffer

variable {b b' : Buffer} {index element : List Int64} {offset : UInt64}

theorem offset_eq_ok_iff :
    b.offset index element = .ok offset ↔
      index.length = b.shape.length ∧ element.length = b.elementShape.length ∧
        InExtents b.extents (index ++ element) ∧
        offset.toNat = cellNumber b.extents (index ++ element) := by
  rw [Buffer.offset]
  split
  · rename_i hrank
    simp only [reduceCtorEq, false_iff]
    omega
  · rename_i hrank
    obtain ⟨hindex, helement⟩ : index.length = b.shape.length ∧
        element.length = b.elementShape.length := by omega
    have hlength : b.extents.length = (index ++ element).length := by
      simp [extents, hindex, helement]
    rw [← rowMajor_eq_ok_iff hlength]
    split <;> simp_all

theorem exists_offset_eq_iff :
    (∃ index element, b.offset index element = .ok offset) ↔
      ∃ values, InExtents b.extents values ∧ offset.toNat = cellNumber b.extents values := by
  constructor
  · rintro ⟨index, element, h⟩
    exact ⟨index ++ element, (offset_eq_ok_iff.mp h).2.2⟩
  · rintro ⟨values, hin, hoffset⟩
    have hlength : values.length = b.shape.length + b.elementShape.length := by
      rw [← hin.1, extents, List.length_append]
    refine ⟨values.take b.shape.length, values.drop b.shape.length,
      offset_eq_ok_iff.mpr ⟨by simp [hlength], by simp [hlength], ?_⟩⟩
    rw [List.take_append_drop]
    exact ⟨hin, hoffset⟩

theorem toNat_offset (h : b.offset index element = .ok offset) :
    offset.toNat = cellNumber b.extents (index ++ element) := (offset_eq_ok_iff.mp h).2.2.2

theorem toNat_cellNumber (hfits : b.Fits) (h : InExtents b.extents index) :
    (cellNumber b.extents index).toUInt64.toNat = cellNumber b.extents index :=
  toNat_toUInt64_of_lt ((cellNumber_lt h).trans hfits)

theorem exists_offset_of_inExtents (hfits : b.Fits) (helem : b.elementShape = [])
    (h : InExtents b.shape index) : ∃ offset, b.offset index [] = .ok offset := by
  have hin : InExtents b.extents (index ++ []) := by simpa [extents, helem] using h
  exact ⟨_, offset_eq_ok_iff.mpr ⟨h.1.symm, by simp [helem], hin, toNat_cellNumber hfits hin⟩⟩

theorem aborts_of_offset_eq_error (hoffsets : b.OffsetsFit) {fault : AccessFault}
    (h : b.offset index element = .error fault) : fault.aborts = false := by
  rw [Buffer.offset] at h
  split at h
  · cases h
    rfl
  · split at h
    · cases h
    · cases h
      rfl
    · rename_i hoverflow
      exact absurd hoverflow (rowMajorFrom_ne_overflow (by simpa [OffsetsFit] using hoffsets))

theorem offset_of_not_inExtents (hoffsets : b.OffsetsFit) (helem : b.elementShape = [])
    (hlength : index.length = b.shape.length) (h : ¬InExtents b.shape index) :
    b.offset index [] = .error (.outOfBounds index [] b.shape []) := by
  cases hoffset : b.offset index [] with
  | ok offset =>
    have hin := (offset_eq_ok_iff.mp hoffset).2.2.1
    exact absurd (by simpa [extents, helem] using hin) h
  | error fault =>
    have hgoes := aborts_of_offset_eq_error hoffsets hoffset
    rw [Buffer.offset, if_neg (by simp [hlength, helem])] at hoffset
    split at hoffset
    · cases hoffset
    · rw [← hoffset, helem]
    · cases hoffset
      cases hgoes

theorem cell_of_not_inExtents (hoffsets : b.OffsetsFit) (helem : b.elementShape = [])
    (hlength : index.length = b.shape.length) (h : ¬InExtents b.shape index) :
    b.cell index [] = .error (.outOfBounds index [] b.shape []) := by
  rw [cell, offset_of_not_inExtents hoffsets helem hlength h]
  rfl

theorem Alike.offset_eq (h : b'.Alike b) (index element : List Int64) :
    b'.offset index element = b.offset index element := by
  rw [Buffer.offset, Buffer.offset, h.extents_eq, h.shape_eq, h.elementShape_eq]

theorem offset_lt_size (hb : b.Allocated) (h : b.offset index element = .ok offset) :
    offset.toNat < b.size := by
  rw [toNat_offset h, hb]
  exact cellNumber_lt (offset_eq_ok_iff.mp h).2.2.1

theorem offset_inj {index' element' : List Int64} (h : b.offset index element = .ok offset)
    (h' : b.offset index' element' = .ok offset) : index = index' ∧ element = element' := by
  obtain ⟨hindex, -, hin, hvalue⟩ := offset_eq_ok_iff.mp h
  obtain ⟨hindex', -, hin', hvalue'⟩ := offset_eq_ok_iff.mp h'
  have hsame := cellNumber_inj hin hin' (hvalue.symm.trans hvalue')
  exact List.append_inj hsame (hindex.trans hindex'.symm)

theorem cell_of_offset (hb : b.Allocated) (h : b.offset index element = .ok offset) :
    b.cell index element = .ok offset :=
  cell_eq_ok_iff.mpr ⟨h, offset_lt_size hb h⟩

theorem Alike.cell_eq (h : b'.Alike b) (index element : List Int64) :
    b'.cell index element = b.cell index element := by
  rw [cell, cell, h.offset_eq, h.size_eq]

theorem load_of_cell (hcell : b.cell index element = .ok offset) :
    b.load index element = .ok (b.cells.getD offset.toNat b.kind.zeroBits) := by
  rw [load, hcell]
  rfl

theorem store_of_cell (hcell : b.cell index element = .ok offset) (bits : UInt64) :
    b.store index element bits = .ok (b.setCell offset bits) := by
  rw [store, hcell]
  rfl

theorem access_of_cell (h : b.cell index element = .ok offset) :
    ∃ hlt : offset.toNat < b.cells.size,
      b.load index element = .ok b.cells[offset.toNat] ∧
      ∀ bits, b.store index element bits =
        .ok { b with cells := b.cells.set offset.toNat bits } := by
  have hlt : offset.toNat < b.cells.size := (cell_eq_ok_iff.mp h).2
  refine ⟨hlt, ?_, fun bits => ?_⟩
  · rw [load_of_cell h, Array.getD, dif_pos hlt]
    rfl
  · rw [store_of_cell h, setCell, Array.setIfInBounds, dif_pos hlt]

theorem load_setCell_of_cell (hcell : b.cell index element = .ok offset) (bits : UInt64) :
    (b.setCell offset bits).load index element = .ok bits := by
  have hlt : offset.toNat < b.cells.size := (cell_eq_ok_iff.mp hcell).2
  rw [load_of_cell ((b.alike_setCell offset bits).cell_eq index element ▸ hcell)]
  simp [setCell, hlt]

theorem load_setCell_self (hb : b.Allocated) (h : b.offset index element = .ok offset)
    (bits : UInt64) : (b.setCell offset bits).load index element = .ok bits :=
  load_setCell_of_cell (cell_of_offset hb h) bits

theorem load_setCell_of_ne {index' element' : List Int64}
    (h : b.offset index element = .ok offset) (hne : index' ≠ index) (bits : UInt64) :
    (b.setCell offset bits).load index' element' = b.load index' element' := by
  have hsame := (b.alike_setCell offset bits).cell_eq index' element'
  cases h' : b.cell index' element' with
  | error fault =>
    rw [load, load, hsame, h']
    rfl
  | ok offset' =>
    have hother : offset.toNat ≠ offset'.toNat := by
      intro heq
      rw [UInt64.toNat_inj] at heq
      exact hne (offset_inj (heq ▸ (cell_eq_ok_iff.mp h').1) h).1
    rw [load_of_cell (hsame.trans h'), load_of_cell h']
    simp [setCell, Array.getElem?_setIfInBounds_ne hother, Array.getD_eq_getD_getElem?]

end Buffer

end LoopNest
