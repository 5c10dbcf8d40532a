import LoopNest.Proofs.Scalar.Reading
import LoopNest.Proofs.Storage.Addressing
import Mathlib.Data.List.Induction

/-! Integer buffers as finite maps. A position is an index and a component, each inside its extents.
Whatever stores are made, a position holds the value of the last one made there, wrapped to the kind,
or zero; a store outside the extents fails and is as if it had not been made. What carries the
induction is a statement about all cells by number, so it also covers those that no signed index
reaches. -/

namespace LoopNest

structure IntStore where
  index : List Int64
  element : List Int64
  value : Int64

namespace IntStore

def At (w : IntStore) (index element : List Int) : Prop :=
  w.index.map Int64.toInt = index ∧ w.element.map Int64.toInt = element

instance (w : IntStore) (index element : List Int) : Decidable (w.At index element) :=
  inferInstanceAs (Decidable (_ ∧ _))

def call (w : IntStore) (b : Buffer) : Except AccessFault Buffer :=
  b.setInt w.index w.element w.value

def apply (b : Buffer) (w : IntStore) : Buffer :=
  match w.call b with
  | .ok b' => b'
  | .error _ => b

end IntStore

/-- The value last stored at a position. Inside the extents every store succeeds. -/
def lastStored? (stores : List IntStore) (index element : List Int) : Option Int64 :=
  (stores.reverse.find? fun w => w.At index element).map IntStore.value

theorem lastStored?_snoc (stores : List IntStore) (w : IntStore) (index element : List Int) :
    lastStored? (stores ++ [w]) index element =
      if w.At index element then some w.value else lastStored? stores index element := by
  rw [lastStored?, List.reverse_append, List.reverse_singleton, List.singleton_append,
    List.find?_cons]
  by_cases h : w.At index element
  · simp [h]
  · simp [h, lastStored?]

def storedInt (k : IntKind) (stores : List IntStore) (index element : List Int) : Int64 :=
  (lastStored? stores index element).elim 0 k.wrapWord

def rowMajorIndices (extents : List UInt64) : List (List Int) :=
  (MixedRadix.numerals (extents.map UInt64.toNat)).map fun ds => ds.map Nat.cast

section Positions

variable {extents shape elementShape : List UInt64} {index element : List Int64}

theorem inExtents_append_iff (h : shape.length = index.length) :
    InExtents (shape ++ elementShape) (index ++ element) ↔
      InExtents shape index ∧ InExtents elementShape element := by
  simp only [InExtents, List.length_append, List.zip_append h, List.forall_mem_append]
  constructor
  · rintro ⟨hlength, hindex, helement⟩
    exact ⟨⟨h, hindex⟩, by omega, helement⟩
  · rintro ⟨⟨-, hindex⟩, hlength, helement⟩
    exact ⟨by omega, hindex, helement⟩

theorem map_toInt_of_inExtents (h : InExtents extents index) :
    index.map Int64.toInt = (index.map Int64.toNatClampNeg).map Nat.cast := by
  rw [inExtents_iff] at h
  induction h with
  | nil => rfl
  | cons hi _ ih =>
    rw [List.map_cons, List.map_cons, List.map_cons, ih, Int64.toNatClampNeg,
      Int.toNat_of_nonneg hi.1]

theorem inExtents_of_map_toInt {ds : List Nat} (h : index.map Int64.toInt = ds.map Nat.cast)
    (hds : MixedRadix.Within (extents.map UInt64.toNat) ds) : InExtents extents index := by
  rw [inExtents_iff]
  induction extents generalizing index ds with
  | nil =>
    cases hds
    obtain rfl : index = [] := by simpa using h
    exact .nil
  | cons e extents ih =>
    obtain _ | ⟨hd, hds⟩ := hds
    obtain ⟨i, index, rfl⟩ := List.exists_cons_of_ne_nil
      (show index ≠ [] by rintro rfl; cases h)
    obtain ⟨hi, hrest⟩ := List.cons_eq_cons.mp h
    exact .cons (by omega) (ih hrest hds)

theorem IntStore.at_iff {w : IntStore} {ds es : List Nat} (hindex : InExtents shape w.index)
    (hds : MixedRadix.Within (shape.map UInt64.toNat) ds)
    (helement : InExtents elementShape w.element) :
    w.At (ds.map Nat.cast) (es.map Nat.cast) ↔
      (w.index ++ w.element).map Int64.toNatClampNeg = ds ++ es := by
  have hcast := List.map_injective_iff.mpr (Nat.cast_injective (R := Int))
  have hlength : (w.index.map Int64.toNatClampNeg).length = ds.length := by
    rw [List.length_map, ← hindex.1, ← hds.length_eq, List.length_map]
  rw [At, map_toInt_of_inExtents hindex, map_toInt_of_inExtents helement, hcast.eq_iff,
    hcast.eq_iff, List.map_append]
  constructor
  · rintro ⟨rfl, rfl⟩
    rfl
  · exact fun h => List.append_inj h hlength

end Positions

namespace Buffer

section Access

variable {b : Buffer} {index element : List Int64}

theorem offset_eq_ok_iff_inExtents {offset : UInt64} :
    b.offset index element = .ok offset ↔
      (InExtents b.shape index ∧ InExtents b.elementShape element) ∧
        offset.toNat = cellNumber b.extents (index ++ element) := by
  rw [offset_eq_ok_iff]
  constructor
  · rintro ⟨hindex, -, hin, hvalue⟩
    exact ⟨(inExtents_append_iff hindex.symm).mp hin, hvalue⟩
  · rintro ⟨⟨hindex, helement⟩, hvalue⟩
    exact ⟨hindex.1.symm, helement.1.symm,
      (inExtents_append_iff hindex.1).mpr ⟨hindex, helement⟩, hvalue⟩

variable (hb : b.Allocated) (hfits : b.Fits)

include hfits in
theorem exists_offset_iff :
    (∃ offset, b.offset index element = .ok offset) ↔
      InExtents b.shape index ∧ InExtents b.elementShape element := by
  constructor
  · rintro ⟨offset, h⟩
    exact (offset_eq_ok_iff_inExtents.mp h).1
  · intro h
    have hin : InExtents b.extents (index ++ element) := (inExtents_append_iff h.1.1).mpr h
    exact ⟨_, offset_eq_ok_iff_inExtents.mpr ⟨h, toNat_cellNumber hfits hin⟩⟩

include hb in
theorem cell_eq_offset (index element : List Int64) :
    b.cell index element = b.offset index element := by
  cases h : b.offset index element with
  | error fault =>
    rw [cell, h]
    rfl
  | ok offset => exact cell_of_offset hb h

include hb in
theorem cell_eq_ok_iff_inExtents {offset : UInt64} :
    b.cell index element = .ok offset ↔
      (InExtents b.shape index ∧ InExtents b.elementShape element) ∧
        offset.toNat = cellNumber b.extents (index ++ element) := by
  rw [cell_eq_offset hb, offset_eq_ok_iff_inExtents]

include hb hfits in
theorem exists_cell_iff :
    (∃ offset, b.cell index element = .ok offset) ↔
      InExtents b.shape index ∧ InExtents b.elementShape element := by
  rw [cell_eq_offset hb, exists_offset_iff hfits]

include hb hfits in
theorem exists_cell_eq_error_iff :
    (∃ fault, b.cell index element = .error fault) ↔
      ¬(InExtents b.shape index ∧ InExtents b.elementShape element) := by
  rw [← exists_cell_iff hb hfits]
  cases b.cell index element <;> simp

theorem setInt_eq_error_iff {value : Int64} {fault : AccessFault} :
    b.setInt index element value = .error fault ↔ b.cell index element = .error fault := by
  rw [setInt, store]
  cases b.cell index element <;> simp [bind, Except.bind, pure, Except.pure]

theorem getInt_eq_error_iff {fault : AccessFault} :
    b.getInt index element = .error fault ↔ b.cell index element = .error fault := by
  rw [getInt, load]
  cases b.cell index element <;>
    simp [bind, Except.bind, pure, Except.pure, Functor.map, Except.map]

theorem setInt_eq_ok_iff {value : Int64} {b' : Buffer} :
    b.setInt index element value = .ok b' ↔
      ∃ offset, b.cell index element = .ok offset ∧
        b' = b.setCell offset (b.kind.encodeInt value) := by
  rw [setInt, store]
  cases b.cell index element <;> simp [bind, Except.bind, pure, Except.pure, eq_comm]

end Access

section Number

variable {b : Buffer} {offset : UInt64} {ds es : List Nat} (hb : b.Allocated)
  (hds : MixedRadix.Within (b.shape.map UInt64.toNat) ds)
  (hes : MixedRadix.Within (b.elementShape.map UInt64.toNat) es)

include hds hes in
theorem within_append : MixedRadix.Within (b.extents.map UInt64.toNat) (ds ++ es) := by
  rw [extents, List.map_append]
  exact List.rel_append hds hes

include hb hds hes in
theorem offset_eq_value_iff {w : IntStore} (h : b.cell w.index w.element = .ok offset) :
    offset.toNat = MixedRadix.value (b.extents.map UInt64.toNat) (ds ++ es) ↔
      w.At (ds.map Nat.cast) (es.map Nat.cast) := by
  obtain ⟨⟨hindex, helement⟩, hvalue⟩ := (cell_eq_ok_iff_inExtents hb).mp h
  have hin : InExtents b.extents (w.index ++ w.element) :=
    (inExtents_append_iff hindex.1).mpr ⟨hindex, helement⟩
  rw [hvalue, cellNumber, IntStore.at_iff hindex hds helement]
  constructor
  · exact MixedRadix.value_inj (within_of_inExtents hin) (within_append hds hes)
  · exact fun heq => heq ▸ rfl

end Number

def storeAll (b : Buffer) (stores : List IntStore) : Buffer := stores.foldl IntStore.apply b

theorem alike_apply (b : Buffer) (w : IntStore) : (IntStore.apply b w).Alike b := by
  rw [IntStore.apply]
  split
  · rename_i h
    obtain ⟨offset, -, rfl⟩ := setInt_eq_ok_iff.mp h
    exact b.alike_setCell offset _
  · exact .refl b

theorem alike_storeAll (b : Buffer) (stores : List IntStore) : (b.storeAll stores).Alike b := by
  induction stores generalizing b with
  | nil => exact .refl b
  | cons w stores ih => exact (ih (IntStore.apply b w)).trans (alike_apply b w)

def storedBits (k : IntKind) (stores : List IntStore) (index element : List Int) : UInt64 :=
  (lastStored? stores index element).elim 0 (ScalarKind.int k).encodeInt

/-- An integer buffer whose cells hold what the stores left in them. -/
structure Remembers (b : Buffer) (k : IntKind) (stores : List IntStore) : Prop where
  kind_eq : b.kind = .int k
  built : b.Built
  cells : ∀ ds es, MixedRadix.Within (b.shape.map UInt64.toNat) ds →
    MixedRadix.Within (b.elementShape.map UInt64.toNat) es →
    b.cells[MixedRadix.value (b.extents.map UInt64.toNat) (ds ++ es)]? =
      some (storedBits k stores (ds.map Nat.cast) (es.map Nat.cast))

theorem remembers_zeroed {k : IntKind} {shape elementShape : List UInt64} {b : Buffer}
    (h : zeroed? (.int k) shape elementShape = some b) : b.Remembers k [] where
  kind_eq := (eq_of_zeroed? h).1
  built := built_of_zeroed? h
  cells ds es hds hes := by
    have hlt := MixedRadix.value_lt (within_append hds hes)
    rw [← (built_of_zeroed? h).allocated] at hlt
    rw [Array.getElem?_eq_getElem hlt, bits_of_zeroed? h (Array.getElem_mem hlt)]
    rfl

namespace Remembers

variable {b : Buffer} {k : IntKind} {stores : List IntStore} {w : IntStore}

theorem skip (h : b.Remembers k stores) {fault : AccessFault} (hcall : w.call b = .error fault) :
    b.Remembers k (stores ++ [w]) := by
  refine ⟨h.kind_eq, h.built, fun ds es hds hes => ?_⟩
  have hout := (exists_cell_eq_error_iff h.built.allocated h.built.fits).mp
    ⟨fault, setInt_eq_error_iff.mp hcall⟩
  have hat : ¬w.At (ds.map Nat.cast) (es.map Nat.cast) := fun hat =>
    hout ⟨inExtents_of_map_toInt hat.1 hds, inExtents_of_map_toInt hat.2 hes⟩
  rw [storedBits, lastStored?_snoc, if_neg hat, h.cells ds es hds hes, storedBits]

theorem setCell (h : b.Remembers k stores) {offset : UInt64}
    (hcell : b.cell w.index w.element = .ok offset) :
    (b.setCell offset (b.kind.encodeInt w.value)).Remembers k (stores ++ [w]) := by
  refine ⟨h.kind_eq, (b.alike_setCell _ _).built h.built, fun ds es hds hes => ?_⟩
  have hlt : offset.toNat < b.cells.size := (cell_eq_ok_iff.mp hcell).2
  have hplace := offset_eq_value_iff h.built.allocated hds hes hcell
  rw [storedBits, lastStored?_snoc]
  by_cases hat : w.At (ds.map Nat.cast) (es.map Nat.cast)
  · rw [if_pos hat, h.kind_eq]
    exact hplace.mpr hat ▸ Array.getElem?_setIfInBounds_self_of_lt hlt
  · rw [if_neg hat]
    exact (Array.getElem?_setIfInBounds_ne fun heq => hat (hplace.mp heq)).trans
      (h.cells ds es hds hes)

theorem apply (h : b.Remembers k stores) (w : IntStore) :
    (IntStore.apply b w).Remembers k (stores ++ [w]) := by
  rw [IntStore.apply]
  split
  · rename_i hcall
    obtain ⟨offset, hcell, rfl⟩ := setInt_eq_ok_iff.mp hcall
    exact h.setCell hcell
  · rename_i hcall
    exact h.skip hcall

end Remembers

theorem decodeInt_storedBits (k : IntKind) (stores : List IntStore) (index element : List Int) :
    (ScalarKind.int k).decodeInt (storedBits k stores index element) =
      storedInt k stores index element := by
  rw [storedBits, storedInt]
  cases lastStored? stores index element with
  | none => rfl
  | some v => exact k.decodeInt_encodeInt v

namespace Remembers

variable {b : Buffer} {k : IntKind} {stores : List IntStore}

theorem getInt (h : b.Remembers k stores) {index element : List Int64}
    (hindex : InExtents b.shape index) (helement : InExtents b.elementShape element) :
    b.getInt index element =
      .ok (storedInt k stores (index.map Int64.toInt) (element.map Int64.toInt)) := by
  obtain ⟨offset, hcell⟩ :=
    (exists_cell_iff h.built.allocated h.built.fits).mpr ⟨hindex, helement⟩
  have hvalue := ((cell_eq_ok_iff_inExtents h.built.allocated).mp hcell).2
  have hbits := h.cells _ _ (within_of_inExtents hindex) (within_of_inExtents helement)
  rw [← List.map_append, ← map_toInt_of_inExtents hindex, ← map_toInt_of_inExtents helement]
    at hbits
  change b.cells[cellNumber b.extents (index ++ element)]? = _ at hbits
  rw [Buffer.getInt, load_of_cell hcell]
  simp only [Functor.map, Except.map]
  rw [hvalue, Array.getD_eq_getD_getElem?, hbits, Option.getD_some, h.kind_eq,
    decodeInt_storedBits]

theorem toIntList (h : b.Remembers k stores) :
    b.toIntList =
      (rowMajorIndices b.shape).flatMap fun index =>
        (rowMajorIndices b.elementShape).map fun element => storedInt k stores index element := by
  have hsize : b.cells.size = (b.extents.map UInt64.toNat).prod := h.built.allocated
  have hlist : b.toIntList =
      (List.range (b.extents.map UInt64.toNat).prod).map fun n =>
        b.kind.decodeInt (b.cells[n]?.getD 0) := by
    apply List.ext_getElem
    · simp [Buffer.toIntList, hsize]
    · intro n hn _
      have hlt : n < b.cells.size := by simpa [Buffer.toIntList] using hn
      simp [Buffer.toIntList, hlt]
  rw [hlist, ← MixedRadix.map_value_numerals, extents, List.map_append, MixedRadix.numerals_append,
    List.map_map, List.map_flatMap, rowMajorIndices, rowMajorIndices, List.flatMap_map]
  refine List.flatMap_congr fun ds hds => ?_
  rw [List.map_map, List.map_map]
  refine List.map_congr_left fun es hes => ?_
  have hbits := h.cells ds es (MixedRadix.within_iff_mem_numerals.mpr hds)
    (MixedRadix.within_iff_mem_numerals.mpr hes)
  rw [extents, List.map_append] at hbits
  simp [hbits, h.kind_eq, decodeInt_storedBits]

end Remembers

theorem remembers_storeAll {k : IntKind} {shape elementShape : List UInt64} {zeros : Buffer}
    (h : zeroed? (.int k) shape elementShape = some zeros) (stores : List IntStore) :
    (zeros.storeAll stores).Remembers k stores := by
  induction stores using List.reverseRecOn with
  | nil => exact remembers_zeroed h
  | append_singleton stores w ih =>
    rw [storeAll, List.foldl_append]
    exact ih.apply w

/-- An integer buffer is a map from positions to integers of its kind, zero at first. A store fails
exactly outside the extents or with the wrong number of components, and then the buffer is as it was;
the run goes on unless an offset left the words before. A read fails where a store does. Inside the
extents a read gives the value last stored there, wrapped to the kind, and the cells are listed by
index and component in row-major order. -/
theorem reads_last_stored {k : IntKind} {shape elementShape : List UInt64} {zeros : Buffer}
    (hzeros : zeroed? (.int k) shape elementShape = some zeros) (stores : List IntStore) :
    let b := zeros.storeAll stores
    (∀ w : IntStore,
      ((∃ fault, w.call b = .error fault) ↔
        ¬(InExtents shape w.index ∧ InExtents elementShape w.element)) ∧
      ∀ fault, w.call b = .error fault →
        (zeros.OffsetsFit → fault.aborts = false) ∧ w.apply b = b) ∧
    (∀ index element value fault,
      b.getInt index element = .error fault ↔ b.setInt index element value = .error fault) ∧
    (∀ index element, InExtents shape index → InExtents elementShape element →
      b.getInt index element =
        .ok (storedInt k stores (index.map Int64.toInt) (element.map Int64.toInt))) ∧
    (b.toIntList =
      (rowMajorIndices shape).flatMap fun index =>
        (rowMajorIndices elementShape).map fun element => storedInt k stores index element) ∧
    (k = .u64 → ∀ v, k.wrapWord v = v) ∧
    (k ≠ .u64 → ∀ v, k.Range (k.wrapWord v).toInt ∧
      (k.wrapWord v).toInt % 2 ^ k.width = v.toInt % 2 ^ k.width) := by
  intro b
  have h : b.Remembers k stores := remembers_storeAll hzeros stores
  have halike : b.Alike zeros := alike_storeAll zeros stores
  obtain ⟨-, hshape, helementShape⟩ := eq_of_zeroed? hzeros
  rw [← halike.shape_eq] at hshape
  rw [← halike.elementShape_eq] at helementShape
  refine ⟨fun w => ⟨?_, fun fault hfault => ⟨fun hoffsets => ?_, ?_⟩⟩,
    fun index element value fault => getInt_eq_error_iff.trans setInt_eq_error_iff.symm,
    fun index element hindex helement => h.getInt (hshape ▸ hindex) (helementShape ▸ helement),
    ?_, fun hk v => hk ▸ IntKind.wrapWord_u64 v, fun hk v => IntKind.toInt_wrapWord hk v⟩
  · rw [← hshape, ← helementShape, ← exists_cell_eq_error_iff h.built.allocated h.built.fits]
    exact exists_congr fun fault => setInt_eq_error_iff
  · have hcell := setInt_eq_error_iff.mp hfault
    rw [cell_eq_offset h.built.allocated, halike.offset_eq] at hcell
    exact aborts_of_offset_eq_error hoffsets hcell
  · rw [IntStore.apply, hfault]
  · rw [h.toIntList, hshape, helementShape]

theorem reads_last_stored_pairs :
    let stores : List IntStore := [⟨[1, 0], [1], 300⟩, ⟨[1, 0], [1], 200⟩, ⟨[2, 0], [1], 5⟩,
      ⟨[1], [0, 1], 7⟩]
    ∃ zeros, zeroed? (.int .i8) [2, 2] [2] = some zeros ∧
      (∃ fault, (⟨[1], [0, 1], 7⟩ : IntStore).call (zeros.storeAll stores) = .error fault ∧
        fault.aborts = false) ∧
      (zeros.storeAll stores).getInt [1, 0] [1] = .ok (-56) ∧
      (zeros.storeAll stores).getInt [0, 1] [0] = .ok 0 ∧
      (zeros.storeAll stores).toIntList = [0, 0, 0, 0, 0, -56, 0, 0] := by
  intro stores
  have hzeros : zeroed? (.int .i8) [2, 2] [2] =
      some ⟨.int .i8, [2, 2], [2], Array.replicate 8 0⟩ := by decide
  obtain ⟨hcalls, -, hreads, hlist, -⟩ := reads_last_stored hzeros stores
  obtain ⟨hfails, hafter⟩ := hcalls ⟨[1], [0, 1], 7⟩
  obtain ⟨fault, hfault⟩ := hfails.mpr (by decide)
  exact ⟨_, hzeros, ⟨fault, hfault, (hafter fault hfault).1 (by decide)⟩,
    hreads [1, 0] [1] (by decide) (by decide), hreads [0, 1] [0] (by decide) (by decide), hlist⟩

end Buffer

end LoopNest
