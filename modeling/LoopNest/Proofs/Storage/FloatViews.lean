import LoopNest.Proofs.Number.ExactIntegers
import LoopNest.Proofs.Storage.LastStores

/-! Integer cells read and written as floats. Both directions keep an integer of the kind that is a
double, except that a float is stored by way of a signed word: what a `u64` cell holds from two to the
63rd on is read back as it is, but cannot be written. -/

namespace LoopNest

namespace IntKind

variable {k : IntKind} {bits : UInt64} {n : Int} {x : Binary64}

theorem wrap_of_range (h : k.Range n) : k.wrap n = n := by
  cases k <;> simp [Range, wrap, least, greatest, width, signed, Int.bmod_def] at h ⊢ <;> omega

theorem ofInt_read (k : IntKind) (bits : UInt64) : UInt64.ofInt (k.read bits) = bits := by
  have hlt := bits.toNat_lt
  have hcast : ((UInt64.ofInt (k.read bits)).toNat : Int) = bits.toNat := by
    rw [natCast_toNat_ofInt, read]
    split
    · rw [toInt_toInt64, Int.bmod_def]
      split <;> omega
    · omega
  exact UInt64.toNat_inj.mp (Int.ofNat_inj.mp hcast)

theorem decodeFloat_of_range (h : k.Range (k.read bits)) :
    (ScalarKind.int k).decodeFloat bits = .ofInt (k.read bits) := by
  by_cases hk : k = .u64
  · subst hk
    rfl
  · rw [← toInt_toInt64_of_inWord (inWord_of_range h hk)]
    cases k with
    | u64 => exact absurd rfl hk
    | _ => rfl

theorem is_decodeFloat (hrange : k.Range n) (hx : x.value.Is n) (hread : k.read bits = n) :
    ((ScalarKind.int k).decodeFloat bits).value.Is n := by
  subst hread
  rw [decodeFloat_of_range hrange]
  exact Binary64.is_ofInt hx

theorem encodeFloat_of_inWord (hrange : k.Range n) (hx : x.value.Is n) (hword : InWord n) :
    (ScalarKind.int k).encodeFloat x = UInt64.ofInt n := by
  have hvalue : x.toInt64.toInt = n := by
    rw [Binary64.toInt64, hx.toInt_toInt64]
    have hlow := hword.1
    have hhigh := hword.2
    omega
  rw [ScalarKind.encodeFloat, ScalarKind.encodeInt, hvalue, wrap_of_range hrange]

def clamped : UInt64 := 0x7fffffffffffffff

/-- Only `u64` has values without a signed word, and all of them are stored as the same one. -/
theorem encodeFloat_of_not_inWord (hrange : k.Range n) (hx : x.value.Is n) (hword : ¬InWord n) :
    k = .u64 ∧ wordBound ≤ n ∧ (ScalarKind.int k).encodeFloat x = clamped := by
  obtain rfl : k = .u64 := by
    by_contra hk
    exact hword (inWord_of_range hrange hk)
  have hlow : 0 ≤ n := hrange.1
  have hge : wordBound ≤ n := by
    by_contra hlt
    exact hword ⟨by omega, by omega⟩
  have hvalue : x.toInt64.toInt = wordBound - 1 := by
    have hpos : 0 < wordBound := by decide
    rw [Binary64.toInt64, hx.toInt_toInt64]
    omega
  refine ⟨rfl, hge, ?_⟩
  rw [ScalarKind.encodeFloat, ScalarKind.encodeInt, hvalue]
  decide

theorem read_encodeFloat_eq_iff (hrange : k.Range n) (hx : x.value.Is n) :
    k.read ((ScalarKind.int k).encodeFloat x) = n ↔ InWord n := by
  by_cases hword : InWord n
  · rw [encodeFloat_of_inWord hrange hx hword]
    exact iff_of_true (read_ofInt hrange) hword
  · obtain ⟨rfl, hge, hbits⟩ := encodeFloat_of_not_inWord hrange hx hword
    have hread : IntKind.read .u64 clamped = wordBound - 1 := by decide
    rw [hbits, hread]
    exact iff_of_false (by omega) hword

theorem is_decodeFloat_encodeFloat_iff (hrange : k.Range n) (hx : x.value.Is n) :
    ((ScalarKind.int k).decodeFloat ((ScalarKind.int k).encodeFloat x)).value.Is n ↔
      n ≤ wordBound := by
  by_cases hword : InWord n
  · have hread := (read_encodeFloat_eq_iff hrange hx).mpr hword
    exact iff_of_true (is_decodeFloat hrange hx hread) hword.2.le
  · obtain ⟨rfl, hge, hbits⟩ := encodeFloat_of_not_inWord hrange hx hword
    have hvalue : ((ScalarKind.int .u64).decodeFloat clamped).value = .finite false (2 ^ 52) 11 := by
      decide
    have hbound : ((ScalarKind.int .u64).decodeFloat clamped).value.Is wordBound := by
      rw [hvalue]
      exact ⟨2 ^ 63, rfl, by decide⟩
    rw [hbits]
    constructor
    · exact fun h => (h.unique hbound).le
    · intro hle
      rwa [show n = wordBound by omega]

end IntKind

namespace Buffer

variable {b b' : Buffer} {index element : List Int64} {k : IntKind} {n : Int} {x : Binary64}

def HasCell (b : Buffer) (index element : List Int64) : Prop :=
  ∃ offset, b.cell index element = .ok offset

theorem hasCell_iff (hb : b.Allocated) (hfits : b.Fits) :
    b.HasCell index element ↔ InExtents b.shape index ∧ InExtents b.elementShape element :=
  exists_cell_iff hb hfits

theorem getFloat_of_load {bits : UInt64} (h : b.load index element = .ok bits) :
    b.getFloat index element = .ok (b.kind.decodeFloat bits) := by
  rw [getFloat, h]
  rfl

section Cells

variable {offset : UInt64} (hcell : b.cell index element = .ok offset)
include hcell

theorem setFloat_of_cell (x : Binary64) :
    b.setFloat index element x = .ok (b.setCell offset (b.kind.encodeFloat x)) :=
  store_of_cell hcell _

theorem setCell_eq_self_iff {old : UInt64} (h : b.load index element = .ok old) (bits : UInt64) :
    b.setCell offset bits = b ↔ bits = old := by
  constructor
  · intro hsame
    have hload := load_setCell_of_cell hcell bits
    rw [hsame, h] at hload
    exact (Except.ok.inj hload).symm
  · rintro rfl
    have hlt : offset.toNat < b.cells.size := (cell_eq_ok_iff.mp hcell).2
    have hold : b.cells[offset.toNat] = bits := by
      rw [load_of_cell hcell] at h
      simpa [hlt] using h
    have hcells : b.cells.setIfInBounds offset.toNat bits = b.cells := by
      simp [Array.setIfInBounds_def, hlt, ← hold]
    rw [setCell, hcells]

end Cells

section Values

variable (hkind : b.kind = .int k) (hrange : k.Range n) (hx : x.value.Is n)
include hkind hrange hx

theorem exists_getFloat_setFloat (h : b.HasCell index element) :
    ∃ b' y, b.setFloat index element x = .ok b' ∧ b'.getFloat index element = .ok y ∧
      (y.value.Is n ↔ n ≤ wordBound) := by
  obtain ⟨offset, hcell⟩ := h
  refine ⟨_, _, setFloat_of_cell hcell x, getFloat_of_load (load_setCell_of_cell hcell _), ?_⟩
  have hkept : (b.setCell offset (b.kind.encodeFloat x)).kind = .int k := hkind
  rw [hkept, hkind]
  exact IntKind.is_decodeFloat_encodeFloat_iff hrange hx

theorem exists_setFloat_getFloat {bits : UInt64} (h : b.load index element = .ok bits)
    (hread : k.read bits = n) :
    ∃ y, b.getFloat index element = .ok y ∧ y.value.Is n ∧
      (b.setFloat index element y = .ok b ↔ InWord n) := by
  have hy := IntKind.is_decodeFloat hrange hx hread
  refine ⟨_, getFloat_of_load h, hkind ▸ hy, ?_⟩
  cases hcell : b.cell index element with
  | error fault =>
    rw [load, hcell] at h
    cases h
  | ok offset =>
    rw [setFloat_of_cell hcell, hkind, Except.ok.injEq, setCell_eq_self_iff hcell h,
      ← IntKind.read_encodeFloat_eq_iff hrange hy]
    constructor
    · rintro heq
      rw [heq, hread]
    · intro heq
      rw [← k.ofInt_read ((ScalarKind.int k).encodeFloat _), heq, ← hread, k.ofInt_read]

end Values

/-- The integer and the float view of integer cells agree on every integer of the kind that is a
double, those of `u64` that have no signed word apart. The cell of such an integer is read as the
double. The double is stored as the bits of the integer, and writing back what was read from its cell
changes nothing, exactly if the integer has a signed word; the double is read back after it was stored
exactly up to two to the 63rd. -/
theorem float_view_agrees (hrange : k.Range n) (hx : x.value.Is n) :
    (k ≠ .u64 → InWord n) ∧
    (k.read ((ScalarKind.int k).encodeFloat x) = n ↔ InWord n) ∧
    (∀ bits, k.read bits = n ↔ bits = UInt64.ofInt n) ∧
    ((ScalarKind.int k).decodeFloat (UInt64.ofInt n)).value.Is n ∧
    ∀ b : Buffer, b.kind = .int k →
      (b.Allocated → b.Fits → ∀ index element,
        InExtents b.shape index → InExtents b.elementShape element → b.HasCell index element) ∧
      ∀ index element, b.HasCell index element →
        (∃ b' y, b.setFloat index element x = .ok b' ∧ b'.getFloat index element = .ok y ∧
          (y.value.Is n ↔ n ≤ wordBound)) ∧
        (b.load index element = .ok (UInt64.ofInt n) →
          ∃ y, b.getFloat index element = .ok y ∧ y.value.Is n ∧
            (b.setFloat index element y = .ok b ↔ InWord n)) := by
  have hread : k.read (UInt64.ofInt n) = n := IntKind.read_ofInt hrange
  refine ⟨fun hk => IntKind.inWord_of_range hrange hk, IntKind.read_encodeFloat_eq_iff hrange hx,
    fun bits => ⟨?_, ?_⟩, IntKind.is_decodeFloat hrange hx hread, fun b hkind =>
      ⟨fun hb hfits index element hindex helement => (hasCell_iff hb hfits).mpr ⟨hindex, helement⟩,
        fun index element hcell => ⟨exists_getFloat_setFloat hkind hrange hx hcell,
          fun hload => exists_setFloat_getFloat hkind hrange hx hload hread⟩⟩⟩
  · rintro rfl
    exact (k.ofInt_read bits).symm
  · rintro rfl
    exact hread

theorem float_view_agrees_below_bound :
    let n : Int := 2 ^ 63 - 1024
    let x : Binary64 := ⟨0x43DFFFFFFFFFFFFF⟩
    let b : Buffer := ⟨.int .u64, [2, 3], [], #[0, 0, 0, 0, 0, 0]⟩
    IntKind.Range .u64 n ∧ x.value.Is n ∧
      IntKind.read .u64 ((ScalarKind.int .u64).encodeFloat x) = n ∧
      ∃ b' y, b.setFloat [1, 2] [] x = .ok b' ∧ b'.getFloat [1, 2] [] = .ok y ∧ y.value.Is n := by
  intro n x b
  have hrange : IntKind.Range .u64 n := by decide
  have hx : x.value.Is n := by
    have hvalue : x.value = .finite false (2 ^ 53 - 1) 10 := by decide
    rw [hvalue]
    exact ⟨2 ^ 63 - 1024, rfl, by decide⟩
  obtain ⟨-, hbits, -, -, hbuffers⟩ := float_view_agrees hrange hx
  obtain ⟨hinside, hcells⟩ := hbuffers b rfl
  have hcell : b.HasCell [1, 2] [] :=
    hinside (by decide) (by decide) _ _ (by decide) (by decide)
  obtain ⟨⟨b', y, hset, hget, hy⟩, -⟩ := hcells _ _ hcell
  exact ⟨hrange, hx, hbits.mpr (by decide), b', y, hset, hget, hy.mpr (by decide)⟩

/-- Two to the 63rd and 2048 is a value of `u64` and a double; it is stored as another value, and read
back as two to the 63rd. -/
theorem float_view_differs_above_bound :
    let n : Int := 2 ^ 63 + 2048
    let x : Binary64 := ⟨0x43E0000000000001⟩
    let b : Buffer := ⟨.int .u64, [1], [], #[0]⟩
    zeroed? (.int .u64) [1] [] = some b ∧ IntKind.Range .u64 n ∧ x.value.Is n ∧
      IntKind.read .u64 ((ScalarKind.int .u64).encodeFloat x) = 2 ^ 63 - 1 ∧
      ∃ b' y, b.setFloat [0] [] x = .ok b' ∧ b'.getFloat [0] [] = .ok y ∧ ¬y.value.Is n := by
  intro n x b
  have hrange : IntKind.Range .u64 n := by decide
  have hx : x.value.Is n := by
    have hvalue : x.value = .finite false (2 ^ 52 + 1) 11 := by decide
    rw [hvalue]
    exact ⟨2 ^ 63 + 2048, rfl, by decide⟩
  have hcell : b.HasCell [0] [] := ⟨0, by decide⟩
  obtain ⟨b', y, hset, hget, hy⟩ := exists_getFloat_setFloat rfl hrange hx hcell
  exact ⟨by decide, hrange, hx, by decide, b', y, hset, hget, fun hsame => absurd (hy.mp hsame) (by decide)⟩

end Buffer

end LoopNest
