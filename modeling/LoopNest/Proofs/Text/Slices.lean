import LoopNest.Text.Basic
import Mathlib.Data.String.Basic

/-! Texts inside texts. A text that stands at a byte offset of a source can be cut out of it there,
whatever characters come before it; the span of its bytes does so as long as the source is shorter
than the words of a span can count. -/

namespace LoopNest

theorem splitAtByte?_append (before after : List Char) :
    splitAtByte? (before ++ after) (String.utf8Len before) = some (before, after) := by
  induction before with
  | nil => cases after <;> rfl
  | cons c before ih =>
    -- Every character has a byte, so the cut is not before this one.
    obtain ⟨n, hn⟩ : ∃ n, String.utf8Len before + c.utf8Size = n + 1 :=
      Nat.exists_eq_add_one.mpr (Nat.add_pos_right _ c.utf8Size_pos)
    have hle : c.utf8Size ≤ n + 1 := hn ▸ Nat.le_add_left ..
    have hrest : n + 1 - c.utf8Size = String.utf8Len before := by omega
    rw [String.utf8Len_cons, hn, List.cons_append, splitAtByte?, if_pos hle, hrest, ih]
    rfl

theorem byteSlice?_append (before slice after : List Char) :
    byteSlice? (before ++ (slice ++ after)) (String.utf8Len before)
      (String.utf8Len before + String.utf8Len slice) = some slice := by
  rw [byteSlice?, if_pos (Nat.le_add_right ..), splitAtByte?_append, Nat.add_sub_cancel_left]
  simp [splitAtByte?_append]

theorem length_le_utf8Len (cs : List Char) : cs.length ≤ String.utf8Len cs := by
  induction cs with
  | nil => exact Nat.le_refl 0
  | cons c cs ih =>
    have hc := c.utf8Size_pos
    rw [List.length_cons, String.utf8Len_cons]
    omega

/-- There are as many bytes as characters exactly if no character has several. -/
theorem utf8Len_eq_length_iff {cs : List Char} :
    String.utf8Len cs = cs.length ↔ ∀ c ∈ cs, c.utf8Size = 1 := by
  induction cs with
  | nil => simp
  | cons c cs ih =>
    have hc := c.utf8Size_pos
    have hcs := length_le_utf8Len cs
    rw [List.forall_mem_cons, ← ih, List.length_cons, String.utf8Len_cons]
    omega

/-- The text is part of the source, from the offset on. -/
def StandsAt (text : String) (offset : Nat) (source : String) : Prop :=
  ∃ before after, source = before ++ text ++ after ∧ before.utf8ByteSize = offset

namespace StandsAt

variable {text source : String} {offset : Nat}

theorem refl (text : String) : StandsAt text 0 text := ⟨"", "", by simp⟩

theorem append (before text after : String) :
    StandsAt text before.utf8ByteSize (before ++ text ++ after) := ⟨before, after, rfl, rfl⟩

theorem trans {inner : String} {skipped : Nat} (h : StandsAt inner skipped text)
    (hs : StandsAt text offset source) : StandsAt inner (offset + skipped) source := by
  obtain ⟨before, after, rfl, rfl⟩ := h
  obtain ⟨first, last, rfl, rfl⟩ := hs
  exact ⟨first ++ before, after ++ last, by simp [String.append_assoc], String.utf8ByteSize_append⟩

theorem end_le (h : StandsAt text offset source) :
    offset + text.utf8ByteSize ≤ source.utf8ByteSize := by
  obtain ⟨before, after, rfl, rfl⟩ := h
  rw [String.utf8ByteSize_append, String.utf8ByteSize_append]
  omega

theorem byteSlice?_eq (h : StandsAt text offset source) :
    byteSlice? source.toList offset (offset + text.utf8ByteSize) = some text.toList := by
  obtain ⟨before, after, rfl, rfl⟩ := h
  rw [String.toList_append, String.toList_append, List.append_assoc, ← String.utf8Len_toList,
    ← String.utf8Len_toList text]
  exact byteSlice?_append ..

end StandsAt

namespace Span

def Inside (span outer : Span) : Prop := outer.start ≤ span.start ∧ span.stop ≤ outer.stop

variable {text source : String} {offset length : Nat}

theorem toNat_start_ofLength (h : offset + length < 2 ^ 32) :
    (ofLength offset length).start.toNat = offset :=
  Nat.mod_eq_of_lt (by omega)

theorem toNat_stop_ofLength (h : offset + length < 2 ^ 32) :
    (ofLength offset length).stop.toNat = offset + length :=
  Nat.mod_eq_of_lt (by omega)

theorem slice?_of_standsAt (hshort : source.utf8ByteSize < 2 ^ 32)
    (h : StandsAt text offset source) :
    (ofLength offset text.utf8ByteSize).slice? source = some text := by
  have hend := h.end_le.trans_lt hshort
  rw [slice?, toNat_start_ofLength hend, toNat_stop_ofLength hend, h.byteSlice?_eq]
  simp

theorem slice?_whole (hshort : source.utf8ByteSize < 2 ^ 32) :
    (whole source).slice? source = some source :=
  slice?_of_standsAt hshort (.refl source)

/-- The characters before a span, under it and after it. -/
structure Parts (span : Span) (source : String) (before slice after : List Char) : Prop where
  source : source.toList = before ++ slice ++ after
  start : String.utf8Len before = span.start.toNat
  stop : String.utf8Len (before ++ slice) = span.stop.toNat

namespace Parts

variable {span : Span} {before slice after : List Char}

theorem length_le (h : span.Parts source before slice after) :
    (before ++ slice).length ≤ source.toList.length := by
  rw [h.source]
  exact (List.prefix_append ..).length_le

theorem length_lt (h : span.Parts source before slice after)
    (hstop : span.stop.toNat < source.utf8ByteSize) :
    (before ++ slice).length < source.toList.length := by
  have hafter : after ≠ [] := by
    rintro rfl
    have hsize := h.stop
    rw [← List.append_nil (before ++ slice), ← h.source, String.utf8Len_toList] at hsize
    omega
  simp only [h.source, List.length_append]
  exact Nat.lt_add_of_pos_right (List.length_pos_iff.mpr hafter)

theorem stop_eq_length_iff (h : span.Parts source before slice after) :
    span.stop.toNat = (before ++ slice).length ↔
      ∀ c ∈ source.toList.take span.stop.toNat, c.utf8Size = 1 := by
  rw [← h.stop, h.source]
  constructor
  · intro hlength
    rw [hlength, List.take_left]
    exact utf8Len_eq_length_iff.mp hlength
  · intro hbytes
    refine utf8Len_eq_length_iff.mpr fun c hc => hbytes c ?_
    rw [List.take_append, List.mem_append]
    exact .inl (by rwa [List.take_of_length_le (length_le_utf8Len _)])

theorem slice?_eq (h : span.Parts source before slice after) :
    span.slice? source = some (String.ofList slice) := by
  rw [slice?, ← h.start, ← h.stop, String.utf8Len_append, h.source, List.append_assoc,
    byteSlice?_append]
  rfl

theorem start_eq_length (h : span.Parts source before slice after)
    (hstop : span.stop.toNat = (before ++ slice).length) : span.start.toNat = before.length := by
  rw [← h.stop, utf8Len_eq_length_iff, List.forall_mem_append] at hstop
  rw [← h.start]
  exact utf8Len_eq_length_iff.mpr hstop.1

end Parts

theorem exists_parts_of_standsAt (hshort : source.utf8ByteSize < 2 ^ 32)
    (h : StandsAt text offset source) :
    ∃ before after, (ofLength offset text.utf8ByteSize).Parts source before text.toList after := by
  have hend := h.end_le.trans_lt hshort
  obtain ⟨before, after, rfl, rfl⟩ := h
  refine ⟨before.toList, after.toList, ?_, ?_, ?_⟩
  · rw [String.toList_append, String.toList_append]
  · rw [toNat_start_ofLength hend, String.utf8Len_toList]
  · rw [toNat_stop_ofLength hend, String.utf8Len_append, String.utf8Len_toList,
      String.utf8Len_toList]

end Span

end LoopNest
