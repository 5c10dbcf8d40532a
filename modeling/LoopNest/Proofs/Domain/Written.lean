import LoopNest.Domain.CallSite
import LoopNest.Proofs.Text.Slices

/-! A range call written in one pass. The arguments are appended to a text one after the other, and
where each begins and ends is the length of the text at that time; the leaves are then found by
walking the arguments together with this record. Nothing is measured in advance, and yet the text,
the spans and the leaves are those of the measured call. -/

namespace LoopNest

def Span.appended (before after : String) : Span :=
  ⟨before.utf8ByteSize.toUInt32, after.utf8ByteSize.toUInt32⟩

/-- Where an argument was written, and where the elements were if it is a splat. -/
inductive Written where
  | mk (span : Span) (elements : List Written)

def Written.span : Written → Span
  | mk span _ => span

def Written.elements : Written → List Written
  | mk _ elements => elements

namespace RangeArg

mutual

def write (out : String) : RangeArg → String × Written
  | .scalar upper =>
    let after := out ++ upper.text
    (after, .mk (.appended out after) [])
  | .seq items =>
    let inner := out ++ "(" ++ commaSeparated (Bound.texts items)
    let after := (if items.length = 1 then inner ++ "," else inner) ++ ")"
    (after, .mk (.appended out after) [])
  | .splat args =>
    let inner := writeAll (out ++ "*[") "" args
    let after := inner.1 ++ "]"
    (after, .mk (.appended out after) inner.2)

def writeAll (out comma : String) : List RangeArg → String × List Written
  | [] => (out, [])
  | a :: as =>
    let first := a.write (out ++ comma)
    let rest := writeAll first.1 ", " as
    (rest.1, first.2 :: rest.2)

end

mutual

def writtenLeaves (position : Nat) (w : Written) : RangeArg → List Leaf
  | .scalar upper => [⟨.scalar upper, position, w.span⟩]
  | .seq items => [⟨.seq items, position, w.span⟩]
  | .splat args => writtenElements position w.elements args

def writtenElements (position : Nat) : List Written → List RangeArg → List Leaf
  | w :: ws, a :: as => a.writtenLeaves position w ++ writtenElements position ws as
  | _, [] | [], _ => []

end

def writtenArgs (position : Nat) : List Written → List RangeArg → List Leaf
  | w :: ws, a :: as => a.writtenLeaves position w ++ writtenArgs (position + 1) ws as
  | _, [] | [], _ => []

theorem commaSeparated_texts {as : List RangeArg} (a : RangeArg) (h : as ≠ []) :
    commaSeparated (texts (a :: as)) = a.text ++ ", " ++ commaSeparated (texts as) := by
  rw [texts]
  refine String.intercalate_cons_of_ne_nil ?_
  cases as with
  | nil => exact absurd rfl h
  | cons next as => simp [texts]

def appendedText (comma : String) : List RangeArg → String
  | [] => ""
  | a :: as => comma ++ a.text ++ appendedText ", " as

theorem appendedText_cons (comma : String) (a : RangeArg) (as : List RangeArg) :
    appendedText comma (a :: as) = comma ++ commaSeparated (texts (a :: as)) := by
  induction as generalizing comma a with
  | nil => simp [appendedText, texts, commaSeparated]
  | cons next as ih =>
    rw [appendedText, ih, commaSeparated_texts a (by simp)]
    simp [String.append_assoc]

theorem appendedText_empty (args : List RangeArg) :
    appendedText "" args = commaSeparated (texts args) := by
  cases args with
  | nil => rfl
  | cons a as => rw [appendedText_cons, String.empty_append]

mutual

theorem write_text (out : String) (a : RangeArg) : (a.write out).1 = out ++ a.text := by
  match a with
  | .scalar upper => rw [write, text]
  | .seq items =>
    rw [write, text, seqText]
    split <;> simp [String.append_assoc]
  | .splat args =>
    rw [write, text, writeAll_text (out ++ "*[") "" args, appendedText_empty]
    simp [String.append_assoc]

theorem writeAll_text (out comma : String) (args : List RangeArg) :
    (writeAll out comma args).1 = out ++ appendedText comma args := by
  match args with
  | [] => simp [writeAll, appendedText]
  | a :: as =>
    rw [writeAll, writeAll_text _ ", " as, write_text (out ++ comma) a, appendedText]
    simp [String.append_assoc]

end

theorem write_span (out : String) (a : RangeArg) :
    (a.write out).2.span = .ofLength out.utf8ByteSize a.width := by
  have happended : (a.write out).2.span = .appended out (a.write out).1 := by
    cases a <;> rw [write] <;> rfl
  rw [happended, write_text, Span.appended, Span.ofLength, width, String.utf8ByteSize_append]

theorem utf8ByteSize_next (out : String) (a : RangeArg) :
    ((a.write out).1 ++ ", ").utf8ByteSize = a.nextOffset out.utf8ByteSize := by
  rw [write_text, String.utf8ByteSize_append, String.utf8ByteSize_append]
  rfl

mutual

theorem writtenLeaves_write (position : Nat) (out : String) (a : RangeArg) :
    a.writtenLeaves position (a.write out).2 = a.leavesAt position out.utf8ByteSize := by
  match a with
  | .scalar upper => rw [writtenLeaves, leavesAt, write_span]
  | .seq items => rw [writtenLeaves, leavesAt, write_span]
  | .splat args =>
    rw [writtenLeaves, leavesAt, write]
    have hinner := writtenElements_writeAll position (out ++ "*[") "" args
    rwa [String.append_empty, String.utf8ByteSize_append] at hinner

theorem writtenElements_writeAll (position : Nat) (out comma : String) (args : List RangeArg) :
    writtenElements position (writeAll out comma args).2 args =
      splicedLeaves position (out ++ comma).utf8ByteSize args := by
  match args with
  | [] => rw [writtenElements, splicedLeaves]
  | a :: as =>
    rw [writeAll, writtenElements, splicedLeaves, writtenLeaves_write position (out ++ comma) a,
      writtenElements_writeAll position _ ", " as, utf8ByteSize_next]

end

theorem writtenArgs_writeAll (position : Nat) (out comma : String) (args : List RangeArg) :
    writtenArgs position (writeAll out comma args).2 args =
      callLeaves position (out ++ comma).utf8ByteSize args := by
  induction args generalizing position out comma with
  | nil => simp [writtenArgs, callLeaves]
  | cons a as ih =>
    rw [writeAll, writtenArgs, callLeaves, writtenLeaves_write, ih, utf8ByteSize_next]

theorem spans_writeAll (out comma : String) (args : List RangeArg) :
    (writeAll out comma args).2.map Written.span =
      callSpans (out ++ comma).utf8ByteSize args := by
  induction args generalizing out comma with
  | nil => rw [writeAll]; rfl
  | cons a as ih =>
    rw [writeAll, callSpans, List.map_cons, write_span, ih, utf8ByteSize_next]

end RangeArg

namespace CallSite

def located (args : List RangeArg) : CallSite :=
  { render args with axes := (RangeArg.leaves args).map Leaf.origin }

/-- The site of a call written in one pass. -/
def written (args : List RangeArg) : CallSite :=
  let call := RangeArg.writeAll callHead "" args
  { source := call.1 ++ ")"
    args := call.2.map Written.span
    axes := (RangeArg.writtenArgs 0 call.2 args).map Leaf.origin }

theorem written_eq (args : List RangeArg) : written args = located args := by
  rw [written, located, render, RangeArg.leaves, callText, RangeArg.writeAll_text,
    RangeArg.appendedText_empty, RangeArg.spans_writeAll, RangeArg.writtenArgs_writeAll,
    String.append_empty]

end CallSite

end LoopNest
