/-!
Lists in messages, white space, and byte offsets in text. Offsets count UTF-8 bytes, and a cut is
possible only between two characters; a span is a half-open range of them.
-/

namespace LoopNest

def commaSeparated (items : List String) : String := ", ".intercalate items

def bracketed {α : Type} [ToString α] (items : List α) : String :=
  "[" ++ commaSeparated (items.map toString) ++ "]"

/-- The 25 code points with the Unicode property White_Space. -/
def isBlank (c : Char) : Bool :=
  let n := c.toNat
  (0x9 ≤ n && n ≤ 0xD) || n == 0x20 || n == 0x85 || n == 0xA0 || n == 0x1680 ||
    (0x2000 ≤ n && n ≤ 0x200A) || n == 0x2028 || n == 0x2029 || n == 0x202F || n == 0x205F ||
    n == 0x3000

def dropBlanksRight (cs : List Char) : List Char := (cs.reverse.dropWhile isBlank).reverse

def trimBlanks (cs : List Char) : List Char := dropBlanksRight (cs.dropWhile isBlank)

/-- Splits a text after `n` bytes, or returns `none` inside a character and past the end. -/
def splitAtByte? : List Char → Nat → Option (List Char × List Char)
  | cs, 0 => some ([], cs)
  | [], _ + 1 => none
  | c :: cs, n + 1 =>
    if c.utf8Size ≤ n + 1 then
      (splitAtByte? cs (n + 1 - c.utf8Size)).map fun (before, after) => (c :: before, after)
    else none

def byteSlice? (cs : List Char) (start stop : Nat) : Option (List Char) :=
  if start ≤ stop then do
    let (_, after) ← splitAtByte? cs start
    let (slice, _) ← splitAtByte? after (stop - start)
    return slice
  else none

structure Span where
  start : UInt32
  stop : UInt32
deriving DecidableEq, Repr

namespace Span

def nowhere : Span := ⟨0, 0⟩

def ofLength (start length : Nat) : Span := ⟨start.toUInt32, (start + length).toUInt32⟩

def whole (source : String) : Span := ofLength 0 source.utf8ByteSize

/-- The text under a span, or `none` when the span leaves the source or cuts a character. -/
def slice? (span : Span) (source : String) : Option String :=
  (byteSlice? source.toList span.start.toNat span.stop.toNat).map String.ofList

end Span

end LoopNest
