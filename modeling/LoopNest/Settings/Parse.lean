import LoopNest.Settings.Basic
import LoopNest.Text.Basic

/-!
Reading settings. A text is a list of lines; a line is blank, a comment, a section header, an
assignment or none of these, whatever the lines around it. Only assignments under `[launch]` count,
the last one to each key wins, and the first bad one is the error.
-/

namespace LoopNest

inductive SettingsKey where
  | workers | unrollLimit | arityWarnings
deriving DecidableEq, Repr

def SettingsKey.name : SettingsKey → String
  | workers => "workers"
  | unrollLimit => "unroll_limit"
  | arityWarnings => "arity_warnings"

def SettingsKey.ofName? (name : String) : Option SettingsKey :=
  [workers, unrollLimit, arityWarnings].find? (·.name == name)

inductive SettingsLine where
  /-- A blank line or a comment. -/
  | empty
  | header (name : List Char)
  | assignment (key value : List Char)
  | other
deriving DecidableEq

def splitAtChar (c : Char) (cs : List Char) : List Char × Option (List Char) :=
  match cs.dropWhile (· != c) with
  | [] => (cs, none)
  | _ :: after => (cs.takeWhile (· != c), some after)

theorem splitAtChar_of_not_mem {c : Char} {cs : List Char} (h : c ∉ cs) :
    splitAtChar c cs = (cs, none) := by
  have : cs.dropWhile (· != c) = [] := by
    induction cs with
    | nil => rfl
    | cons x xs ih =>
      have hx : (x != c) = true := bne_iff_ne.2 fun e => h (e ▸ List.mem_cons_self)
      have hs : xs.dropWhile (· != c) = [] := ih fun e => h (List.mem_cons_of_mem x e)
      simp only [List.dropWhile_cons, hx, if_true, hs]
  simp [splitAtChar, this]

theorem splitAtChar_append {c : Char} {before : List Char} (after : List Char) (h : c ∉ before) :
    splitAtChar c (before ++ c :: after) = (before, some after) := by
  have hb : ∀ x ∈ before, (x != c) = true := fun x hx => bne_iff_ne.2 fun e => h (e ▸ hx)
  simp [splitAtChar, List.dropWhile_append_of_pos hb, List.takeWhile_append_of_pos hb]

def cleanKey (key : List Char) : List Char :=
  (((trimBlanks key).dropWhile (· == '"')).reverse.dropWhile (· == '"')).reverse

def cleanValue (value : List Char) : List Char := trimBlanks (value.takeWhile (· != '#'))

/-- A header is a whole line in brackets; with anything after the bracket it is no header. -/
def SettingsLine.ofText (line : List Char) : SettingsLine :=
  let text := trimBlanks line
  if text.isEmpty ∨ text.head? = some '#' then .empty
  else if text.head? = some '[' ∧ text.getLast? = some ']' then
    .header (trimBlanks (text.drop 1).dropLast)
  else
    match splitAtChar '=' text with
    | (key, some value) => .assignment (cleanKey key) (cleanValue value)
    | (_, none) => .other

def digitsValue? (digits : List Char) : Option Nat :=
  digits.foldlM (fun n c => if c.isDigit then some (10 * n + (c.toNat - '0'.toNat)) else none) 0

/-- Decimal digits after at most one plus sign, with a value below `2 ^ 64`. -/
def parseCount? (text : List Char) : Option UInt64 :=
  let digits := match text with
    | '+' :: rest => rest
    | _ => text
  if digits.isEmpty then none
  else (digitsValue? digits).bind fun n => if n < UInt64.size then some n.toUInt64 else none

def parseFlag? (text : List Char) : Option Bool :=
  if text = "true".toList then some true
  else if text = "false".toList then some false
  else none

namespace LaunchSettings

def assignCount (key : SettingsKey) (value : List Char) : Except SettingsError UInt64 :=
  match parseCount? value with
  | some n => .ok n
  | none => .error (.notCount key.name (String.ofList value))

def assignFlag (key : SettingsKey) (value : List Char) : Except SettingsError Bool :=
  match parseFlag? value with
  | some b => .ok b
  | none => .error (.notFlag key.name (String.ofList value))

def assign (s : LaunchSettings) (key value : List Char) : Except SettingsError LaunchSettings :=
  match SettingsKey.ofName? (String.ofList key) with
  | some .workers => do
    let n ← assignCount .workers value
    if n = 0 then .error .zeroWorkers else return { s with workers := some n }
  | some .unrollLimit => do return { s with unrollLimit := ← assignCount .unrollLimit value }
  | some .arityWarnings => do return { s with arityWarnings := ← assignFlag .arityWarnings value }
  | none => .error (.unknownKey (String.ofList key))

end LaunchSettings

structure SettingsReader where
  current : List Char
  settings : LaunchSettings
deriving DecidableEq

namespace SettingsReader

def start : SettingsReader := ⟨[], {}⟩

def step (r : SettingsReader) : SettingsLine → Except SettingsError SettingsReader
  | .empty | .other => .ok r
  | .header name => .ok { r with current := name }
  | .assignment key value =>
    if r.current = "launch".toList then do
      return { r with settings := ← r.settings.assign key value }
    else .ok r

end SettingsReader

/-- The lines of a text. A carriage return at a line's end is white space like any other. -/
def textLines : List Char → List (List Char)
  | [] => [[]]
  | '\n' :: cs => [] :: textLines cs
  | c :: cs =>
    match textLines cs with
    | line :: lines => (c :: line) :: lines
    | [] => [[c]]

def LaunchSettings.parse (content : String) : Except SettingsError LaunchSettings := do
  let reader ← ((textLines content.toList).map SettingsLine.ofText).foldlM SettingsReader.step .start
  return reader.settings

end LoopNest
