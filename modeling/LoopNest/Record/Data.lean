import LoopNest.Number.Binary64
import LoopNest.Number.Word

/-!
Self-describing data: the values that records are stored as, and how to take them apart. A record
may also be stored as a plain list of its fields in order; a variant is a tag with or without a
payload.
-/

namespace LoopNest

inductive Data where
  | null
  | bool (value : Bool)
  | int (value : Int)
  | float (value : Binary64)
  | text (value : String)
  | list (items : List Data)
  | record (fields : List (String × Data))

namespace Data

/-- The named fields of a record, each with its value if it is present. Other fields are ignored, but
a list must have exactly as many items as there are names. -/
def fields? (names : List String) : Data → Option (List (Option Data))
  | record fields => some (names.map fun name => fields.lookup name)
  | list items => if items.length = names.length then some (items.map some) else none
  | _ => none

def variant? : Data → Option (String × Option Data)
  | text tag => some (tag, none)
  | record [(tag, payload)] => some (tag, some payload)
  | _ => none

def intBetween? (least greatest : Int) : Data → Option Int
  | int n => if least ≤ n ∧ n ≤ greatest then some n else none
  | _ => none

end Data

/-- Types with a stored form. Every stored value reads back; what does not fit the type is refused. -/
class Codec (α : Type) where
  encode : α → Data
  decode? : Data → Option α

namespace Codec

variable {α : Type} [Codec α]

def required? (field : Option Data) : Option α := field.bind decode?

instance : Codec Bool where
  encode := .bool
  decode?
    | .bool b => some b
    | _ => none

instance : Codec UInt8 where
  encode v := .int v.toNat
  decode? d := (d.intBetween? 0 0xFF).map fun n => n.toNat.toUInt8

instance : Codec UInt64 where
  encode v := .int v.toNat
  decode? d := (d.intBetween? 0 0xFFFFFFFFFFFFFFFF).map fun n => n.toNat.toUInt64

instance : Codec Int64 where
  encode v := .int v.toInt
  decode? d := (d.intBetween? (-wordBound) (wordBound - 1)).map Int64.ofInt

instance : Codec Binary64 where
  encode := .float
  decode?
    | .float x => some x
    | .int n => some (.ofInt n)
    | _ => none

instance : Codec (Option α) where
  encode
    | some v => encode v
    | none => .null
  decode?
    | .null => some none
    | d => (decode? d : Option α).map some

def optional? (field : Option Data) : Option (Option α) :=
  match field with
  | none => some none
  | some d => decode? d

instance : Codec (List α) where
  encode l := .list (l.map encode)
  decode?
    | .list items => items.mapM decode?
    | _ => none

instance {n : Nat} : Codec (Vector α n) where
  encode v := .list (v.toList.map encode)
  decode? d := do
    let items ← (decode? d : Option (List α))
    if h : items.length = n then some ⟨items.toArray, by simpa using h⟩ else none

end Codec

end LoopNest
