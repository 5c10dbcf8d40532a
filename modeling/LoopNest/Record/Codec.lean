import LoopNest.Domain.Resolved
import LoopNest.GroupedIndex
import LoopNest.Record.Data
import LoopNest.Scalar.Kind
import LoopNest.Settings.Basic

/-!
Stored forms of the library's values. A grouped index is stored as it is kept, a count and eight
slots, and read back without looking at how they fit together.
-/

namespace LoopNest

open Codec

instance : Codec LaunchSettings where
  encode s := .record [
    ("workers", encode s.workers),
    ("unroll_limit", encode s.unrollLimit),
    ("arity_warnings", encode s.arityWarnings)]
  decode? d := do
    match ← d.fields? ["workers", "unroll_limit", "arity_warnings"] with
    | [workers, unrollLimit, arityWarnings] =>
      return ⟨← optional? workers, ← required? unrollLimit, ← required? arityWarnings⟩
    | _ => none

instance : Codec GroupedIndex where
  encode g := .record [("len", encode g.len), ("values", encode g.slots)]
  decode? d := do
    match ← d.fields? ["len", "values"] with
    | [len, values] => return ⟨← required? len, ← required? values⟩
    | _ => none

instance : Codec ResolvedAxis where
  encode a := .record [("begin", encode a.lower), ("end", encode a.upper)]
  decode? d := do
    match ← d.fields? ["begin", "end"] with
    | [lower, upper] => return ⟨← required? lower, ← required? upper⟩
    | _ => none

instance : Codec ResolvedDomain where
  encode d := .record [("axes", encode d.axes)]
  decode? d := do
    match ← d.fields? ["axes"] with
    | [axes] => return ⟨← required? axes⟩
    | _ => none

def ScalarKind.tag (k : ScalarKind) : String := k.name.map Char.toUpper

instance : Codec ScalarKind where
  encode k := .text k.tag
  decode? d := do
    let (tag, payload) ← d.variant?
    match payload with
    | none | some .null => ScalarKind.all.find? (·.tag == tag)
    | some _ => none

instance : Codec IntLiteral where
  encode l := .record [((ScalarKind.int l.kind).tag, .int l.value)]
  decode? d := do
    let (tag, payload) ← d.variant?
    let kind ← IntKind.all.find? fun k => (ScalarKind.int k).tag == tag
    IntLiteral.ofInt? kind (← (← payload).intBetween? kind.least kind.greatest)

instance : Codec ScalarValue where
  encode
    | .int l => .record [("Int", encode l)]
    | .float x => .record [("Float", encode x)]
  decode? d := do
    let (tag, payload) ← d.variant?
    if tag = "Int" then return .int (← decode? (← payload))
    else if tag = "Float" then return .float (← decode? (← payload))
    else none

end LoopNest
