import LoopNest.GroupedIndex
import LoopNest.Number.Word

/-!
Domains with concrete bounds. The size of an axis is exact: the difference of two signed 64-bit
words fits in an unsigned one. The number of tuples may not fit, and then there is no total.

Row-major enumeration of the tuples: the last axis ticks fastest, and one that runs out starts again
and carries into the axis before it. No flat index is computed.
-/

namespace LoopNest

structure ResolvedAxis where
  lower : Int64
  upper : Int64
deriving DecidableEq, Repr

def ResolvedAxis.size (a : ResolvedAxis) : UInt64 :=
  (a.upper.toInt - a.lower.toInt).toNat.toUInt64

theorem ResolvedAxis.toNat_size (a : ResolvedAxis) :
    a.size.toNat = (a.upper.toInt - a.lower.toInt).toNat := by
  have h1 := a.upper.toInt_lt
  have h2 := a.lower.le_toInt
  simp only [size, Nat.toUInt64_eq, UInt64.toNat_ofNat']
  omega

structure ResolvedDomain where
  axes : List ResolvedAxis
deriving DecidableEq, Repr

namespace ResolvedDomain

def rank (d : ResolvedDomain) : Nat := d.axes.length

def sizes (d : ResolvedDomain) : List UInt64 := d.axes.map ResolvedAxis.size

/-- The number of tuples. One empty axis makes the domain empty, however large the others are. -/
def total? (d : ResolvedDomain) : Option UInt64 :=
  if d.sizes.contains 0 then some 0 else mulCounts? d.sizes

end ResolvedDomain

def tick? : List ResolvedAxis → List Int64 → Option (List Int64)
  | axis :: axes, value :: values =>
    match tick? axes values with
    | some values => some (value :: values)
    | none =>
      if value + 1 < axis.upper then some ((value + 1) :: axes.map ResolvedAxis.lower) else none
  | _, _ => none

/-- A walk over the tuples of some axes; `current` is the tuple to be given out next. -/
structure Odometer where
  axes : List ResolvedAxis
  current : Option (List Int64)
deriving DecidableEq

namespace Odometer

/-- The walk from the first tuple. There is none without axes, with more than eight, or when an
axis is empty. -/
def ofDomain (d : ResolvedDomain) : Odometer where
  axes := d.axes
  current :=
    if d.rank = 0 ∨ maxRank < d.rank ∨ d.sizes.contains 0 then none
    else some (d.axes.map ResolvedAxis.lower)

def next? (o : Odometer) : Option (GroupedIndex × Odometer) :=
  o.current.map fun values => (.ofListTruncated values, { o with current := tick? o.axes values })

def collectInto (tuples : Array GroupedIndex) : Nat → Odometer → Array GroupedIndex
  | 0, _ => tuples
  | count + 1, o =>
    match o.next? with
    | some (tuple, o) => collectInto (tuples.push tuple) count o
    | none => tuples

def take (o : Odometer) (count : Nat) : Array GroupedIndex := collectInto #[] count o

end Odometer

def ResolvedDomain.volume (d : ResolvedDomain) : Nat :=
  (d.sizes.map UInt64.toNat).foldl (· * ·) 1

/-- All tuples of a domain in row-major order. The walk ends after as many steps as the domain has
tuples. -/
def ResolvedDomain.tuples (d : ResolvedDomain) : Array GroupedIndex :=
  (Odometer.ofDomain d).take d.volume

end LoopNest
