import FleetProbe.Number.Binary64
import FleetProbe.Value
/-!
Values as keys: two of them may be the same key without being alike.
-/

namespace FleetProbe

namespace Value

/-- The integer that a value equals as a key, if it equals one. -/
def wholeKey? : Value → Option Int
  | .bool b => some b.toNat
  | .int i => some i
  | .real x =>
    match Number.Binary64.truncate? x with
    | some (i, true) => some i
    | _ => none
  | _ => none

/-- Whether two keys are the same one: numbers are compared by value, and instants of a known offset
from universal time as such. -/
def isSameKey (a b : Value) : Bool :=
  match a.wholeKey?, b.wholeKey? with
  | some i, some j => i == j
  | none, none =>
    match a, b with
    | .null, .null => true
    | .text t, .text u => t == u
    | .bytes bs, .bytes cs => bs == cs
    | .date timed instant t, .date timed' instant' t' =>
      timed == timed' && instant == instant' && (instant.isSome || t == t')
    | .real x, .real y => x == y || (x.isNaN && y.isNaN)
    | _, _ => false
  | _, _ => false

end Value

/-- Adds an entry; a known key keeps its place and its spelling. -/
def putEntry {α : Type} (key : Value) (a : α) : List (Value × α) → List (Value × α)
  | [] => [(key, a)]
  | e :: es => if e.1.isSameKey key then (e.1, a) :: es else e :: putEntry key a es

end FleetProbe
