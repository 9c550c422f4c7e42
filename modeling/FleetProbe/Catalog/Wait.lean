import FleetProbe.Number.Quantity
import FleetProbe.Text.Integer
import FleetProbe.Text.Quoted
/-!
How long the catalog may hold a query: digits and a unit, with blanks around.
-/

namespace FleetProbe.Catalog.Wait

/-- Why a text is no duration. -/
inductive Fault where
  | malformed
  | tooManyDigits
  | tooLarge
  deriving DecidableEq, Repr

/-- The longest duration the catalog holds a query when nothing else is said. -/
def standard : Text := "10m"

/-- Seconds in a unit; seconds are the unit when none is given. -/
def unit? (t : Text) : Option Float :=
  if t = "ms" then some 0.001
  else if t = "s" then some 1
  else if t = "m" then some 60
  else if t = "h" then some 3600
  else if t = Text.empty then some 1
  else none

/-- Reads a duration in seconds. -/
def seconds (t : Text) : Except Fault Float :=
  let ps := Text.trimBy Text.isBlank t.points
  let digits := ps.takeWhile fun p => (Text.digitValue? p).isSome
  let rest := ps.dropWhile fun p => (Text.digitValue? p).isSome
  match unit? ⟨rest⟩ with
  | none => .error .malformed
  | some unit =>
    match Text.natural? digits with
    | .error .malformed => .error .malformed
    | .error .tooLong => .error .tooManyDigits
    | .ok n =>
      match Quantity.ofInt? (α := Float) n with
      | some x => .ok (x * unit)
      | none => .error .tooLarge

/-- What is said of a text that is no duration. -/
def malformedText (t : Text) : Text := "Invalid wait duration: " ++ t.quoted

end FleetProbe.Catalog.Wait
