import FleetProbe.Text.Basic
import FleetProbe.Text.Classes
/-!
Integers written as text: white space around, a sign, and digits of any script, with single
underscores between them. More digits than `maxIntegerDigits` are refused.
-/

namespace FleetProbe.Text

def maxIntegerDigits : Nat := 4300

/-- Why a text is no integer. -/
inductive IntegerFault where
  | malformed
  | tooLong
  deriving DecidableEq, Repr

/-- Digit values after a first digit; an underscore must stand before another digit. -/
def digitValues? : List Nat → Option (List Nat)
  | [] => some []
  | 0x5f :: p :: ps =>
    match digitValue? p, digitValues? ps with
    | some d, some ds => some (d :: ds)
    | _, _ => none
  | p :: ps =>
    match digitValue? p, digitValues? ps with
    | some d, some ds => some (d :: ds)
    | _, _ => none

/-- The number with the given decimal digits. -/
def ofDigits (ds : List Nat) : Nat := ds.foldl (fun n d => n * 10 + d) 0

/-- Reads digits alone. -/
def natural? (ps : List Nat) : Except IntegerFault Nat :=
  match ps with
  | [] => .error .malformed
  | 0x5f :: _ => .error .malformed
  | _ =>
    match digitValues? ps with
    | none => .error .malformed
    | some ds => if maxIntegerDigits < ds.length then .error .tooLong else .ok (ofDigits ds)

/-- Reads an integer. -/
def integer? (t : Text) : Except IntegerFault Int :=
  match trimBy isWhiteSpace t.points with
  | 0x2d :: ps => (natural? ps).map fun n => -(n : Int)
  | 0x2b :: ps => (natural? ps).map fun n => (n : Int)
  | ps => (natural? ps).map fun n => (n : Int)

end FleetProbe.Text
