import FleetProbe.Number.Numeral
import FleetProbe.Number.Quantity
import FleetProbe.Settings.Problem
import FleetProbe.Text.Utf8
import FleetProbe.Value
/-!
How a setting is read from the value it was given. Numbers may be written as text, and booleans
count as one and zero; a text is made of bytes, but of nothing else.
-/

namespace FleetProbe.Settings

def trim (ps : List Nat) : List Nat := Text.trimBy Text.isWhiteSpace ps

/-- Most characters of an integer, counting its sign. -/
def maxIntegerLength : Nat := 4300

/-- Digits without a zero in front, perhaps behind a minus. Too many of them are a problem of their
own, whatever stands behind them. -/
def plainInteger (ps : List Nat) : Except Problem Int :=
  let (negative, ds) : Bool × List Nat := match ps with
    | 0x2d :: ds => (true, ds)
    | ds => (false, ds)
  let run := ds.takeWhile Number.isDigit
  if run.isEmpty || (run.head? == some 0x30 && run != [0x30]) then .error .unreadableInteger
  else if maxIntegerLength < run.length + negative.toNat then .error .hugeInteger
  else if run.length ≠ ds.length then .error .unreadableInteger
  else
    let n : Int := Number.digitsValue ds
    .ok (if negative then -n else n)

/-- Drops a point and the zeros behind it. -/
def dropPlaces (ps : List Nat) : List Nat :=
  match ps.dropWhile (· != 0x2e) with
  | _ :: zeros => if !zeros.isEmpty && zeros.all (· == 0x30) then ps.takeWhile (· != 0x2e) else ps
  | [] => ps

/-- Drops zeros and underscores in front of another digit, of a minus, or of the last zero or
underscore before a point or the end; `last` is what came before. -/
def afterZero (last : Nat) : List Nat → Option (List Nat)
  | [] => some [last]
  | p :: ps =>
    if p = 0x30 ∨ p = 0x5f then afterZero p ps
    else if Number.isDigit p ∨ p = 0x2d then some (p :: ps)
    else if p = 0x2e then some (last :: p :: ps)
    else none

/-- Drops the zeros in front of a number; nothing but a digit may be its first character. -/
def dropZeros : List Nat → Option (List Nat)
  | [] => none
  | p :: ps =>
    if p = 0x30 then afterZero p ps else if Number.isDigit p then some (p :: ps) else none

/-- Whether a double underscore stands in a text. -/
def hasDouble : List Nat → Bool
  | 0x5f :: 0x5f :: _ => true
  | _ :: ps => hasDouble ps
  | [] => false

/-- Drops underscores, none of which may be at an end or beside another. -/
def dropUnderscores (ps : List Nat) : List Nat :=
  if ps.head? == some 0x5f || ps.getLast? == some 0x5f || hasDouble ps then ps
  else ps.filter (· != 0x5f)

/-- A number without its leading zeros, the zeros behind its point and its underscores. -/
def bareNumber? (ps : List Nat) : Option (List Nat) :=
  (dropZeros ps).map fun ps => dropUnderscores (dropPlaces ps)

/-- An integer written as text. -/
def integerText (t : Text) : Except Problem Int :=
  let ps := trim t.points
  match plainInteger ps with
  | .error .unreadableInteger =>
    let bare := match ps with
      | 0x2d :: rest => (bareNumber? rest).map (0x2d :: ·)
      | 0x2b :: rest => bareNumber? rest
      | ps => bareNumber? ps
    (bare.map plainInteger).getD (.error .unreadableInteger)
  | r => r

def integer : Value → Except Problem Int
  | .bool b => .ok b.toNat
  | .int i => .ok i
  | .real x =>
    match Number.Binary64.truncate? x with
    | none => .error .notFinite
    | some (_, false) => .error .fraction
    | some (n, true) => if n.natAbs < 0x8000000000000000 then .ok n else .error .hugeInteger
  | .text t => if t.points.any Text.isSurrogate then .error .notUnicode else integerText t
  | .bytes bs => ((Text.decode? bs).map integerText).getD (.error .unreadableInteger)
  | _ => .error .notInteger

def numberText (t : Text) : Except Problem Float :=
  match Number.numeral? (trim t.points) with
  | some x => .ok x
  | none =>
    match Number.numeral? (dropUnderscores t.points) with
    | some x => .ok x
    | none => .error .unreadableNumber

def number : Value → Except Problem Float
  | .bool b => .ok (if b then 1 else 0)
  | .int i =>
    match Number.Binary64.ofInt? i with
    | some x => .ok x
    | none => .error .notNumber
  | .real x => .ok x
  | .text t => if t.points.any Text.isSurrogate then .error .notUnicode else numberText t
  | .bytes bs => ((Text.decode? bs).map numberText).getD (.error .unreadableNumber)
  | _ => .error .notNumber

def text : Value → Except Problem Text
  | .text t => .ok t
  | .bytes bs => ((Text.decode? bs).map .ok).getD (.error .notUnicode)
  | _ => .error .notText

/-- A text that can be encoded and whose length lies between two bounds. -/
def boundedText (least most : Nat) (v : Value) : Except Problem Text :=
  (text v).bind fun t =>
    if t.points.any Text.isSurrogate then .error .notUnicode
    else if t.length < least then .error (.tooShort least)
    else if most < t.length then .error (.tooLong most)
    else .ok t

/-- An integer between two bounds. -/
def between (least most : Int) (v : Value) : Except Problem Int :=
  (integer v).bind fun n =>
    if most < n then .error (.atMost most) else if n < least then .error (.atLeast least) else .ok n

/-- A number no smaller than a bound. -/
def atLeast (least : Int) (v : Value) : Except Problem Int :=
  (integer v).bind fun n => if n < least then .error (.atLeast least) else .ok n

/-- An integer above zero. -/
def positive (v : Value) : Except Problem Int :=
  (integer v).bind fun n => if 0 < n then .ok n else .error (.above 0)

/-- A time above zero. -/
def positiveTime (v : Value) : Except Problem Float :=
  (number v).bind fun x => if 0 < x then .ok x else .error (.above 0)

/-- A time of zero or more. -/
def time (v : Value) : Except Problem Float :=
  (number v).bind fun x => if 0 ≤ x then .ok x else .error (.atLeast 0)

/-- A setting that may be absent. -/
def optional {α : Type} (read : Value → Except Problem α) : Value → Except Problem (Option α)
  | .null => .ok none
  | v => (read v).map some

end FleetProbe.Settings
