import FleetProbe.Calendar
import FleetProbe.Number.Binary64
import FleetProbe.Text.Base64
import FleetProbe.Text.Case
import FleetProbe.Text.SmallLetters
import FleetProbe.Value
import FleetProbe.Yaml.Typing
/-!
The value of a scalar of a given kind. Plain texts have a kind only if they can be read as such; a
tag can give a kind to any text, and then the reading may fail.
-/

namespace FleetProbe.Yaml

def dropGaps (ps : List Nat) : List Nat := ps.filter (· != 0x5f)

def boolean (ps : List Nat) : Except Fault Bool :=
  match truths.find? fun e => pointsOf e.1 == ps.map Text.lowerPoint with
  | some e => .ok e.2
  | none => .error .badBoolean

/-- Value of a digit, which may be a letter. -/
def letterValue? (p : Nat) : Option Nat :=
  if 0x61 ≤ p ∧ p ≤ 0x7a then some (p - 0x61 + 10)
  else if 0x41 ≤ p ∧ p ≤ 0x5a then some (p - 0x41 + 10)
  else Text.digitValue? p

/-- Digits of a base, whose mark may stand in front again. -/
def inBase? (base : Nat) (marks : List Nat) (ps : List Nat) : Option Int :=
  let (negative, ps) := Number.splitSign (Text.trimBy Text.isWhiteSpace ps)
  let ps := match ps with
    | 0x30 :: m :: rest => if marks.contains m then rest else ps
    | ps => ps
  let value (n : Option Nat) (p : Nat) : Option Nat :=
    n.bind fun n => (letterValue? p).bind fun d => if d < base then some (n * base + d) else none
  if ps.isEmpty then none
  else (ps.foldl value (some 0)).map fun n => if negative then -(n : Int) else n

def readBase (base : Nat) (marks ps : List Nat) : Except Fault Int :=
  match inBase? base marks ps with
  | some i => .ok i
  | none => .error (.badInteger base ⟨ps⟩)

def readDecimal (ps : List Nat) : Except Fault Int :=
  match Text.integer? ⟨ps⟩ with
  | .ok i => .ok i
  | .error .malformed => .error (.badInteger 10 ⟨ps⟩)
  | .error .tooLong => .error .hugeInteger

/-- Parts between colons. -/
def colonParts : List Nat → List (List Nat)
  | [] => [[]]
  | p :: ps =>
    if p = 0x3a then [] :: colonParts ps
    else
      match colonParts ps with
      | part :: parts => (p :: part) :: parts
      | [] => [[p]]

def integer (ps : List Nat) : Except Fault Int := do
  let ps := dropGaps ps
  let (negative, bare) := Number.splitSign ps
  let magnitude ← match bare with
    | [] => .error .noDigits
    | [0x30] => .ok 0
    | 0x30 :: 0x62 :: rest => readBase 2 [0x62, 0x42] rest
    | 0x30 :: 0x78 :: rest => readBase 16 [0x78, 0x58] rest
    | 0x30 :: _ => readBase 8 [0x6f, 0x4f] bare
    | _ =>
      if bare.contains 0x3a then do
        let parts ← (colonParts bare).mapM readDecimal
        .ok (parts.foldl (fun n d => n * 60 + d) 0)
      else readDecimal bare
  .ok (if negative then -magnitude else magnitude)

def readNumber (ps : List Nat) : Except Fault Float :=
  match Number.number? ⟨ps⟩ with
  | some x => .ok x
  | none => .error (.badNumber ⟨ps⟩)

/-- Sum of parts in sixties, the last one first; `place` is what the next part counts. -/
def sixties (sum : Float) (place : Nat) : List Float → Except Fault Float
  | [] => .ok sum
  | x :: xs =>
    match Number.Binary64.ofInt? place with
    | some weight => sixties (sum + x * weight) (place * 60) xs
    | none => .error .hugePlace

def number (ps : List Nat) : Except Fault Float := do
  let small := Text.inSmallLetters false (dropGaps ps)
  let (negative, bare) := Number.splitSign small
  let signed (x : Float) : Float := if negative then -x else x
  if small.isEmpty then .error .noDigits
  else if bare = pointsOf ".inf" then .ok (signed Number.Binary64.infinity)
  else if bare = pointsOf ".nan" then .ok Number.Binary64.nan
  else if bare.contains 0x3a then
    (sixties 0 1 (← (colonParts bare).mapM readNumber).reverse).map signed
  else .ok (signed (← readNumber bare))

/-- Bytes written in ASCII. -/
def binary (ps : List Nat) : Except Fault (List UInt8) :=
  if ps.any (0x80 ≤ ·) then .error .malformed
  else ((Text.Base64.decode? ps).map .ok).getD (.error .malformed)

namespace Instant

/-- Days and seconds of a number of minutes, as a length of time is shown. -/
def lengthText (minutes : Int) : String :=
  let days := Int.fdiv minutes 1440
  let seconds := Int.fmod minutes 1440 * 60
  "datetime.timedelta(days=" ++ toString days ++
    (if seconds = 0 then "" else ", seconds=" ++ toString seconds) ++ ")"

def offset (zone : Bool × Nat) : Int := if zone.1 then -(zone.2 : Int) else zone.2

/-- Why there is no such day or time, if there is none. -/
def problem? (i : Instant) : Option String :=
  let (hour, minute, second, _) := i.clock.getD (0, 0, 0, [])
  if i.clock.isSome && i.zone.any (fun z => 1440 ≤ z.2) then
    some ("offset must be a timedelta strictly between -timedelta(hours=24) and "
      ++ "timedelta(hours=24), not " ++ lengthText ((i.zone.map offset).getD 0) ++ ".")
  else if i.year = 0 then some "year 0 is out of range"
  else if i.month = 0 ∨ 12 < i.month then some "month must be in 1..12"
  else if i.day = 0 ∨ Calendar.monthLength i.year i.month < i.day then
    some "day is out of range for month"
  else if 23 < hour then some "hour must be in 0..23"
  else if 59 < minute then some "minute must be in 0..59"
  else if 59 < second then some "second must be in 0..59"
  else none

/-- Six digits, or nothing for a fraction of zero. -/
def fractionText (ds : List Nat) : String :=
  let six := (ds ++ List.replicate 6 0x30).take 6
  if six.all (· == 0x30) then "" else "." ++ String.ofList (six.map Char.ofNat)

def zoneText (zone : Bool × Nat) : String :=
  (if zone.1 && zone.2 != 0 then "-" else "+") ++ Calendar.digits 2 (zone.2 / 60) ++ ":"
    ++ Calendar.digits 2 (zone.2 % 60)

/-- Microseconds since the start of 1970, of an instant whose offset is known. -/
def microseconds? (i : Instant) : Option Int :=
  match i.clock, i.zone with
  | some (hour, minute, second, fraction), some zone =>
    let seconds : Int :=
      (Moment.days i.year i.month i.day * 1440 + hour * 60 + minute - offset zone) * 60 + second
    let six := (fraction ++ List.replicate 6 0x30).take 6
    some (seconds * 1000000 + Number.digitsValue six)
  | _, _ => none

def text (i : Instant) : String :=
  let two := Calendar.digits 2
  let day := Calendar.digits 4 i.year ++ "-" ++ two i.month ++ "-" ++ two i.day
  match i.clock with
  | none => day
  | some (hour, minute, second, fraction) =>
    day ++ " " ++ two hour ++ ":" ++ two minute ++ ":" ++ two second
      ++ fractionText fraction ++ ((i.zone.map zoneText).getD "")

end Instant

def instant (ps : List Nat) : Except Fault Value :=
  match instant? ps with
  | none => .error .badDate
  | some i =>
    match i.problem? with
    | some why => .error (.noSuchInstant why)
    | none => .ok (.date i.clock.isSome i.microseconds? i.text)

/-- The value of a text with a tag; those of collections have none. -/
def scalarValue (tag : Tag) (ps : List Nat) : Except Fault Value :=
  match tag with
  | .null => .ok .null
  | .boolean => (boolean ps).map .bool
  | .integer => (integer ps).map .int
  | .number => (number ps).map .real
  | .instant => instant ps
  | .text => .ok (.text ⟨ps⟩)
  | .binary => (binary ps).map .bytes
  | _ => .error .malformed

end FleetProbe.Yaml
