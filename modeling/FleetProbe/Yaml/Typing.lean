import FleetProbe.Number.Numeral
import FleetProbe.Yaml.Source
/-!
The kind of a plain text: a boolean, a number, a date and so on if it looks like one, and a text
otherwise.
-/

namespace FleetProbe.Yaml

/-- Tags of the values that a configuration can hold. -/
inductive Tag where
  | null
  | boolean
  | integer
  | number
  | instant
  | text
  | sequence
  | mapping
  /-- Entries of another mapping are taken over. -/
  | merge
  /-- The value that stands for its mapping. -/
  | value
  | binary
  | set
  | ordered
  | pairs
  | unknown
  deriving DecidableEq, Repr

def pointsOf (s : String) : List Nat := s.toList.map Char.toNat

/-- Front part of the tags that are known. -/
def knownFront : List Nat := pointsOf "tag:yaml.org,2002:"

def knownTags : List (String × Tag) :=
  [("null", .null), ("bool", .boolean), ("int", .integer), ("float", .number),
    ("timestamp", .instant), ("str", .text), ("seq", .sequence), ("map", .mapping),
    ("merge", .merge), ("value", .value), ("binary", .binary), ("set", .set), ("omap", .ordered),
    ("pairs", .pairs)]

/-- The tag with a name. -/
def tagOf (name : List Nat) : Tag :=
  if name.take knownFront.length = knownFront then
    let rest := name.drop knownFront.length
    ((knownTags.find? fun e => pointsOf e.1 == rest).map Prod.snd).getD .unknown
  else .unknown

def isOneOf (words : List String) (ps : List Nat) : Bool := words.any fun w => pointsOf w == ps

def truths : List (String × Bool) :=
  [("yes", true), ("no", false), ("true", true), ("false", false), ("on", true), ("off", false)]

/-- Words are written in small letters, in capitals, or with a capital in front. -/
def spellings (w : String) : List String := [w, w.capitalize, w.toUpper]

def isBoolean (ps : List Nat) : Bool := isOneOf (truths.flatMap fun e => spellings e.1) ps

def isNull (ps : List Nat) : Bool := ps.isEmpty || isOneOf ("~" :: spellings "null") ps

def isDigit (p : Nat) : Bool := Number.isDigit p

def isDigitOrGap (p : Nat) : Bool := isDigit p || p == 0x5f

/-- Digits and underscores behind a first digit. -/
def isRun (first : Nat → Bool) (kind : Nat → Bool) : List Nat → Bool
  | [] => false
  | p :: ps => first p && ps.all kind

/-- Sixties behind a colon each, one at least. -/
def isSixties : (fuel : Nat) → List Nat → Bool
  | 0, _ => false
  | fuel + 1, ps =>
    match ps with
    | 0x3a :: a :: b :: rest =>
      if isDigit a && a < 0x36 && isDigit b then rest.isEmpty || isSixties fuel rest
      else isDigit a && isSixties fuel (b :: rest)
    | [0x3a, a] => isDigit a
    | _ => false

def isLeading (p : Nat) : Bool := 0x31 ≤ p && p ≤ 0x39

/-- Integers: binary, octal, decimal, hexadecimal, or in sixties. -/
def isInteger (ps : List Nat) : Bool :=
  let ps := (Number.splitSign ps).2
  let isHex (p : Nat) :=
    isDigitOrGap p || (0x41 ≤ p && p ≤ 0x46) || (0x61 ≤ p && p ≤ 0x66)
  match ps with
  | 0x30 :: 0x62 :: rest => !rest.isEmpty && rest.all fun p => p == 0x30 || p == 0x31 || p == 0x5f
  | 0x30 :: 0x78 :: rest => !rest.isEmpty && rest.all isHex
  | [0x30] => true
  | 0x30 :: rest => rest.all fun p => (0x30 ≤ p && p ≤ 0x37) || p == 0x5f
  | _ =>
    isRun isLeading isDigitOrGap ps
      || (isRun isLeading isDigitOrGap (ps.takeWhile (· != 0x3a))
        && isSixties ps.length (ps.dropWhile (· != 0x3a)))

/-- Nothing, or an exponent with its sign. -/
def isExponent : List Nat → Bool
  | [] => true
  | mark :: sign :: ds =>
    Number.isMark mark && (sign == 0x2b || sign == 0x2d) && !ds.isEmpty && ds.all isDigit
  | _ => false

/-- Numbers with a point; an exponent needs its sign. -/
def isNumber (ps : List Nat) : Bool :=
  let bare := (Number.splitSign ps).2
  let whole := bare.takeWhile (· != 0x2e)
  match bare.dropWhile (· != 0x2e) with
  | [] => false
  | _ :: rest =>
    let behind := rest.dropWhile isDigitOrGap
    if whole.isEmpty then
      isOneOf (["inf", "Inf", "INF"]) rest
        || (ps.head? == some 0x2e
          && (isOneOf ["nan", "NaN", "NAN"] rest || (rest.head?.any isDigit && isExponent behind)))
    else
      (isRun isDigit isDigitOrGap whole && isExponent behind)
        || (isRun isDigit isDigitOrGap (whole.takeWhile (· != 0x3a))
          && isSixties whole.length (whole.dropWhile (· != 0x3a)) && behind.isEmpty)

/-- A date, perhaps with a time of day, in its parts. -/
structure Instant where
  year : Nat
  month : Nat
  day : Nat
  /-- Hour, minute, second, and the digits of the fraction. -/
  clock : Option (Nat × Nat × Nat × List Nat) := none
  /-- Offset in minutes from universal time, with its sign. -/
  zone : Option (Bool × Nat) := none
  /-- Month and day have two digits each. -/
  padded : Bool
  deriving DecidableEq, Repr

/-- One or two digits. -/
def shortNumber? (ps : List Nat) : Option (Nat × Bool × List Nat) :=
  match ps with
  | a :: b :: rest =>
    if isDigit a then
      if isDigit b then some ((a - 0x30) * 10 + (b - 0x30), true, rest)
      else some (a - 0x30, false, b :: rest)
    else none
  | [a] => if isDigit a then some (a - 0x30, false, []) else none
  | [] => none

/-- Two digits behind a mark. -/
def paired? (mark : Nat) : List Nat → Option (Nat × List Nat)
  | m :: a :: b :: rest =>
    if m = mark ∧ isDigit a ∧ isDigit b then some ((a - 0x30) * 10 + (b - 0x30), rest) else none
  | _ => none

def isSpaceOrTab (p : Nat) : Bool := p == 0x20 || p == 0x9

/-- An offset at the end of an instant: nothing, the letter of universal time, or hours and
minutes. -/
def zone? (ps : List Nat) : Option (Option (Bool × Nat)) :=
  match ps.dropWhile isSpaceOrTab with
  | [] => if ps.isEmpty then some none else none
  | [0x5a] => some (some (false, 0))
  | sign :: rest =>
    if sign = 0x2b ∨ sign = 0x2d then
      match shortNumber? rest with
      | none => none
      | some (hours, _, []) => some (some (sign == 0x2d, hours * 60))
      | some (hours, _, rest) =>
        match paired? 0x3a rest with
        | some (minutes, []) => some (some (sign == 0x2d, hours * 60 + minutes))
        | _ => none
    else none

/-- A time of day behind its separator. -/
def clock? (ps : List Nat) : Option ((Nat × Nat × Nat × List Nat) × Option (Bool × Nat)) := do
  let (hour, _, ps) ← shortNumber? ps
  let (minute, ps) ← paired? 0x3a ps
  let (second, ps) ← paired? 0x3a ps
  let (fraction, ps) : List Nat × List Nat := match ps with
    | 0x2e :: rest => (rest.takeWhile isDigit, rest.dropWhile isDigit)
    | ps => ([], ps)
  let zone ← zone? ps
  some ((hour, minute, second, fraction), zone)

/-- Drops a line end behind all the rest; one alone is not dropped. -/
def dropFinalBreak (ps : List Nat) : List Nat :=
  if ps.getLast? = some 0xa ∧ ps ≠ [0xa] then ps.dropLast else ps

/-- Reads a date and what follows it. -/
def instant? (ps : List Nat) : Option Instant := do
  let ps := dropFinalBreak ps
  let year := ps.take 4
  if year.length ≠ 4 ∨ ¬year.all isDigit then none
  match ps.drop 4 with
  | 0x2d :: rest =>
    let (month, long, rest) ← shortNumber? rest
    match rest with
    | 0x2d :: rest =>
      let (day, long', rest) ← shortNumber? rest
      let date : Instant :=
        { year := Number.digitsValue year, month, day, padded := long && long' }
      match rest with
      | [] => some date
      | p :: more =>
        let behind ←
          if p = 0x54 ∨ p = 0x74 then some more
          else if isSpaceOrTab p then some (more.dropWhile isSpaceOrTab)
          else none
        let (clock, zone) ← clock? behind
        some { date with clock := some clock, zone }
    | _ => none
  | _ => none

/-- Dates without a time of day are told from texts by their two digits each. -/
def isInstant (ps : List Nat) : Bool :=
  (instant? ps).any fun i => i.clock.isSome || i.padded

/-- The tag of a plain text, which may end with a line end. A mark alone has a tag that nothing can
be read by. -/
def plainTag (ps : List Nat) : Tag :=
  let ps := dropFinalBreak ps
  if isBoolean ps then .boolean
  else if isNumber ps then .number
  else if isInteger ps then .integer
  else if ps = [0x3c, 0x3c] then .merge
  else if isNull ps then .null
  else if isInstant ps then .instant
  else if ps = [0x3d] then .value
  else if ps = [0x21] ∨ ps = [0x26] ∨ ps = [0x2a] then .unknown
  else .text

end FleetProbe.Yaml
