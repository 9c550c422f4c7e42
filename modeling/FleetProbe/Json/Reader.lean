import FleetProbe.Value
import FleetProbe.Number.Binary64
/-!
Reading JSON. Beyond the standard, `NaN`, `Infinity` and `-Infinity` are numbers, and the last of
several values under one key counts, at the place of the first. An integer of more digits than
`maxDigits` is refused, and so is nesting deeper than the reader was allowed.
-/

namespace FleetProbe.Json

/-- Why a document was refused. -/
inductive Fault where
  | malformed
  | hugeInteger
  | tooDeep
  deriving DecidableEq, Repr

/-- Digits that an integer may have. -/
def maxDigits : Nat := 4300

/-- Levels of nesting that a document may have. -/
def maxDepth : Nat := 980

def isSpace (p : Nat) : Bool := p == 0x20 || p == 0x9 || p == 0xa || p == 0xd

def skipSpaces (ps : List Nat) : List Nat := ps.dropWhile isSpace

def isDigit (p : Nat) : Bool := 0x30 ≤ p && p ≤ 0x39

/-- Value of a run of digits. -/
def digitsValue (ps : List Nat) : Nat := ps.foldl (fun n p => n * 10 + (p - 0x30)) 0

def hexValue? (p : Nat) : Option Nat :=
  if isDigit p then some (p - 0x30)
  else if 0x61 ≤ p ∧ p ≤ 0x66 then some (p - 0x57)
  else if 0x41 ≤ p ∧ p ≤ 0x46 then some (p - 0x37)
  else none

/-- Four hexadecimal digits. -/
def unit? : List Nat → Option (Nat × List Nat)
  | a :: b :: c :: d :: rest =>
    match hexValue? a, hexValue? b, hexValue? c, hexValue? d with
    | some a, some b, some c, some d => some (a * 4096 + b * 256 + c * 16 + d, rest)
    | _, _, _, _ => none
  | _ => none

/-- What follows the backslash of an escape. Two escaped surrogates that make a pair are one
character. -/
def escape? : List Nat → Option (Nat × List Nat)
  | 0x22 :: rest => some (0x22, rest)
  | 0x5c :: rest => some (0x5c, rest)
  | 0x2f :: rest => some (0x2f, rest)
  | 0x62 :: rest => some (0x8, rest)
  | 0x66 :: rest => some (0xc, rest)
  | 0x6e :: rest => some (0xa, rest)
  | 0x72 :: rest => some (0xd, rest)
  | 0x74 :: rest => some (0x9, rest)
  | 0x75 :: rest =>
    match unit? rest with
    | none => none
    | some (u, rest) =>
      if 0xd800 ≤ u ∧ u < 0xdc00 then
        match rest with
        | 0x5c :: 0x75 :: more =>
          match unit? more with
          | some (v, more) =>
            if 0xdc00 ≤ v ∧ v < 0xe000 then
              some (0x10000 + (u - 0xd800) * 1024 + (v - 0xdc00), more)
            else some (u, rest)
          | none => some (u, rest)
        | _ => some (u, rest)
      else some (u, rest)
  | _ => none

/-- The rest of a string after its opening quote, with the characters read so far in reverse. -/
def readString : (fuel : Nat) → List Nat → List Nat → Except Fault (Text × List Nat)
  | 0, _, _ => .error .malformed
  | fuel + 1, read, ps =>
    match ps with
    | [] => .error .malformed
    | 0x22 :: rest => .ok (⟨read.reverse⟩, rest)
    | 0x5c :: rest =>
      match escape? rest with
      | some (p, rest) => readString fuel (p :: read) rest
      | none => .error .malformed
    | p :: rest => if p < 0x20 then .error .malformed else readString fuel (p :: read) rest

/-- Splits off the fraction of a number, its point included, if it is complete. -/
def fraction? : List Nat → Option (List Nat × List Nat)
  | 0x2e :: rest =>
    let ds := rest.takeWhile isDigit
    if ds.isEmpty then none else some (ds, rest.dropWhile isDigit)
  | _ => none

/-- Splits off the exponent of a number, if it is complete. -/
def exponent? : List Nat → Option (Int × List Nat)
  | mark :: rest =>
    if mark = 0x65 ∨ mark = 0x45 then
      let (negative, rest) := match rest with
        | 0x2d :: r => (true, r)
        | 0x2b :: r => (false, r)
        | r => (false, r)
      let ds := rest.takeWhile isDigit
      if ds.isEmpty then none
      else
        let n : Int := digitsValue ds
        some (if negative then -n else n, rest.dropWhile isDigit)
    else none
  | [] => none

/-- A number after its sign: an integer unless a fraction or an exponent follows. -/
def readNumber (negative : Bool) (ps : List Nat) : Except Fault (Value × List Nat) :=
  let whole := ps.takeWhile isDigit
  let (whole, rest) := match whole with
    | 0x30 :: _ => (whole.take 1, ps.drop 1)
    | _ => (whole, ps.dropWhile isDigit)
  if whole.isEmpty then .error .malformed
  else
    let places := fraction? rest
    let rest := (places.map Prod.snd).getD rest
    let power := exponent? rest
    let rest := (power.map Prod.snd).getD rest
    if places.isNone && power.isNone then
      if maxDigits < whole.length then .error .hugeInteger
      else
        let n : Int := digitsValue whole
        .ok (.int (if negative then -n else n), rest)
    else
      let ds := (places.map Prod.fst).getD []
      let e := (power.map Prod.fst).getD 0
      .ok (.real (Number.Binary64.ofDecimal negative (digitsValue (whole ++ ds)) (e - ds.length)),
        rest)

/-- Drops a word from the front. -/
def word? (w : String) (ps : List Nat) : Option (List Nat) :=
  let cs := w.toList.map Char.toNat
  if ps.take cs.length = cs then some (ps.drop cs.length) else none

/-- Literals, each with its value. -/
def literals : List (String × Value) :=
  [("null", .null), ("true", .bool true), ("false", .bool false),
    ("NaN", .real Number.Binary64.nan), ("Infinity", .real Number.Binary64.infinity),
    ("-Infinity", .real (-Number.Binary64.infinity))]

def readLiteral (ps : List Nat) : Option (Value × List Nat) :=
  literals.findSome? fun (w, v) => (word? w ps).map fun rest => (v, rest)

mutual

/-- A value at the front. `fuel` bounds the calls, `depth` counts the levels still allowed. -/
def readValue : (fuel depth : Nat) → List Nat → Except Fault (Value × List Nat)
  | 0, _, _ => .error .malformed
  | fuel + 1, depth, ps =>
    match ps with
    | 0x22 :: rest => (readString (rest.length + 1) [] rest).map fun (t, rest) => (.text t, rest)
    | 0x5b :: rest =>
      match depth with
      | 0 => .error .tooDeep
      | depth + 1 =>
        match skipSpaces rest with
        | 0x5d :: rest => .ok (.list [], rest)
        | rest => readItems fuel depth [] rest
    | 0x7b :: rest =>
      match depth with
      | 0 => .error .tooDeep
      | depth + 1 =>
        match skipSpaces rest with
        | 0x7d :: rest => .ok (.map [], rest)
        | rest => readEntries fuel depth [] rest
    | _ =>
      match readLiteral ps with
      | some r => .ok r
      | none =>
        match ps with
        | 0x2d :: rest => readNumber true rest
        | _ => readNumber false ps

/-- Items of a list up to its end, with those read so far in reverse. -/
def readItems : (fuel depth : Nat) → List Value → List Nat → Except Fault (Value × List Nat)
  | 0, _, _, _ => .error .malformed
  | fuel + 1, depth, items, ps =>
    match readValue fuel depth ps with
    | .error e => .error e
    | .ok (v, rest) =>
      match skipSpaces rest with
      | 0x2c :: rest => readItems fuel depth (v :: items) (skipSpaces rest)
      | 0x5d :: rest => .ok (.list (v :: items).reverse, rest)
      | _ => .error .malformed

/-- Entries of an object up to its end. -/
def readEntries :
    (fuel depth : Nat) → List (Value × Value) → List Nat → Except Fault (Value × List Nat)
  | 0, _, _, _ => .error .malformed
  | fuel + 1, depth, entries, ps =>
    match ps with
    | 0x22 :: rest =>
      match readString (rest.length + 1) [] rest with
      | .error e => .error e
      | .ok (key, rest) =>
        match skipSpaces rest with
        | 0x3a :: rest =>
          match readValue fuel depth (skipSpaces rest) with
          | .error e => .error e
          | .ok (v, rest) =>
            let entries := putField key v entries
            match skipSpaces rest with
            | 0x2c :: rest => readEntries fuel depth entries (skipSpaces rest)
            | 0x7d :: rest => .ok (.map entries, rest)
            | _ => .error .malformed
        | _ => .error .malformed
    | _ => .error .malformed

end

/-- Reads a whole document. -/
def read (t : Text) : Except Fault Value :=
  match readValue (2 * t.length + 2) maxDepth (skipSpaces t.points) with
  | .error e => .error e
  | .ok (v, rest) => if (skipSpaces rest).isEmpty then .ok v else .error .malformed

end FleetProbe.Json
