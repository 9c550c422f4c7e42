import FleetProbe.Number.Places
import FleetProbe.Value.Display
/-!
Texts with places for values. A place starts with a percent sign and ends in a letter that says how
its value is written; between them may stand a name in brackets, flags, a width and a precision. A
star takes the width or the precision from the values. Two percent signs stand for one.
-/

namespace FleetProbe.Template

/-- Why a template cannot be filled. -/
inductive Fault where
  | malformed (why : String)
  /-- There is no value of the name. -/
  | missing
  /-- A value is of the wrong kind, or there are too few or too many of them. -/
  | mismatch
  | outOfRange
  /-- An integer has too many digits to be written. -/
  | tooManyDigits
  deriving DecidableEq, Repr

/-- The values for the places. -/
structure Supply where
  /-- Values that come one after another. -/
  rest : List Value
  /-- What names are looked up in. -/
  named : Option Value := none

namespace Supply

def ofList (vs : List Value) : Supply := ⟨vs, none⟩

/-- One value, whose parts may be named if it has parts. -/
def ofValue (v : Value) : Supply :=
  match v with
  | .map _ | .list _ => ⟨[v], some v⟩
  | v => ⟨[v], none⟩

def next (s : Supply) : Except Fault (Value × Supply) :=
  match s.rest with
  | [] => .error .mismatch
  | v :: vs => .ok (v, { s with rest := vs })

/-- Makes the value of a name the next one. -/
def select (s : Supply) (name : Text) : Except Fault Supply :=
  match s.named with
  | some (.map entries) =>
    match Value.entry? entries name with
    | some v => .ok { s with rest := [v] }
    | none => .error .missing
  | _ => .error .mismatch

/-- Whether values are left over. -/
def isLeft (s : Supply) : Bool := s.named.isNone && !s.rest.isEmpty

end Supply

/-- How a value is written. -/
structure Place where
  left : Bool := false
  plus : Bool := false
  blank : Bool := false
  /-- Prefixes of bases and points without digits are kept. -/
  full : Bool := false
  zero : Bool := false
  width : Nat := 0
  precision : Option Nat := none
  letter : Nat

/-- The largest width and precision. -/
def maxWidth : Nat := 0x7fffffffffffffff

def maxPrecision : Nat := 0x7fffffff

/-- A name up to the bracket that closes it. -/
def name? : (depth : Nat) → List Nat → Option (List Nat × List Nat)
  | _, [] => none
  | depth, 0x29 :: ps =>
    if depth = 0 then some ([], ps) else (name? (depth - 1) ps).map fun (n, r) => (0x29 :: n, r)
  | depth, 0x28 :: ps => (name? (depth + 1) ps).map fun (n, r) => (0x28 :: n, r)
  | depth, p :: ps => (name? depth ps).map fun (n, r) => (p :: n, r)

/-- Selects the value of a name, if one is given. -/
def name (s : Supply) : List Nat → Except Fault (Supply × List Nat)
  | 0x28 :: ps =>
    if s.named.isNone then .error .mismatch
    else
      match name? 0 ps with
      | none => .error (.malformed "incomplete format key")
      | some (n, rest) => (s.select ⟨n⟩).map fun s => (s, rest)
  | ps => .ok (s, ps)

def flags (p : Place) : List Nat → Place × List Nat
  | 0x2d :: ps => flags { p with left := true } ps
  | 0x2b :: ps => flags { p with plus := true } ps
  | 0x20 :: ps => flags { p with blank := true } ps
  | 0x23 :: ps => flags { p with full := true } ps
  | 0x30 :: ps => flags { p with zero := true } ps
  | ps => (p, ps)

def isDigit (p : Nat) : Bool := 0x30 ≤ p && p ≤ 0x39

def digitsValue (ps : List Nat) : Nat := ps.foldl (fun n p => n * 10 + (p - 0x30)) 0

/-- An integer from the values or from digits; without digits it is zero. -/
def size (most : Nat) (why : String) (s : Supply) :
    List Nat → Except Fault (Int × Supply × List Nat)
  | 0x2a :: ps =>
    s.next.bind fun (v, s) =>
      let number : Option Int := match v with
        | .int i => some i
        | .bool b => some b.toNat
        | _ => none
      match number with
      | none => .error .mismatch
      | some i => if i.natAbs ≤ most then .ok (i, s, ps) else .error .outOfRange
  | ps =>
    let n := digitsValue (ps.takeWhile isDigit)
    if most < n then .error (.malformed why) else .ok (n, s, ps.dropWhile isDigit)

/-- Reads a place behind its percent sign. -/
def place (s : Supply) (ps : List Nat) : Except Fault (Place × Supply × List Nat) := do
  let (s, ps) ← name s ps
  let (p, ps) := flags { letter := 0 } ps
  let (width, s, ps) ← size maxWidth "width too big" s ps
  let p := { p with width := width.natAbs, left := p.left || width < 0 }
  let (p, s, ps) ← match ps with
    | 0x2e :: ps => do
      let (n, s, ps) ← size maxPrecision "precision too big" s ps
      .ok ({ p with precision := some n.toNat }, s, ps)
    | ps => .ok (p, s, ps)
  let ps := match ps with
    | 0x68 :: ps | 0x6c :: ps | 0x4c :: ps => ps
    | ps => ps
  match ps with
  | [] => .error (.malformed "incomplete format")
  | letter :: ps => .ok ({ p with letter }, s, ps)

/-- A sign, the prefix of a base, and the rest of a number or a text. -/
structure Parts where
  sign : List Nat := []
  mark : List Nat := []
  body : List Nat
  /-- Zeros may fill the width. -/
  numeric : Bool := true

/-- Fills the width. -/
def Place.fit (p : Place) (parts : Parts) : List Nat :=
  let fill := p.width - (parts.sign.length + parts.mark.length + parts.body.length)
  if p.left then parts.sign ++ parts.mark ++ parts.body ++ List.replicate fill 0x20
  else if p.zero && parts.numeric then
    parts.sign ++ parts.mark ++ List.replicate fill 0x30 ++ parts.body
  else List.replicate fill 0x20 ++ parts.sign ++ parts.mark ++ parts.body

def pointsOf (s : String) : List Nat := s.toList.map Char.toNat

def upperAscii (p : Nat) : Nat := if 0x61 ≤ p ∧ p ≤ 0x7a then p - 32 else p

def Place.signOf (p : Place) (negative : Bool) : List Nat :=
  if negative then [0x2d] else if p.plus then [0x2b] else if p.blank then [0x20] else []

/-- An integer in a base. -/
def Place.integer (p : Place) (i : Int) : Except Fault Parts :=
  let sign := p.signOf (i < 0)
  let filled (ds : List Nat) := List.replicate ((p.precision.getD 0) - ds.length) 0x30 ++ ds
  let inBase (base : Nat) (mark : String) : Parts :=
    ⟨sign, if p.full then pointsOf mark else [],
      filled ((Nat.toDigits base i.natAbs).map Char.toNat), true⟩
  match Char.ofNat p.letter with
  | 'o' => .ok (inBase 8 "0o")
  | 'x' => .ok (inBase 16 "0x")
  | 'X' =>
    let parts := inBase 16 "0X"
    .ok { parts with body := parts.body.map upperAscii }
  | _ =>
    match Value.digits? i.natAbs with
    | none => .error .tooManyDigits
    | some t => .ok ⟨sign, [], filled t.points, true⟩

/-- A real number with its precision, six places unless it is given. -/
def Place.real (p : Place) (x : Float) : Parts :=
  let precision := p.precision.getD 6
  let upper := isUpper p.letter
  match Number.Binary64.parts x with
  | none =>
    let word := pointsOf (if x.isNaN then "nan" else "inf")
    ⟨p.signOf (x < 0), [], if upper then word.map upperAscii else word, true⟩
  | some parts =>
    let (n, d) := parts.ratio
    let text := match Char.ofNat (lowerAscii p.letter) with
      | 'e' => Number.Places.scientific p.full precision n d
      | 'f' => Number.Places.fixed p.full precision n d
      | _ => Number.Places.general p.full precision n d
    let body := pointsOf text
    ⟨p.signOf parts.negative, [], if upper then body.map upperAscii else body, true⟩
where
  isUpper (c : Nat) : Bool := 0x41 ≤ c && c ≤ 0x5a
  lowerAscii (c : Nat) : Nat := if isUpper c then c + 32 else c

/-- Cuts a text to the precision. -/
def Place.cut (p : Place) (t : Text) : Parts :=
  { body := (p.precision.map t.points.take).getD t.points, numeric := false }

/-- Characters outside ASCII as escapes. -/
def escaped (t : Text) : Text :=
  let escape (p : Nat) : List Nat :=
    let hex (mark width : Nat) := [0x5c, mark] ++ (Text.hexDigits width p).map Char.toNat
    if p < 0x80 then [p]
    else if p < 0x100 then hex 0x78 2 else if p < 0x10000 then hex 0x75 4 else hex 0x55 8
  ⟨t.points.flatMap escape⟩

/-- A value as an integer; real numbers lose their fraction if the place takes them. -/
def wholeOf (takesReal : Bool) : Value → Except Fault Int
  | .int i => .ok i
  | .bool b => .ok b.toNat
  | .real x =>
    if !takesReal then .error .mismatch
    else
      match Number.Binary64.truncate? x with
      | some (i, _) => .ok i
      | none =>
        if x.isNaN then .error (.malformed "cannot convert float NaN to integer")
        else .error .outOfRange
  | _ => .error .mismatch

def realOf : Value → Except Fault Float
  | .real x => .ok x
  | .bool b => .ok (if b then 1 else 0)
  | .int i =>
    match Number.Binary64.ofInt? i with
    | some x => .ok x
    | none => .error .outOfRange
  | _ => .error .mismatch

/-- The one character of a value. -/
def characterOf : Value → Except Fault Nat
  | .text ⟨[p]⟩ => .ok p
  | .int i => if 0 ≤ i ∧ i < 0x110000 then .ok i.toNat else .error .outOfRange
  | .bool b => .ok b.toNat
  | _ => .error .mismatch

def writable : Option Text → Except Fault Text
  | some t => .ok t
  | none => .error .tooManyDigits

/-- Writes a value at a place; `index` is where the letter stands. -/
def Place.write (p : Place) (index : Nat) (v : Value) : Except Fault (List Nat) :=
  match Char.ofNat p.letter with
  | 's' => (writable v.shown?).map fun t => p.fit (p.cut t)
  | 'r' => (writable v.quoted?).map fun t => p.fit (p.cut t)
  | 'a' => (writable v.quoted?).map fun t => p.fit (p.cut (escaped t))
  | 'd' | 'i' | 'u' => ((wholeOf true v).bind p.integer).map p.fit
  | 'o' | 'x' | 'X' => ((wholeOf false v).bind p.integer).map p.fit
  | 'e' | 'E' | 'f' | 'F' | 'g' | 'G' => (realOf v).map fun x => p.fit (p.real x)
  | 'c' => (characterOf v).map fun c => p.fit { body := [c], numeric := false }
  | _ =>
    let shown := if 31 ≤ p.letter ∧ p.letter < 127 then Char.ofNat p.letter else '?'
    .error (.malformed ("unsupported format character '" ++ String.singleton shown ++ "' (0x"
      ++ String.ofList (Nat.toDigits 16 p.letter) ++ ") at index " ++ toString index))

/-- Fills the places one after another; `fuel` bounds their number. -/
def fillFrom (length : Nat) : (fuel : Nat) → Supply → List Nat → Except Fault (List Nat)
  | 0, _, _ => .ok []
  | fuel + 1, s, ps =>
    let plain := ps.takeWhile (· != 0x25)
    match ps.dropWhile (· != 0x25) with
    | [] => if s.isLeft then .error .mismatch else .ok plain
    | _ :: 0x25 :: rest => (fillFrom length fuel s rest).map (plain ++ 0x25 :: ·)
    | _ :: behind => do
      let (p, s, rest) ← place s behind
      let (v, s) ← s.next
      let written ← p.write (length - rest.length - 1) v
      let more ← fillFrom length fuel s rest
      .ok (plain ++ written ++ more)

/-- Fills a template with values. -/
def fill (template : Text) (s : Supply) : Except Fault Text :=
  (fillFrom template.length (template.length + 1) s template.points).map Text.mk

end FleetProbe.Template
