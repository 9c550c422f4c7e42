import FleetProbe.Number.Binary64
import FleetProbe.Text.Integer
/-!
Numbers written as text: a sign, then a word for what is not finite or decimal digits with a point
and an exponent. `numeral?` reads the bare form, `number?` also takes white space around it, digits
of any script, and single underscores between digits.
-/

namespace FleetProbe.Number

/-- Splits off a sign; true when it is a minus. -/
def splitSign : List Nat → Bool × List Nat
  | 0x2d :: ps => (true, ps)
  | 0x2b :: ps => (false, ps)
  | ps => (false, ps)

def isDigit (p : Nat) : Bool := 0x30 ≤ p && p ≤ 0x39

/-- Value of a run of digits. -/
def digitsValue (ps : List Nat) : Nat := ps.foldl (fun n p => n * 10 + (p - 0x30)) 0

def isMark (p : Nat) : Bool := p == 0x65 || p == 0x45

/-- What follows the digits of a number: nothing, or a mark, a sign and digits. -/
def exponent? : List Nat → Option Int
  | [] => some 0
  | mark :: ps =>
    let (negative, ds) := splitSign ps
    if isMark mark && !ds.isEmpty && ds.all isDigit then
      let n : Int := digitsValue ds
      some (if negative then -n else n)
    else none

/-- Decimal digits, with a point and an exponent if need be; one digit at least. -/
def decimal? (negative : Bool) (ps : List Nat) : Option Float :=
  let whole := ps.takeWhile isDigit
  let (places, rest) : List Nat × List Nat := match ps.dropWhile isDigit with
    | 0x2e :: rest => (rest.takeWhile isDigit, rest.dropWhile isDigit)
    | rest => ([], rest)
  if whole.isEmpty && places.isEmpty then none
  else
    (exponent? rest).map fun e =>
      Binary64.ofDecimal negative (digitsValue (whole ++ places)) (e - places.length)

/-- Lower case of ASCII letters. -/
def lowerAscii (p : Nat) : Nat := if 0x41 ≤ p && p ≤ 0x5a then p + 32 else p

def isWord (w : String) (ps : List Nat) : Bool := ps.map lowerAscii == w.toList.map Char.toNat

/-- A number in its bare form. -/
def numeral? (ps : List Nat) : Option Float :=
  let (negative, ps) := splitSign ps
  if isWord "inf" ps || isWord "infinity" ps then
    some (if negative then -Binary64.infinity else Binary64.infinity)
  else if isWord "nan" ps then some Binary64.nan
  else decimal? negative ps

/-- Drops underscores that stand between two digits; `none` when another one is there. -/
def dropUnderscores? (before : Bool) : List Nat → Option (List Nat)
  | [] => some []
  | 0x5f :: p :: ps =>
    if before && isDigit p then (dropUnderscores? true ps).map (p :: ·) else none
  | p :: ps => if p = 0x5f then none else (dropUnderscores? (isDigit p) ps).map (p :: ·)

/-- The digit of ASCII with the value of a digit. -/
def asciiDigit (p : Nat) : Nat := ((Text.digitValue? p).map (0x30 + ·)).getD p

/-- Reads a number. -/
def number? (t : Text) : Option Float :=
  let ps := Text.trimBy Text.isWhiteSpace t.points
  (dropUnderscores? false (ps.map asciiDigit)).bind numeral?

end FleetProbe.Number
