import FleetProbe.Number.Binary64
/-!
The decimal text of a double: the fewest digits that read back as the same double, nearest to it
among those, laid out positionally for moderate sizes and with an exponent beyond them.
-/

namespace FleetProbe.Number

/-- The number `digits * 10 ^ exponent`. -/
structure Decimal where
  digits : Nat
  exponent : Int
  deriving DecidableEq, Repr

namespace Decimal

/-- Decimal digits of a number, most significant first. -/
def digitChars (n : Nat) : List Char := (toString n).toList

/-- Number of decimal digits, one for zero. -/
def width (n : Nat) : Nat := (digitChars n).length

/-- The least `d` with `numerator / denominator < 10 ^ d`, for a positive fraction. -/
def magnitude (numerator denominator : Nat) : Int :=
  if denominator ≤ numerator then width (numerator / denominator)
  else
    let l := width (denominator / numerator)
    let z : Nat := if denominator ≤ numerator * Nat.pow 10 (l - 1) then l - 1 else l
    1 - (z : Int)

/-- Scales a fraction by a power of ten. -/
def scale (numerator denominator : Nat) (power : Int) : Nat × Nat :=
  if 0 ≤ power then (numerator * Nat.pow 10 power.toNat, denominator)
  else (numerator, denominator * Nat.pow 10 (-power).toNat)

/-- The point of the grid `10 ^ exponent` nearest to the middle of an interval, if the interval
`low / den .. high / den` holds one; the ends belong to it when `closed`. -/
def onGrid? (low middle high den : Nat) (closed : Bool) (exponent : Int) : Option Decimal :=
  let (l, d) := scale low den (-exponent)
  let (m, _) := scale middle den (-exponent)
  let (h, _) := scale high den (-exponent)
  let inside (k : Nat) : Bool :=
    if closed then l ≤ k * d && k * d ≤ h else l < k * d && k * d < h
  let down := m / d
  let up := if m % d = 0 then down else down + 1
  let below := m - down * d
  let above := up * d - m
  let downFirst := below < above || (below == above && down % 2 == 0)
  let first := if downFirst then down else up
  let second := if downFirst then up else down
  if 0 < first && inside first then some ⟨first, exponent⟩
  else if 0 < second && inside second then some ⟨second, exponent⟩
  else none

/-- Shortest decimal of a positive double given by its parts. -/
def shortestOfParts (p : Binary64.Parts) : Decimal :=
  let closed := p.mantissa % 2 == 0
  let narrow := p.mantissa == Binary64.unit && (-1074 : Int) < p.exponent
  let quarter : Binary64.Parts := ⟨false, 1, p.exponent - 2⟩
  let (unit, den) := quarter.ratio
  let middle := 4 * p.mantissa * unit
  let low := middle - (if narrow then 1 else 2) * unit
  let high := middle + 2 * unit
  let top := magnitude middle den
  ((List.range 17).findSome? fun n => onGrid? low middle high den closed (top - (n + 1 : Nat))).getD
    ⟨middle, 0⟩

/-- Drops the zeros at the end of the digits; `fuel` bounds their number. -/
def strip : Nat → Decimal → Decimal
  | 0, d => d
  | fuel + 1, d =>
    if d.digits ≠ 0 ∧ d.digits % 10 = 0 then strip fuel ⟨d.digits / 10, d.exponent + 1⟩ else d

end Decimal

/-- Choices in writing a number out. -/
structure Layout where
  /-- Exponents of ten of the first digit that are written positionally lie above this. -/
  lowest : Int
  /-- Exponents of ten of the first digit that are written positionally lie below this. -/
  highest : Int
  /-- Whether a whole number ends in a point and a zero. -/
  pointZero : Bool
  exponentMark : Char
  exponentWidth : Nat
  infinite : String
  notANumber : String

namespace Layout

/-- Pads digits on the left with zeros. -/
def padLeft (width : Nat) (cs : List Char) : List Char :=
  List.replicate (width - cs.length) '0' ++ cs

/-- Writes a positive decimal. -/
def renderDecimal (l : Layout) (d : Decimal) : String :=
  let d := Decimal.strip 400 d
  let cs := Decimal.digitChars d.digits
  let first : Int := d.exponent + cs.length - 1
  if l.lowest < first ∧ first < l.highest then
    if 0 ≤ d.exponent then
      String.ofList (cs ++ List.replicate d.exponent.toNat '0')
        ++ (if l.pointZero then ".0" else "")
    else
      let places := (-d.exponent).toNat
      let padded := padLeft (places + 1) cs
      String.ofList (padded.take (padded.length - places)) ++ "."
        ++ String.ofList (padded.drop (padded.length - places))
  else
    let head := String.ofList (cs.take 1)
    let tail := cs.drop 1
    head ++ (if tail.isEmpty then "" else "." ++ String.ofList tail)
      ++ String.singleton l.exponentMark ++ (if first < 0 then "-" else "+")
      ++ String.ofList (padLeft l.exponentWidth (Decimal.digitChars first.natAbs))

/-- Writes a double. -/
def render (l : Layout) (x : Float) : String :=
  match Binary64.parts x with
  | none => if x.isNaN then l.notANumber else (if x < 0 then "-" else "") ++ l.infinite
  | some p =>
    (if p.negative then "-" else "") ++
      (if p.mantissa = 0 then (if l.pointZero then "0.0" else "0")
        else l.renderDecimal (Decimal.shortestOfParts p))

end Layout

/-- Doubles are positional from 0.0001 up to 10 ^ 16, keep a point, and have exponents of two
digits. -/
def plainLayout : Layout := ⟨-5, 16, true, 'e', 2, "inf", "nan"⟩

/-- Text of a double in the plain layout. -/
def text (x : Float) : String := plainLayout.render x

end FleetProbe.Number
