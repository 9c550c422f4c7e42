/-!
Double precision numbers as exact fractions: `Binary64.parts` reads a finite double as `m * 2 ^ e`,
`Binary64.ofRatio` rounds a fraction to the nearest double (an exact half goes to the even one),
and the comparisons with integers are exact.
-/

namespace FleetProbe.Number

namespace Binary64

/-- Bits of positive infinity. -/
def infinityBits : Nat := 0x7ff0000000000000

/-- Magnitude and exponent of a finite double: its absolute value is `mantissa * 2 ^ exponent`. -/
structure Parts where
  negative : Bool
  mantissa : Nat
  exponent : Int
  deriving DecidableEq, Repr

/-- The least mantissa of a double with all its bits. -/
def unit : Nat := 0x10000000000000

/-- `none` for infinities and NaN. -/
def parts (x : Float) : Option Parts :=
  let bits := x.toBits.toNat
  let negative := bits / 0x8000000000000000 == 1
  let field : Nat := bits / unit % 0x800
  let fraction := bits % unit
  if field == 2047 then none
  else if field == 0 then some ⟨negative, fraction, -1074⟩
  else some ⟨negative, unit + fraction, (field : Int) - 1075⟩

/-- The number `numerator / denominator` of the parts. -/
def Parts.ratio (p : Parts) : Nat × Nat :=
  if 0 ≤ p.exponent then (p.mantissa * Nat.pow 2 p.exponent.toNat, 1)
  else (p.mantissa, Nat.pow 2 (-p.exponent).toNat)

/-- Quotient rounded to the nearest integer; an exact half goes to the even neighbour. -/
def roundHalfEven (numerator denominator : Nat) : Nat :=
  let q := numerator / denominator
  let twice := 2 * (numerator % denominator)
  if denominator < twice || (twice == denominator && q % 2 == 1) then q + 1 else q

/-- Bits of the double nearest to a fraction; the bits of infinity or more when it is too large. -/
def bitsOfRatio (numerator denominator : Nat) : Nat :=
  if numerator = 0 then 0 else
  let scaled (e : Int) : Nat × Nat :=
    if 0 ≤ e then (numerator, denominator * Nat.pow 2 e.toNat)
    else (numerator * Nat.pow 2 (-e).toNat, denominator)
  let guess : Int := (numerator.log2 : Int) - denominator.log2 - 52
  let (n, d) := scaled guess
  let e := max (if n < unit * d then guess - 1 else guess) (-1074)
  let (n, d) := scaled e
  (e + 1074).toNat * unit + roundHalfEven n d

/-- Nearest double; `none` when the fraction is beyond the largest finite double. -/
def ofRatio? (negative : Bool) (numerator denominator : Nat) : Option Float :=
  let bits := bitsOfRatio numerator denominator
  if infinityBits ≤ bits then none
  else
    let x := Float.ofBits bits.toUInt64
    some (if negative then -x else x)

def infinity : Float := Float.ofBits 0x7ff0000000000000

def nan : Float := Float.ofBits 0x7ff8000000000000

/-- Nearest double, infinite when the fraction is too large. -/
def ofRatio (negative : Bool) (numerator denominator : Nat) : Float :=
  (ofRatio? negative numerator denominator).getD (if negative then -infinity else infinity)

/-- Nearest double of an integer; `none` when it is too large. -/
def ofInt? (i : Int) : Option Float := ofRatio? (i < 0) i.natAbs 1

/-- Nearest double of `digits * 10 ^ exponent`, infinite when too large. -/
def ofDecimal (negative : Bool) (digits : Nat) (exponent : Int) : Float :=
  -- Beyond these exponents the answer is infinite or zero whatever the digits are.
  let size : Int := (toString digits).length
  if digits = 0 then (if negative then -0.0 else 0.0)
  else if 400 < exponent + size then (if negative then -infinity else infinity)
  else if exponent + size < -400 then (if negative then -0.0 else 0.0)
  else if 0 ≤ exponent then ofRatio negative (digits * Nat.pow 10 exponent.toNat) 1
  else ofRatio negative digits (Nat.pow 10 (-exponent).toNat)

/-- Integer part toward zero, and whether the number is that integer; `none` if not finite. -/
def truncate? (x : Float) : Option (Int × Bool) :=
  (parts x).map fun p =>
    let (n, d) := p.ratio
    let q : Int := n / d
    (if p.negative then -q else q, n % d == 0)

/-- Exact order of a double and an integer; `none` for NaN. -/
def compareInt (x : Float) (i : Int) : Option Ordering :=
  match parts x with
  | some p =>
    let (n, d) := p.ratio
    let signed : Int := if p.negative then -(n : Int) else n
    some (compare signed (i * d))
  | none =>
    if x.isNaN then none else some (if x < 0 then .lt else .gt)

end Binary64

end FleetProbe.Number
