import FleetProbe.Number.Shortest
/-!
Doubles with a chosen number of digits: behind the point, behind the first digit, or in all. The
exact value is rounded once, a half to the even neighbour.
-/

namespace FleetProbe.Number.Places

/-- Digits with a point in front of the last ones; the point stays without any if `keepPoint`. -/
def point (keepPoint : Bool) (places : Nat) (digits : List Char) : String :=
  let digits := Layout.padLeft (places + 1) digits
  let whole := digits.take (digits.length - places)
  let fraction := digits.drop (digits.length - places)
  String.ofList whole ++
    if fraction.isEmpty then (if keepPoint then "." else "") else "." ++ String.ofList fraction

/-- A fraction with some digits behind the point. -/
def fixed (keepPoint : Bool) (places numerator denominator : Nat) : String :=
  point keepPoint places
    (Decimal.digitChars (Binary64.roundHalfEven (numerator * Nat.pow 10 places) denominator))

/-- The digits of a fraction, some in number, with the power of ten of the first one. -/
def leading (count numerator denominator : Nat) : List Char × Int :=
  if numerator = 0 then (List.replicate count '0', 0)
  else
    let top := Decimal.magnitude numerator denominator
    let (n, d) := Decimal.scale numerator denominator (count - top)
    let rounded := Binary64.roundHalfEven n d
    if Nat.pow 10 count ≤ rounded then (Decimal.digitChars (rounded / 10), top)
    else (Decimal.digitChars rounded, top - 1)

/-- A mark, a sign and two digits at least. -/
def exponent (e : Int) : String :=
  "e" ++ (if e < 0 then "-" else "+")
    ++ String.ofList (Layout.padLeft 2 (Decimal.digitChars e.natAbs))

/-- A fraction with one digit in front of the point and an exponent. -/
def scientific (keepPoint : Bool) (places numerator denominator : Nat) : String :=
  let (ds, e) := leading (places + 1) numerator denominator
  point keepPoint places ds ++ exponent e

def dropZeros (ds : List Char) : List Char := (ds.reverse.dropWhile (· == '0')).reverse

/-- A fraction with some digits in all. Zeros at the end are dropped unless `keepPoint`; the
exponent is written when it is small or no digit would be left behind the point. -/
def general (keepPoint : Bool) (count numerator denominator : Nat) : String :=
  let count := max count 1
  let (ds, e) := leading count numerator denominator
  let kept (first : Nat) : List Char :=
    if keepPoint then ds else ds.take first ++ dropZeros (ds.drop first)
  if e < -4 ∨ (count : Int) ≤ e then
    let ds := kept 1
    point keepPoint (ds.length - 1) ds ++ exponent e
  else if 0 ≤ e then
    let ds := kept (e.toNat + 1)
    point keepPoint (ds.length - (e.toNat + 1)) ds
  else
    let zeros := List.replicate (-e).toNat '0'
    let ds := zeros ++ (if keepPoint then ds else dropZeros ds)
    point keepPoint (ds.length - 1) ds

end FleetProbe.Number.Places
