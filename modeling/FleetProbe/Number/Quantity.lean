import FleetProbe.Number.Binary64
/-!
The numbers that measure time and levels: doubles when the program runs, rationals in exact
arithmetic. An amount is such a number or an integer, and mixed comparisons are exact.
-/

namespace FleetProbe

/-- Numbers that time and levels are measured in. -/
class Quantity (α : Type) extends Add α, Sub α, Mul α, Div α, LE α, LT α where
  zero : α
  /-- Nearest number to an integer; `none` when the integer is too large. -/
  ofInt? : Int → Option α
  /-- Exact order of a number and an integer; `none` for what is not a number. -/
  compareInt : α → Int → Option Ordering
  decLe : DecidableLE α
  decLt : DecidableLT α

namespace Quantity

instance (α : Type) [Quantity α] : DecidableLE α := decLe

instance (α : Type) [Quantity α] : DecidableLT α := decLt

instance : Quantity Float where
  zero := 0
  ofInt? := Number.Binary64.ofInt?
  compareInt := Number.Binary64.compareInt
  decLe := inferInstance
  decLt := inferInstance

instance : Quantity Rat where
  zero := 0
  ofInt? n := some n
  compareInt x n := some (if x < n then .lt else if x = n then .eq else .gt)
  decLe := inferInstance
  decLt := inferInstance

/-- A number, or a limit that is smaller. -/
def capped {α : Type} [Quantity α] (limit x : α) : α := if x < limit then x else limit

end Quantity

/-- An integer or a real number. -/
inductive Amount (α : Type) where
  | whole (n : Int)
  | real (x : α)
  deriving DecidableEq, Repr

namespace Amount

variable {α : Type} [Quantity α]

/-- The amount as a real number; `none` when an integer is too large. -/
def real? : Amount α → Option α
  | whole n => Quantity.ofInt? n
  | real x => some x

/-- Sums, differences and products of integers are integers, all others are real. -/
def combine? (onInt : Int → Int → Int) (onReal : α → α → α) :
    Amount α → Amount α → Option (Amount α)
  | whole m, whole n => some (whole (onInt m n))
  | a, b =>
    match a.real?, b.real? with
    | some x, some y => some (real (onReal x y))
    | _, _ => none

def add? : Amount α → Amount α → Option (Amount α) := combine? (· + ·) (· + ·)

def sub? : Amount α → Amount α → Option (Amount α) := combine? (· - ·) (· - ·)

def mul? : Amount α → Amount α → Option (Amount α) := combine? (· * ·) (· * ·)

/-- Exact, whatever the kinds are. -/
def lt : Amount α → Amount α → Bool
  | whole m, whole n => decide (m < n)
  | real x, real y => decide (x < y)
  | whole m, real y => Quantity.compareInt y m == some .gt
  | real x, whole n => Quantity.compareInt x n == some .lt

/-- Exact, whatever the kinds are. -/
def le : Amount α → Amount α → Bool
  | whole m, whole n => decide (m ≤ n)
  | real x, real y => decide (x ≤ y)
  | whole m, real y =>
    match Quantity.compareInt y m with
    | some o => o != .lt
    | none => false
  | real x, whole n =>
    match Quantity.compareInt x n with
    | some o => o != .gt
    | none => false

def isPositive (a : Amount α) : Bool := lt (whole 0) a

end Amount

end FleetProbe
