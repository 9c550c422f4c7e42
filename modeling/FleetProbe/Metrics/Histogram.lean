import FleetProbe.Number.Quantity
/-!
Histograms: how many amounts fell up to each bound and above the bound before it, and the sum of
all of them. Behind the given bounds there is one without limit.
-/

namespace FleetProbe.Metrics

/-- Why a list of bounds is refused. -/
inductive BoundsFault where
  | unsorted
  | tooFew
  deriving DecidableEq, Repr

namespace BoundsFault

def message : BoundsFault → String
  | unsorted => "Buckets not in sorted order"
  | tooFew => "Must have at least two buckets"

end BoundsFault

structure Histogram (α : Type) where
  /-- One count per bound, the one without limit last. -/
  counts : List Nat
  sum : α
  deriving DecidableEq, Repr

namespace Histogram

variable {α : Type} [Quantity α]

def empty (bounds : List α) : Histogram α := ⟨List.replicate (bounds.length + 1) 0, Quantity.zero⟩

/-- Counts an amount under the first bound that it does not exceed. What cannot be compared is
counted nowhere. -/
def tally : List α → α → List Nat → List Nat
  | b :: bounds, x, n :: counts => if x ≤ b then (n + 1) :: counts else n :: tally bounds x counts
  | [], x, n :: counts => if x ≤ x then (n + 1) :: counts else n :: counts
  | _, _, [] => []

def observe (bounds : List α) (x : α) (h : Histogram α) : Histogram α :=
  ⟨tally bounds x h.counts, h.sum + x⟩

/-- Sums of the counts up to each bound. -/
def cumulative : (before : Nat) → List Nat → List Nat
  | _, [] => []
  | before, n :: counts => (before + n) :: cumulative (before + n) counts

def count (h : Histogram α) : Nat := h.counts.foldr (· + ·) 0

end Histogram

/-- Whether no number is below the one before it. -/
def isSorted {α : Type} [Quantity α] : List α → Bool
  | a :: b :: rest => !decide (b < a) && isSorted (b :: rest)
  | _ => true

/-- Checks bounds. One without limit at the end is left out: it is always there. -/
def checkBounds (bounds : List Float) : Except BoundsFault (List Float) :=
  if isSorted bounds then
    match bounds.getLast? with
    | none => .error .tooFew
    | some last =>
      let finite := if last == Number.Binary64.infinity then bounds.dropLast else bounds
      if finite.isEmpty then .error .tooFew else .ok finite
  else .error .unsorted

/-- Bounds of response times in seconds. -/
def standardBounds : List Float :=
  [0.0005, 0.001, 0.0025, 0.005, 0.01, 0.025, 0.05, 0.1, 0.25, 0.5, 1.0, 2.5]

end FleetProbe.Metrics
