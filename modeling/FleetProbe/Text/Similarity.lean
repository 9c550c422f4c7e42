import FleetProbe.Text.Basic
/-!
How alike two texts are: twice the characters in common blocks, out of all characters of both. The
longest common block is taken first, then those on its left and on its right.
-/

namespace FleetProbe.Text

def commonFront : List Nat → List Nat → Nat
  | a :: as, b :: bs => if a = b then commonFront as bs + 1 else 0
  | _, _ => 0

/-- A common block of two texts. -/
structure Block where
  left : Nat
  right : Nat
  size : Nat
  deriving DecidableEq, Repr

/-- The longest common block; the first one in the first text, then in the second, of equal ones. -/
def longestBlock (a b : List Nat) : Block :=
  (List.range a.length).foldl (fun best i =>
    (List.range b.length).foldl (fun best j =>
      let size := commonFront (a.drop i) (b.drop j)
      if best.size < size then ⟨i, j, size⟩ else best) best) ⟨0, 0, 0⟩

/-- Characters in common blocks; `fuel` bounds the number of blocks. -/
def commonSize : (fuel : Nat) → List Nat → List Nat → Nat
  | 0, _, _ => 0
  | fuel + 1, a, b =>
    let block := longestBlock a b
    if block.size = 0 then 0
    else
      commonSize fuel (a.take block.left) (b.take block.right) + block.size
        + commonSize fuel (a.drop (block.left + block.size)) (b.drop (block.right + block.size))

/-- A candidate with how alike it is, as a fraction. -/
structure Likeness where
  candidate : Text
  common : Nat
  total : Nat

namespace Likeness

def of (t candidate : Text) : Likeness :=
  { candidate, common := 2 * commonSize (candidate.length + 1) candidate.points t.points
    total := candidate.length + t.length }

/-- Three fifths alike. -/
def isClose (l : Likeness) : Bool := 3 * l.total ≤ 5 * l.common

/-- The more alike ones first, and of equal ones the one later in the alphabet. -/
def precedes (a b : Likeness) : Bool :=
  let x := a.common * b.total
  let y := b.common * a.total
  y < x || (x == y && !Text.lt a.candidate b.candidate)

end Likeness

/-- The three candidates most like a text, in the order of the alphabet. -/
def closest (t : Text) (candidates : List Text) : List Text :=
  let close := (candidates.map (Likeness.of t)).filter Likeness.isClose
  let best := (close.mergeSort Likeness.precedes).take 3
  sorted (best.map Likeness.candidate)

end FleetProbe.Text
