import Mathlib.Algebra.Order.Ring.Cast
import Mathlib.Data.Rat.Lemmas
import Mathlib.Algebra.Order.Field.Rat
import FleetProbe.Number.Quantity
/-!
Amounts in exact arithmetic. Integers and rationals mix freely there: an amount is its value, no
number is too large, and the operations and comparisons are those of the values.
-/

namespace FleetProbe

theorem Quantity.capped_eq_min (limit x : Rat) : capped limit x = min limit x := by
  unfold capped
  split
  · next h => exact (min_eq_right h.le).symm
  · next h => exact (min_eq_left (not_lt.mp h)).symm

namespace Amount

def value : Amount Rat → Rat
  | whole n => n
  | real x => x

@[simp]
theorem value_real (x : Rat) : (real x).value = x := rfl

@[simp]
theorem value_whole (n : Int) : (whole n : Amount Rat).value = n := rfl

theorem real?_eq (a : Amount Rat) : a.real? = some a.value := by
  cases a with
  | whole n => rfl
  | real x => rfl

/-- An operation that agrees on integers and rationals is the operation on values. -/
theorem combine?_value {onInt : Int → Int → Int} {onReal : Rat → Rat → Rat}
    (h : ∀ m n : Int, ((onInt m n : Int) : Rat) = onReal m n) (a b : Amount Rat) :
    ∃ c, combine? onInt onReal a b = some c ∧ c.value = onReal a.value b.value := by
  cases a with
  | whole m =>
    cases b with
    | whole n => exact ⟨whole (onInt m n), rfl, h m n⟩
    | real y => exact ⟨real (onReal m y), rfl, rfl⟩
  | real x =>
    cases b with
    | whole n => exact ⟨real (onReal x n), rfl, rfl⟩
    | real y => exact ⟨real (onReal x y), rfl, rfl⟩

theorem add?_value (a b : Amount Rat) : ∃ c, add? a b = some c ∧ c.value = a.value + b.value :=
  combine?_value (fun m n => by push_cast; rfl) a b

theorem sub?_value (a b : Amount Rat) : ∃ c, sub? a b = some c ∧ c.value = a.value - b.value :=
  combine?_value (fun m n => by push_cast; rfl) a b

theorem mul?_value (a b : Amount Rat) : ∃ c, mul? a b = some c ∧ c.value = a.value * b.value :=
  combine?_value (fun m n => by push_cast; rfl) a b

theorem lt_iff (a b : Amount Rat) : lt a b = true ↔ a.value < b.value := by
  cases a with
  | whole m =>
    cases b with
    | whole n => simp [lt]
    | real y =>
      simp only [lt, Quantity.compareInt, value]
      split_ifs with h h'
      · simpa using h.le
      · simp [h']
      · simpa using lt_of_le_of_ne (not_lt.mp h) (Ne.symm h')
  | real x =>
    cases b with
    | whole n =>
      simp only [lt, Quantity.compareInt, value]
      split_ifs with h h'
      · simpa using h
      · simp [h']
      · simpa using not_lt.mp h
    | real y => simp [lt]

theorem le_iff (a b : Amount Rat) : le a b = true ↔ a.value ≤ b.value := by
  cases a with
  | whole m =>
    cases b with
    | whole n => simp [le]
    | real y =>
      simp only [le, Quantity.compareInt, value]
      split_ifs with h h'
      · simpa using h
      · simp [h']
      · simpa using not_lt.mp h
  | real x =>
    cases b with
    | whole n =>
      simp only [le, Quantity.compareInt, value]
      split_ifs with h h'
      · simpa using h.le
      · simp [h']
      · simpa using lt_of_le_of_ne (not_lt.mp h) (Ne.symm h')
    | real y => simp [le]

theorem isPositive_iff (a : Amount Rat) : a.isPositive = true ↔ 0 < a.value := by
  rw [isPositive, lt_iff]
  simp

end Amount

end FleetProbe
