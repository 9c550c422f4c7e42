import Mathlib.Tactic.Linarith
import Mathlib.Tactic.Positivity
import FleetProbe.Bucket
import FleetProbe.Proofs.Number.Exact
/-!
The level of a bucket in exact arithmetic. Between withdrawals it grows at a fixed rate up to the
capacity, whenever it is looked at; what a call comes to depends on the level at its instant alone.
-/

namespace FleetProbe.Bucket

/-- The level at an instant, if nobody takes anything before. -/
def levelAt (b : Bucket Rat) (x : Rat) : Rat :=
  min b.full (b.available + max 0 (x - b.last.value) * b.quantum.value)

/-- A bucket that holds no less than nothing and no more than its capacity. -/
structure Sound (b : Bucket Rat) : Prop where
  full : b.full = b.capacity.value
  rate : 0 < b.quantum.value
  nonneg : 0 ≤ b.available
  le_full : b.available ≤ b.full

theorem create_eq {capacity quantum : Amount Rat} (hc : 0 ≤ capacity.value)
    (hq : 0 < quantum.value) (now : Amount Rat) :
    create capacity quantum now =
      .ok ⟨capacity, quantum, capacity.value, capacity.value, now⟩ := by
  have hlt : Amount.lt capacity (.whole 0) = false := by
    rw [Bool.eq_false_iff, Ne, Amount.lt_iff]
    simpa using hc
  have hle : Amount.le quantum (.whole 0) = false := by
    rw [Bool.eq_false_iff, Ne, Amount.le_iff]
    simpa using hq
  simp only [create, hlt, hle, Bool.false_eq_true, if_false, Amount.real?_eq]

theorem full_sound {capacity quantum : Amount Rat} (hc : 0 ≤ capacity.value)
    (hq : 0 < quantum.value) (now : Amount Rat) :
    Sound ⟨capacity, quantum, capacity.value, capacity.value, now⟩ :=
  ⟨rfl, hq, hc, le_refl _⟩

theorem elapsed?_value (b : Bucket Rat) (now : Amount Rat) :
    ∃ d, b.elapsed? now = some d ∧ d.value = max 0 (now.value - b.last.value) := by
  obtain ⟨d, hd, hvalue⟩ := Amount.sub?_value now b.last
  refine ⟨if d.isPositive then d else .real Quantity.zero, by rw [elapsed?, hd]; rfl, ?_⟩
  rw [← hvalue]
  split
  · next h => exact (max_eq_right ((Amount.isPositive_iff d).mp h).le).symm
  · next h => exact (max_eq_left (not_lt.mp (mt (Amount.isPositive_iff d).mpr h))).symm

theorem refill?_eq (b : Bucket Rat) (now : Amount Rat) :
    b.refill? now = some { b with available := b.levelAt now.value, last := now } := by
  obtain ⟨d, hd, hvalue⟩ := elapsed?_value b now
  obtain ⟨gain, hgain, hgvalue⟩ := Amount.mul?_value d b.quantum
  have hlevel : b.levelAfter? d = some (b.levelAt now.value) := by
    simp only [levelAfter?, hgain, Option.bind_some, Amount.real?_eq, Option.map_some, hgvalue,
      hvalue, Quantity.capped_eq_min, levelAt]
  simp only [refill?, hd, Option.bind_some, hlevel, Option.map_some]

theorem request_eq (b : Bucket Rat) (now later tokens : Amount Rat) :
    b.request now later tokens =
      if b.capacity.value < tokens.value then (b, .error (.overCapacity tokens b.capacity))
      else if tokens.value ≤ 0 then (b, .ok .granted)
      else if tokens.value ≤ b.levelAt now.value then
        ({ b with available := b.levelAt now.value - tokens.value, last := later }, .ok .granted)
      else
        ({ b with available := b.levelAt now.value, last := now },
          .ok (.sleep ((tokens.value - b.levelAt now.value) / b.quantum.value))) := by
  simp only [request, refill?_eq, delay?, Amount.real?_eq, Amount.lt_iff, Amount.le_iff,
    Amount.value_whole, Amount.value_real, Int.cast_zero]

theorem wake_eq (b : Bucket Rat) (now : Amount Rat) :
    b.wake now = { b with available := 0, last := now } := rfl

namespace Sound

variable {b : Bucket Rat}

theorem levelAt_nonneg (h : b.Sound) (x : Rat) : 0 ≤ b.levelAt x := by
  have hgain : 0 ≤ max 0 (x - b.last.value) * b.quantum.value :=
    mul_nonneg (le_max_left _ _) h.rate.le
  exact le_min (h.nonneg.trans h.le_full) (add_nonneg h.nonneg hgain)

theorem levelAt_le (b : Bucket Rat) (x : Rat) : b.levelAt x ≤ b.full := min_le_left _ _

/-- From one refill to the next no more comes in than the rate says. -/
theorem levelAt_le_add {x : Rat} (hx : b.last.value ≤ x) :
    b.levelAt x ≤ b.available + (x - b.last.value) * b.quantum.value := by
  have hmax : max 0 (x - b.last.value) = x - b.last.value := max_eq_right (sub_nonneg.mpr hx)
  exact (min_le_right _ _).trans_eq (by rw [hmax])

/-- A full bucket stays full. -/
theorem levelAt_full (h : b.Sound) (hfull : b.available = b.full) (x : Rat) :
    b.levelAt x = b.full := by
  have hgain : 0 ≤ max 0 (x - b.last.value) * b.quantum.value :=
    mul_nonneg (le_max_left _ _) h.rate.le
  rw [levelAt, hfull]
  exact min_eq_left (by linarith)

theorem levelAt_last (h : b.Sound) {x : Rat} (hx : b.last.value = x) :
    b.levelAt x = b.available := by
  rw [levelAt, hx, sub_self, max_self, zero_mul, add_zero]
  exact min_eq_right h.le_full

/-- A refill does not change the level at any later instant. -/
theorem levelAt_refill (h : b.Sound) {now : Amount Rat} {x : Rat} (hnow : b.last.value ≤ now.value)
    (hx : now.value ≤ x) :
    levelAt { b with available := b.levelAt now.value, last := now } x = b.levelAt x := by
  have h0 : max 0 (now.value - b.last.value) = now.value - b.last.value :=
    max_eq_right (sub_nonneg.mpr hnow)
  have h1 : max 0 (x - now.value) = x - now.value := max_eq_right (sub_nonneg.mpr hx)
  have h2 : max 0 (x - b.last.value) = x - b.last.value :=
    max_eq_right (sub_nonneg.mpr (hnow.trans hx))
  have hrate : 0 ≤ (x - now.value) * b.quantum.value :=
    mul_nonneg (sub_nonneg.mpr hx) h.rate.le
  have hsum : b.available + (now.value - b.last.value) * b.quantum.value
        + (x - now.value) * b.quantum.value =
      b.available + (x - b.last.value) * b.quantum.value := by
    rw [add_assoc, ← add_mul]
    congr 2
    linarith
  simp only [levelAt, h0, h1, h2]
  rw [← min_add_add_right, hsum, ← min_assoc, min_eq_left (le_add_of_nonneg_right hrate)]

/-- What is missing comes in before long: a full bucket's worth takes longest. -/
theorem missing_bounds (h : b.Sound) {n x : Rat} (hmissing : b.levelAt x < n)
    (hfits : n ≤ b.capacity.value) :
    0 < (n - b.levelAt x) / b.quantum.value ∧
      (n - b.levelAt x) / b.quantum.value ≤ b.capacity.value / b.quantum.value := by
  refine ⟨div_pos (sub_pos.mpr hmissing) h.rate, ?_⟩
  have hlevel := h.levelAt_nonneg x
  exact div_le_div_of_nonneg_right (by linarith) h.rate.le

theorem refill (h : b.Sound) (now : Amount Rat) :
    Sound { b with available := b.levelAt now.value, last := now } :=
  ⟨h.full, h.rate, h.levelAt_nonneg _, levelAt_le b _⟩

theorem take (h : b.Sound) {now later : Amount Rat} {n : Rat} (hn : 0 ≤ n)
    (hle : n ≤ b.levelAt now.value) :
    Sound { b with available := b.levelAt now.value - n, last := later } :=
  ⟨h.full, h.rate, sub_nonneg.mpr hle, (sub_le_self _ hn).trans (levelAt_le b _)⟩

theorem empty (h : b.Sound) (now : Amount Rat) : Sound { b with available := 0, last := now } :=
  ⟨h.full, h.rate, le_refl _, h.nonneg.trans h.le_full⟩

end Sound

end FleetProbe.Bucket
