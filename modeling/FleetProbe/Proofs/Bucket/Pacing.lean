import Mathlib.Tactic.Ring
import FleetProbe.Proofs.Bucket.Visit
/-!
How much a bucket lets through. In any stretch of time the calls that return get the capacity at
most and what comes in meanwhile: what calls can still get is a potential that every call pays from.
-/

namespace FleetProbe.Bucket

/-- Tokens that a call returns with between two instants. -/
def paid (b : Bucket Rat) (s t : Rat) (v : Visit) : Rat :=
  if (b.visit v).2 = .granted ∧ 0 < v.tokens.value ∧ s ≤ v.departure.value ∧
      v.departure.value ≤ t then
    v.tokens.value
  else 0

/-- Tokens that calls in a row return with between two instants. -/
def granted (b : Bucket Rat) (s t : Rat) : List Visit → Rat
  | [] => 0
  | v :: vs => b.paid s t v + (b.visit v).1.granted s t vs

/-- What calls can still get between two instants: what there is and what comes in, or a full
bucket and what comes in when the stretch has not begun. -/
def allowance (b : Bucket Rat) (s t : Rat) : Rat :=
  if s ≤ b.last.value then b.available + (t - b.last.value) * b.quantum.value
  else b.full + (t - s) * b.quantum.value

section Allowance

variable {b : Bucket Rat} {s t : Rat}

theorem Sound.allowance_nonneg (h : b.Sound) (hst : s ≤ t) (hlast : b.last.value ≤ t) :
    0 ≤ b.allowance s t := by
  unfold allowance
  split
  · exact add_nonneg h.nonneg (mul_nonneg (sub_nonneg.mpr hlast) h.rate.le)
  · exact add_nonneg (h.nonneg.trans h.le_full) (mul_nonneg (sub_nonneg.mpr hst) h.rate.le)

theorem Sound.allowance_le (h : b.Sound) :
    b.allowance s t ≤ b.full + b.quantum.value * (t - s) := by
  have hlevel := h.le_full
  unfold allowance
  split
  · have hrate : b.quantum.value * (t - b.last.value) ≤ b.quantum.value * (t - s) :=
      mul_le_mul_of_nonneg_left (by linarith) h.rate.le
    linarith
  · linarith

/-- What there is at an instant, and what comes in from some later instant on, could be got. -/
theorem Sound.levelAt_allowance (h : b.Sound) {x y : Rat} (hx : b.last.value ≤ x) (hxy : x ≤ y)
    (hs : s ≤ y) : b.levelAt x + (t - y) * b.quantum.value ≤ b.allowance s t := by
  have hrate : (t - y) * b.quantum.value ≤ (t - x) * b.quantum.value :=
    mul_le_mul_of_nonneg_right (by linarith) h.rate.le
  unfold allowance
  split
  · have hle := Sound.levelAt_le_add hx
    calc b.levelAt x + (t - y) * b.quantum.value
        ≤ b.available + (x - b.last.value) * b.quantum.value + (t - x) * b.quantum.value := by
          linarith
      _ = b.available + (t - b.last.value) * b.quantum.value := by ring
  · have hle := Sound.levelAt_le b x
    have hlate : (t - y) * b.quantum.value ≤ (t - s) * b.quantum.value :=
      mul_le_mul_of_nonneg_right (by linarith) h.rate.le
    linarith

/-- A call that sleeps gets no more than came in while it slept. -/
theorem Sound.slept_allowance (h : b.Sound) {v : Visit} (hlast : b.last.value ≤ v.arrival.value)
    (hfits : v.tokens.value ≤ b.capacity.value)
    (hslept : v.arrival.value + (v.tokens.value - b.levelAt v.arrival.value) / b.quantum.value ≤
      v.departure.value) (hs : s ≤ v.departure.value) :
    v.tokens.value + (t - v.departure.value) * b.quantum.value ≤ b.allowance s t := by
  have hmissing : v.tokens.value - b.levelAt v.arrival.value ≤
      (v.departure.value - v.arrival.value) * b.quantum.value :=
    (div_le_iff₀ h.rate).mp (by linarith)
  unfold allowance
  split
  · have hle := Sound.levelAt_le_add hlast
    calc v.tokens.value + (t - v.departure.value) * b.quantum.value
        ≤ b.available + (v.arrival.value - b.last.value) * b.quantum.value +
            (v.departure.value - v.arrival.value) * b.quantum.value +
            (t - v.departure.value) * b.quantum.value := by linarith
      _ = b.available + (t - b.last.value) * b.quantum.value := by ring
  · have hlate : (t - v.departure.value) * b.quantum.value ≤ (t - s) * b.quantum.value :=
      mul_le_mul_of_nonneg_right (by linarith) h.rate.le
    have hfull := h.full
    linarith

theorem allowance_of_lt (hs : b.last.value < s) :
    b.allowance s t = b.full + (t - s) * b.quantum.value :=
  if_neg (not_le.mpr hs)

theorem allowance_set_of_lt (available : Rat) {last : Amount Rat} (hs : last.value < s) :
    allowance { b with available, last } s t = b.full + (t - s) * b.quantum.value :=
  if_neg (not_le.mpr hs)

theorem allowance_set_of_le (available : Rat) {last : Amount Rat} (hs : s ≤ last.value) :
    allowance { b with available, last } s t =
      available + (t - last.value) * b.quantum.value :=
  if_pos hs

theorem paid_of_outcome {v : Visit} (h : (b.visit v).2 ≠ .granted) : b.paid s t v = 0 :=
  if_neg fun hp => h hp.1

theorem paid_of_lt {v : Visit} (h : v.departure.value < s) : b.paid s t v = 0 :=
  if_neg fun hp => absurd hp.2.2.1 (not_le.mpr h)

theorem paid_of_gt {v : Visit} (h : t < v.departure.value) : b.paid s t v = 0 :=
  if_neg fun hp => absurd hp.2.2.2 (not_le.mpr h)

theorem paid_le {v : Visit} (h : 0 ≤ v.tokens.value) : b.paid s t v ≤ v.tokens.value := by
  unfold paid
  split
  · exact le_refl _
  · exact h

theorem visit_allowance_of_lt {v : Visit} (hlast : b.last.value ≤ v.arrival.value)
    (hleave : v.arrival.value ≤ v.departure.value) (hs : v.departure.value < s) :
    (b.visit v).1.allowance s t = b.allowance s t := by
  have hdone : (b.visit v).1.last.value ≤ v.departure.value :=
    visit_last_le (le_refl _) hlast hleave
  obtain ⟨hfull, hquantum⟩ := visit_full b v
  rw [allowance_of_lt (hdone.trans_lt hs), allowance_of_lt (hlast.trans_lt (hleave.trans_lt hs)),
    hfull, hquantum]

/-- What a call gets is taken off what can still be got. -/
theorem Sound.paid_add_allowance_le (h : b.Sound) {v : Visit}
    (hlast : b.last.value ≤ v.arrival.value) (hleave : v.arrival.value ≤ v.departure.value)
    (hslept : ∀ x, b.reply v = .ok (.sleep x) → v.givenUp = false →
      v.arrival.value + x ≤ v.departure.value) :
    b.paid s t v + (b.visit v).1.allowance s t ≤ b.allowance s t := by
  -- A call that is over before the stretch begins gets nothing in it and leaves what it will bring.
  rcases lt_or_ge v.departure.value s with hs | hs
  · rw [paid_of_lt hs, zero_add, visit_allowance_of_lt hlast hleave hs]
  obtain ⟨-, he⟩ | ⟨-, hnothing, he⟩ | ⟨-, hpos, -, he⟩ | ⟨hfits, hmissing, hreply, hend⟩ :=
    visit_cases b v
  · rw [paid_of_outcome (by rw [he]; simp), he, zero_add]
  · have hpaid : b.paid s t v = 0 := if_neg fun hp => absurd hp.2.1 (not_lt.mpr hnothing)
    rw [hpaid, he, zero_add]
  · have hpaid := paid_le (b := b) (s := s) (t := t) hpos.le
    have hlevel := h.levelAt_allowance (t := t) hlast hleave hs
    rw [he, allowance_set_of_le _ hs]
    linarith
  obtain ⟨-, he⟩ | ⟨hstays, he⟩ := hend
  · rw [paid_of_outcome (by rw [he]; simp), he, zero_add]
    -- The stretch may begin while the call sleeps.
    rcases lt_or_ge v.arrival.value s with hasleep | hawake
    · rw [allowance_set_of_lt _ hasleep, allowance_of_lt (hlast.trans_lt hasleep)]
    · rw [allowance_set_of_le _ hawake]
      exact h.levelAt_allowance hlast (le_refl _) hawake
  · have hpaid := paid_le (b := b) (s := s) (t := t) ((h.levelAt_nonneg _).trans hmissing.le)
    have hgot := h.slept_allowance (t := t) hlast hfits (hslept _ hreply hstays) hs
    rw [he, allowance_set_of_le _ hs]
    linarith

theorem granted_eq_zero {since : Rat} (visits : List Visit) (htimely : b.Timely since visits)
    (ht : t < since) : b.granted s t visits = 0 := by
  induction visits generalizing b since with
  | nil => rfl
  | cons v vs ih =>
    obtain ⟨harrive, hleave, -, hrest⟩ := htimely
    have hlate : t < v.departure.value := ht.trans_le (harrive.trans hleave)
    rw [granted, paid_of_gt hlate, ih hrest hlate, add_zero]

/-- Calls in a row get no more than there is for them. -/
theorem Sound.granted_le_allowance (h : b.Sound) {since : Rat} (visits : List Visit)
    (htimely : b.Timely since visits) (hlast : b.last.value ≤ since) (hst : s ≤ t)
    (ht : b.last.value ≤ t) : b.granted s t visits ≤ b.allowance s t := by
  induction visits generalizing b since with
  | nil => exact h.allowance_nonneg hst ht
  | cons v vs ih =>
    obtain ⟨harrive, hleave, hslept, hrest⟩ := htimely
    have hdone := visit_last_le hlast harrive hleave
    rcases le_or_gt (b.visit v).1.last.value t with hlater | hlater
    · calc b.granted s t (v :: vs)
          ≤ b.paid s t v + (b.visit v).1.allowance s t :=
            (add_le_add_iff_left _).mpr (ih (visit_sound h v) hrest hdone hlater)
        _ ≤ b.allowance s t := h.paid_add_allowance_le (hlast.trans harrive) hleave hslept
    · -- the call outlives the stretch, and so do all that follow
      have hover : t < v.departure.value := hlater.trans_le hdone
      rw [granted, paid_of_gt hover, granted_eq_zero vs hrest hover, add_zero]
      exact h.allowance_nonneg hst ht

end Allowance

/-- Whatever calls a caller makes one after another, the positive tokens of those that return in a
stretch of time are at most the capacity and what comes in meanwhile. A call given up in its sleep
gets nothing, and the calls after it come to what they would without it. -/
theorem paced (capacity quantum : Amount Rat) (hcapacity : 0 ≤ capacity.value)
    (hquantum : 0 < quantum.value) (now : Amount Rat) :
    ∃ b, create capacity quantum now = .ok b ∧
      ∀ visits, b.Timely now.value visits →
        (∀ s t, s ≤ t → b.granted s t visits ≤ capacity.value + quantum.value * (t - s)) ∧
        ∀ done v rest x, visits = done ++ v :: rest →
          (b.after done).reply v = .ok (.sleep x) → v.givenUp = true →
            ((b.after done).visit v).2 = .givenUp ∧
            (b.after (done ++ [v])).replies rest = (b.after done).replies rest := by
  refine ⟨_, create_eq hcapacity hquantum now, fun visits htimely => ⟨fun s t hst => ?_, ?_⟩⟩
  · have hsound := full_sound hcapacity hquantum now
    rcases lt_or_ge t now.value with hbefore | hbegun
    · rw [granted_eq_zero visits htimely hbefore]
      exact add_nonneg hcapacity (mul_nonneg hquantum.le (sub_nonneg.mpr hst))
    · have hgot := hsound.granted_le_allowance visits htimely (le_refl _) hst hbegun
      have hall := hsound.allowance_le (s := s) (t := t)
      linarith
  · intro done v rest x hvisits hsleeps hup
    have hsound := after_sound (full_sound hcapacity hquantum now) done
    obtain ⟨clock, hlast, harrive, hleave, -, hrest⟩ :=
      timely_append done (v :: rest) (hvisits ▸ htimely) (le_refl _)
    obtain ⟨hend, halike⟩ := hsound.visit_givenUp (hlast.trans harrive) hleave hsleeps hup
    have hafter : ∀ b : Bucket Rat, b.after (done ++ [v]) = ((b.after done).visit v).1 := by
      intro b
      rw [after, List.foldl_append]
      rfl
    rw [hafter]
    exact ⟨hend, halike.replies_eq rest hrest⟩

/-- Three calls for two tokens: the first is served at once, the second is given up in its sleep,
and the third sleeps a second more than asked. -/
def hurried : List Visit :=
  [⟨.whole 2, .whole 0, .whole 0, false⟩, ⟨.whole 2, .whole 1, .real (3 / 2), true⟩,
    ⟨.whole 2, .real (3 / 2), .whole 3, false⟩]

theorem paced_hurried :
    ∃ b, create (.whole 2) (.whole 1) (.whole 0) = .ok b ∧ b.Timely 0 hurried ∧
      b.granted 0 3 hurried = 4 ∧ b.granted 0 3 hurried ≤ 2 + 1 * (3 - 0) ∧
      ((b.after (hurried.take 1)).visit ⟨.whole 2, .whole 1, .real (3 / 2), true⟩).2 = .givenUp ∧
      (b.after (hurried.take 2)).replies (hurried.drop 2) =
        (b.after (hurried.take 1)).replies (hurried.drop 2) := by
  obtain ⟨b, hb, hpaced⟩ :=
    paced (.whole 2) (.whole 1) (by decide) (by decide) (.whole 0)
  have hmade : b = ⟨.whole 2, .whole 1, 2, 2, .whole 0⟩ := by
    cases hb
    rfl
  subst hmade
  have htimely : Timely ⟨.whole 2, .whole 1, 2, 2, .whole 0⟩ 0 hurried := by
    refine ⟨by decide, by decide, fun x hx _ => ?_, by decide +kernel, by decide +kernel,
      fun x _ hstays => absurd hstays (by decide), by decide +kernel, by decide +kernel,
      fun x hx _ => ?_, trivial⟩
    · have hfirst : reply ⟨.whole 2, .whole 1, 2, 2, .whole 0⟩
          ⟨.whole 2, .whole 0, .whole 0, false⟩ = .ok .granted := by decide +kernel
      cases hfirst.symm.trans hx
    · have hthird : reply (after ⟨.whole 2, .whole 1, 2, 2, .whole 0⟩ (hurried.take 2))
          ⟨.whole 2, .real (3 / 2), .whole 3, false⟩ = .ok (.sleep (1 / 2)) := by decide +kernel
      cases hthird.symm.trans hx
      decide +kernel
  obtain ⟨hbound, hup⟩ := hpaced hurried htimely
  obtain ⟨hnothing, hfree⟩ := hup (hurried.take 1) ⟨.whole 2, .whole 1, .real (3 / 2), true⟩
    (hurried.drop 2) 1 rfl (by decide +kernel) rfl
  exact ⟨_, hb, htimely, by decide +kernel, hbound 0 3 (by decide), hnothing, hfree⟩

end FleetProbe.Bucket
