import FleetProbe.Proofs.Bucket.Level
/-!
Calls on a bucket. One caller calls again and again, each call begins when the one before is over,
any of them may be given up in its sleep, and a sleep may last longer than asked.
-/

namespace FleetProbe.Bucket

/-- A call as the clock shows it. -/
structure Visit where
  tokens : Amount Rat
  /-- When the call begins. -/
  arrival : Amount Rat
  /-- When it returns, or is given up. -/
  departure : Amount Rat
  /-- If the call sleeps, it is given up in its sleep. -/
  givenUp : Bool
  deriving DecidableEq, Repr

/-- How a call ends. -/
inductive Outcome where
  | refused
  | granted
  | givenUp
  deriving DecidableEq, Repr

/-- A call up to its sleep. -/
def reply (b : Bucket Rat) (v : Visit) : Except (Fault Rat) (Grant Rat) :=
  (b.request v.arrival v.departure v.tokens).2

/-- A whole call. -/
def visit (b : Bucket Rat) (v : Visit) : Bucket Rat × Outcome :=
  match b.request v.arrival v.departure v.tokens with
  | (b, .error _) => (b, .refused)
  | (b, .ok .granted) => (b, .granted)
  | (b, .ok (.sleep _)) =>
    if v.givenUp then (b, .givenUp) else (b.wake v.departure, .granted)

/-- The bucket after some calls. -/
def after (b : Bucket Rat) (visits : List Visit) : Bucket Rat :=
  visits.foldl (fun b v => (b.visit v).1) b

/-- What calls in a row come to, before their sleeps and in the end. -/
def replies (b : Bucket Rat) : List Visit → List (Except (Fault Rat) (Grant Rat) × Outcome)
  | [] => []
  | v :: vs => (b.reply v, (b.visit v).2) :: (b.visit v).1.replies vs

/-- The calls come one after another on a clock that never goes back, and who sleeps to the end
sleeps as long as asked. -/
def Timely (b : Bucket Rat) (since : Rat) : List Visit → Prop
  | [] => True
  | v :: vs =>
    since ≤ v.arrival.value ∧ v.arrival.value ≤ v.departure.value ∧
    (∀ x, b.reply v = .ok (.sleep x) → v.givenUp = false →
      v.arrival.value + x ≤ v.departure.value) ∧
    (b.visit v).1.Timely v.departure.value vs

/-- A whole call of a caller who is never disturbed is a visit. -/
theorem visit_call (b : Bucket Rat) (now tokens oversleep : Amount Rat) :
    let c := b.call now tokens oversleep
    b.visit ⟨tokens, now, c.clock, false⟩ =
      (c.bucket, if c.outcome.isOk then .granted else .refused) := by
  intro c
  obtain ⟨later, hlater, -⟩ :=
    Amount.add?_value now (.real ((tokens.value - b.levelAt now.value) / b.quantum.value))
  obtain ⟨clock, hclock, -⟩ := Amount.add?_value later oversleep
  have hc : c = b.call now tokens oversleep := rfl
  rw [call, request_eq] at hc
  rw [visit, request_eq]
  split_ifs at hc with h1 h2 h3
  · rw [hc, if_pos h1]
    rfl
  · rw [hc, if_neg h1, if_pos h2]
    rfl
  · rw [hc, if_neg h1, if_neg h2, if_pos h3]
    rfl
  · simp only [hlater, hclock, Option.bind_some] at hc
    rw [hc, if_neg h1, if_neg h2, if_neg h3]
    rfl

section Visit

variable {b : Bucket Rat} {v : Visit}

/-- The five ways of a call: refused, for nothing, served at once, given up in its sleep, and
served after it. -/
theorem visit_cases (b : Bucket Rat) (v : Visit) :
    (b.capacity.value < v.tokens.value ∧ b.visit v = (b, .refused)) ∨
    (v.tokens.value ≤ b.capacity.value ∧ v.tokens.value ≤ 0 ∧ b.visit v = (b, .granted)) ∨
    (v.tokens.value ≤ b.capacity.value ∧ 0 < v.tokens.value ∧
      v.tokens.value ≤ b.levelAt v.arrival.value ∧
      b.visit v = ({ b with
        available := b.levelAt v.arrival.value - v.tokens.value, last := v.departure },
        .granted)) ∨
    (v.tokens.value ≤ b.capacity.value ∧ b.levelAt v.arrival.value < v.tokens.value ∧
      b.reply v = .ok (.sleep ((v.tokens.value - b.levelAt v.arrival.value) / b.quantum.value)) ∧
      ((v.givenUp = true ∧ b.visit v = ({ b with
          available := b.levelAt v.arrival.value, last := v.arrival }, .givenUp)) ∨
        (v.givenUp = false ∧ b.visit v = ({ b with available := 0, last := v.departure },
          .granted)))) := by
  rw [visit, reply, request_eq]
  by_cases hfits : b.capacity.value < v.tokens.value
  · rw [if_pos hfits]
    exact .inl ⟨hfits, rfl⟩
  rw [if_neg hfits]
  by_cases hnothing : v.tokens.value ≤ 0
  · rw [if_pos hnothing]
    exact .inr (.inl ⟨not_lt.mp hfits, hnothing, rfl⟩)
  rw [if_neg hnothing]
  by_cases hthere : v.tokens.value ≤ b.levelAt v.arrival.value
  · rw [if_pos hthere]
    exact .inr (.inr (.inl ⟨not_lt.mp hfits, not_le.mp hnothing, hthere, rfl⟩))
  rw [if_neg hthere]
  refine .inr (.inr (.inr ⟨not_lt.mp hfits, not_le.mp hthere, rfl, ?_⟩))
  cases v.givenUp with
  | true => exact .inl ⟨rfl, rfl⟩
  | false => exact .inr ⟨rfl, rfl⟩

theorem visit_sound (h : b.Sound) (v : Visit) : (b.visit v).1.Sound := by
  obtain ⟨-, he⟩ | ⟨-, -, he⟩ | ⟨-, hpos, hle, he⟩ | ⟨-, -, -, ⟨-, he⟩ | ⟨-, he⟩⟩ := visit_cases b v
  · rw [he]
    exact h
  · rw [he]
    exact h
  · rw [he]
    exact h.take hpos.le hle
  · rw [he]
    exact h.refill v.arrival
  · rw [he]
    exact h.empty v.departure

theorem visit_full (b : Bucket Rat) (v : Visit) :
    (b.visit v).1.full = b.full ∧ (b.visit v).1.quantum = b.quantum := by
  obtain ⟨-, he⟩ | ⟨-, -, he⟩ | ⟨-, -, -, he⟩ | ⟨-, -, -, ⟨-, he⟩ | ⟨-, he⟩⟩ := visit_cases b v
  all_goals rw [he]; exact ⟨rfl, rfl⟩

theorem visit_last_le {since : Rat} (hlast : b.last.value ≤ since)
    (harrive : since ≤ v.arrival.value) (hleave : v.arrival.value ≤ v.departure.value) :
    (b.visit v).1.last.value ≤ v.departure.value := by
  obtain ⟨-, he⟩ | ⟨-, -, he⟩ | ⟨-, -, -, he⟩ | ⟨-, -, -, ⟨-, he⟩ | ⟨-, he⟩⟩ := visit_cases b v
  · rw [he]
    exact hlast.trans (harrive.trans hleave)
  · rw [he]
    exact hlast.trans (harrive.trans hleave)
  · rw [he]
  · rw [he]
    exact hleave
  · rw [he]

end Visit

/-- Two buckets that no call begun from an instant on can tell apart. -/
structure Alike (b c : Bucket Rat) (since : Rat) : Prop where
  capacity : b.capacity = c.capacity
  quantum : b.quantum = c.quantum
  full : b.full = c.full
  level : ∀ x, since ≤ x → b.levelAt x = c.levelAt x

namespace Alike

variable {b c : Bucket Rat} {since : Rat}

theorem refl (b : Bucket Rat) (since : Rat) : Alike b b since :=
  ⟨rfl, rfl, rfl, fun _ _ => rfl⟩

theorem later (h : Alike b c since) {x : Rat} (hx : since ≤ x) : Alike b c x :=
  ⟨h.capacity, h.quantum, h.full, fun y hy => h.level y (hx.trans hy)⟩

theorem reply_eq (h : Alike b c since) {v : Visit} (hv : since ≤ v.arrival.value) :
    b.reply v = c.reply v := by
  simp only [reply, request_eq, h.capacity, h.quantum, h.level _ hv]
  split_ifs <;> rfl

theorem visit (h : Alike b c since) {v : Visit} (harrive : since ≤ v.arrival.value)
    (hleave : v.arrival.value ≤ v.departure.value) :
    (b.visit v).2 = (c.visit v).2 ∧ Alike (b.visit v).1 (c.visit v).1 v.departure.value := by
  have hlater := h.later (harrive.trans hleave)
  simp only [Bucket.visit, request_eq, h.capacity, h.quantum, h.full, h.level _ harrive]
  by_cases hfits : c.capacity.value < v.tokens.value
  · simp only [if_pos hfits]
    exact ⟨trivial, hlater⟩
  by_cases hnothing : v.tokens.value ≤ 0
  · simp only [if_neg hfits, if_pos hnothing]
    exact ⟨trivial, hlater⟩
  by_cases hthere : v.tokens.value ≤ c.levelAt v.arrival.value
  · simp only [if_neg hfits, if_neg hnothing, if_pos hthere]
    exact ⟨trivial, .refl _ _⟩
  · simp only [if_neg hfits, if_neg hnothing, if_neg hthere, wake_eq]
    exact ⟨trivial, .refl _ _⟩

theorem replies_eq (h : Alike b c since) (visits : List Visit) (htimely : b.Timely since visits) :
    b.replies visits = c.replies visits := by
  induction visits generalizing b c since with
  | nil => rfl
  | cons v vs ih =>
    obtain ⟨harrive, hleave, -, hrest⟩ := htimely
    obtain ⟨hend, halike⟩ := h.visit harrive hleave
    rw [replies, replies, h.reply_eq harrive, hend, ih halike hrest]

end Alike

section Run

variable {b : Bucket Rat}

/-- A call that sleeps and is given up leaves a bucket no later call can tell from the one it
found. -/
theorem Sound.visit_givenUp (h : b.Sound) {v : Visit} {x : Rat}
    (hlast : b.last.value ≤ v.arrival.value) (hleave : v.arrival.value ≤ v.departure.value)
    (hsleeps : b.reply v = .ok (.sleep x)) (hup : v.givenUp = true) :
    (b.visit v).2 = .givenUp ∧ Alike (b.visit v).1 b v.departure.value := by
  rw [reply, request_eq] at hsleeps
  split_ifs at hsleeps with hfits hnothing hthere
  · cases hsleeps
  · cases hsleeps
  rw [visit, request_eq, if_neg hfits, if_neg hnothing, if_neg hthere, hup]
  exact ⟨rfl, rfl, rfl, rfl, fun y hy => h.levelAt_refill hlast (hleave.trans hy)⟩

theorem after_sound (h : b.Sound) (visits : List Visit) : (b.after visits).Sound := by
  induction visits generalizing b with
  | nil => exact h
  | cons v vs ih => exact ih (visit_sound h v)

/-- Halfway through calls in a row the clock stands at some instant, and the rest of them comes
after it. -/
theorem timely_append {since : Rat} (done rest : List Visit)
    (htimely : b.Timely since (done ++ rest)) (hlast : b.last.value ≤ since) :
    ∃ now, (b.after done).last.value ≤ now ∧ (b.after done).Timely now rest := by
  induction done generalizing b since with
  | nil => exact ⟨since, hlast, htimely⟩
  | cons v vs ih =>
    obtain ⟨harrive, hleave, -, hrest⟩ := htimely
    exact ih hrest (visit_last_le hlast harrive hleave)

end Run

end FleetProbe.Bucket
