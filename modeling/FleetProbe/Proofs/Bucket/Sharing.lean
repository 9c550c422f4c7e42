import FleetProbe.Proofs.Bucket.Level
/-!
A bucket with many callers. Their calls interleave at their sleeps, sleeps last as long as they
like, some of them are given up, and the clock may go anywhere between two readings. The level stays
between nothing and the capacity all the same, and nobody is asked to sleep for longer than it takes
to fill the bucket.
-/

namespace FleetProbe.Bucket

/-- A caller in its sleep. -/
structure Sleeper where
  tokens : Amount Rat
  /-- The sleep that was asked for. -/
  seconds : Rat
  deriving DecidableEq, Repr

structure Shared where
  bucket : Bucket Rat
  asleep : List Sleeper := []
  deriving DecidableEq, Repr

/-- What happens in one go, with the readings of the clock. Sleepers are told apart by their
place. -/
inductive Move where
  /-- A call up to its sleep. -/
  | call (tokens now later : Amount Rat)
  | wake (place : Nat) (now : Amount Rat)
  | giveUp (place : Nat)
  deriving DecidableEq, Repr

namespace Shared

def step (s : Shared) : Move → Shared
  | .call tokens now later =>
    match s.bucket.request now later tokens with
    | (b, .ok (.sleep x)) => ⟨b, s.asleep ++ [⟨tokens, x⟩]⟩
    | (b, _) => { s with bucket := b }
  | .wake place now =>
    if place < s.asleep.length then ⟨s.bucket.wake now, s.asleep.eraseIdx place⟩ else s
  | .giveUp place => { s with asleep := s.asleep.eraseIdx place }

def run (s : Shared) (moves : List Move) : Shared := moves.foldl step s

end Shared

section Request

variable {b : Bucket Rat}

theorem request_keeps (b : Bucket Rat) (now later tokens : Amount Rat) :
    (b.request now later tokens).1.capacity = b.capacity ∧
      (b.request now later tokens).1.quantum = b.quantum := by
  rw [request_eq]
  split_ifs
  · exact ⟨rfl, rfl⟩
  · exact ⟨rfl, rfl⟩
  · exact ⟨rfl, rfl⟩
  · exact ⟨rfl, rfl⟩

theorem Sound.request (h : b.Sound) (now later tokens : Amount Rat) :
    (b.request now later tokens).1.Sound := by
  rw [request_eq]
  split_ifs with hover hnone hthere
  · exact h
  · exact h
  · exact h.take (not_le.mp hnone).le hthere
  · exact h.refill now

theorem Sound.request_sleep (h : b.Sound) {now later tokens : Amount Rat} {x : Rat}
    (hx : (b.request now later tokens).2 = .ok (.sleep x)) :
    0 < x ∧ x ≤ b.capacity.value / b.quantum.value := by
  rw [request_eq] at hx
  split_ifs at hx with hover hnone hthere
  · cases hx
  · cases hx
  · cases hx
    exact h.missing_bounds (not_le.mp hthere) (not_lt.mp hover)

end Request

/-- The level is within its bounds, and so is every sleep that was asked for. -/
structure Shared.Bounded (capacity quantum : Amount Rat) (s : Shared) : Prop where
  sound : s.bucket.Sound
  size : s.bucket.capacity = capacity
  rate : s.bucket.quantum = quantum
  sleeps : ∀ z ∈ s.asleep, 0 < z.seconds ∧ z.seconds ≤ capacity.value / quantum.value

namespace Shared.Bounded

variable {capacity quantum : Amount Rat} {s : Shared}

theorem step (h : s.Bounded capacity quantum) (m : Move) : (s.step m).Bounded capacity quantum := by
  cases m with
  | call tokens now later =>
    have hsound := h.sound.request now later tokens
    obtain ⟨hcapacity, hquantum⟩ := request_keeps s.bucket now later tokens
    rw [h.size] at hcapacity
    rw [h.rate] at hquantum
    unfold Shared.step
    dsimp only
    split
    · next b x hr =>
      rw [hr] at hsound hcapacity hquantum
      have hx := h.sound.request_sleep (congrArg Prod.snd hr)
      rw [h.size, h.rate] at hx
      refine ⟨hsound, hcapacity, hquantum, fun z hz => ?_⟩
      rcases List.mem_append.mp hz with hz | hz
      · exact h.sleeps z hz
      · rw [List.mem_singleton.mp hz]
        exact hx
    · next b _ _ hr =>
      rw [hr] at hsound hcapacity hquantum
      exact ⟨hsound, hcapacity, hquantum, h.sleeps⟩
  | wake place now =>
    unfold Shared.step
    dsimp only
    split
    · exact ⟨h.sound.empty now, h.size, h.rate,
        fun z hz => h.sleeps z (List.mem_of_mem_eraseIdx hz)⟩
    · exact h
  | giveUp place =>
    exact ⟨h.sound, h.size, h.rate, fun z hz => h.sleeps z (List.mem_of_mem_eraseIdx hz)⟩

theorem run (h : s.Bounded capacity quantum) (moves : List Move) :
    (s.run moves).Bounded capacity quantum := by
  induction moves generalizing s with
  | nil => exact h
  | cons m moves ih => exact ih (h.step m)

end Shared.Bounded

/-- **The level never leaves its bounds.** Whatever calls any number of callers make on one bucket,
however their steps interleave and whatever the clock shows, the level is at least nothing and at
most the capacity after every step, and every sleep that is asked for is longer than nothing and no
longer than it takes to fill the bucket. -/
theorem level_within_bounds (capacity quantum : Amount Rat) (hcapacity : 0 ≤ capacity.value)
    (hquantum : 0 < quantum.value) (now : Amount Rat) :
    ∃ b, create capacity quantum now = .ok b ∧ ∀ moves : List Move,
      0 ≤ (Shared.run ⟨b, []⟩ moves).bucket.available ∧
      (Shared.run ⟨b, []⟩ moves).bucket.available ≤ capacity.value ∧
      ∀ z ∈ (Shared.run ⟨b, []⟩ moves).asleep,
        0 < z.seconds ∧ z.seconds ≤ capacity.value / quantum.value := by
  refine ⟨_, create_eq hcapacity hquantum now, fun moves => ?_⟩
  have hfresh : Shared.Bounded capacity quantum
      ⟨⟨capacity, quantum, capacity.value, capacity.value, now⟩, []⟩ :=
    ⟨full_sound hcapacity hquantum now, rfl, rfl, by simp⟩
  have hrun := hfresh.run moves
  have hfull : _ = capacity.value := hrun.sound.full.trans (congrArg Amount.value hrun.size)
  exact ⟨hrun.sound.nonneg, hrun.sound.le_full.trans_eq hfull, hrun.sleeps⟩

/-- Two callers fall asleep at an empty bucket, the clock goes back, and one of them wakes after
another call has been served. -/
def jostling : List Move :=
  [.call (.whole 3) (.whole 0) (.whole 0), .call (.whole 2) (.whole 0) (.whole 0),
    .call (.whole 3) (.real (-5)) (.real (-5)), .call (.whole 1) (.whole 1) (.whole 9),
    .wake 1 (.whole 2), .call (.whole 1) (.real (5 / 2)) (.whole 0)]

theorem jostling_within_bounds :
    ∃ b, create (.whole 3) (.whole 1) (.whole 0) = .ok b ∧
      (Shared.run ⟨b, []⟩ jostling).asleep = [⟨.whole 2, 2⟩, ⟨.whole 1, 1 / 2⟩] ∧
      0 ≤ (Shared.run ⟨b, []⟩ jostling).bucket.available ∧
      (Shared.run ⟨b, []⟩ jostling).bucket.available ≤ 3 ∧
      ∀ z ∈ (Shared.run ⟨b, []⟩ jostling).asleep, 0 < z.seconds ∧ z.seconds ≤ 3 / 1 := by
  obtain ⟨b, hb, hall⟩ :=
    level_within_bounds (.whole 3) (.whole 1) (by decide) (by decide) (.whole 0)
  have hmade : b = ⟨.whole 3, .whole 1, 3, 3, .whole 0⟩ := by
    cases hb
    rfl
  subst hmade
  exact ⟨_, hb, by decide +kernel, hall jostling⟩

end FleetProbe.Bucket
