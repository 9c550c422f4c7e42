import Mathlib.Tactic.Ring
import FleetProbe.Proofs.Bucket.Sharing
/-!
How much a shared bucket lets through in virtual time, where a sleep ends exactly when it should. A
caller that wakes has what it asked for and leaves the bucket empty, also where others helped
themselves meanwhile: what they took is handed out a second time. The books of the bucket show what
this comes to. Granted are the capacity, what came in and what was handed out twice, less what is
still there and what ran over the rim.
-/

namespace FleetProbe.Bucket

/-- What comes in until an instant and does not fit. -/
def overflow (b : Bucket Rat) (x : Rat) : Rat :=
  b.available + max 0 (x - b.last.value) * b.quantum.value - b.levelAt x

/-- Brought up to date at an instant, with some of the tokens taken. -/
def drawn (b : Bucket Rat) (now : Amount Rat) (taken : Rat) : Bucket Rat :=
  { b with available := b.levelAt now.value - taken, last := now }

section Overflow

variable {b : Bucket Rat} {x : Rat}

theorem overflow_nonneg (b : Bucket Rat) (x : Rat) : 0 ≤ b.overflow x :=
  sub_nonneg.mpr (min_le_right _ _)

theorem levelAt_add_overflow (hx : b.last.value ≤ x) :
    b.levelAt x + b.overflow x = b.available + (x - b.last.value) * b.quantum.value := by
  rw [overflow, max_eq_right (sub_nonneg.mpr hx)]
  ring

theorem overflow_last (h : b.available ≤ b.full) (hx : b.last.value = x) : b.overflow x = 0 := by
  simp only [overflow, levelAt, hx, sub_self, max_self, zero_mul, add_zero, min_eq_right h]

end Overflow

/-- A caller in its sleep, and what is on the books about it. -/
structure Waiter extends Sleeper where
  /-- The end of the sleep. -/
  due : Rat
  /-- What others took out of the bucket since it began. -/
  lost : Rat
  deriving DecidableEq, Repr

def Waiter.deprived (z : Waiter) (taken : Rat) : Waiter := { z with lost := z.lost + taken }

/-- What a caller does. Those asleep are told apart by their place. -/
inductive Turn where
  /-- A call up to its sleep. -/
  | call (tokens : Amount Rat)
  | wake (place : Nat)
  | giveUp (place : Nat)
  deriving DecidableEq, Repr

def Turn.asked : Turn → Rat
  | .call tokens => tokens.value
  | .wake _ | .giveUp _ => 0

structure Event where
  instant : Amount Rat
  turn : Turn
  deriving DecidableEq, Repr

/-- No time passes while a caller has its turn. -/
def Event.move (e : Event) : Move :=
  match e.turn with
  | .call tokens => .call tokens e.instant e.instant
  | .wake place => .wake place e.instant
  | .giveUp place => .giveUp place

/-- A shared bucket with its books. -/
structure Crowd where
  bucket : Bucket Rat
  asleep : List Waiter := []
  /-- Tokens of all the calls that have returned. -/
  granted : Rat := 0
  /-- What has run over the rim by the last refill. -/
  spilled : Rat := 0
  /-- What others had taken of the tokens a caller slept for. -/
  twice : Rat := 0
  deriving DecidableEq, Repr

namespace Crowd

/-- The bucket changes at an instant, and what has run over the rim before is written down. -/
def settle (c : Crowd) (b : Bucket Rat) (x : Rat) : Crowd :=
  { c with bucket := b, spilled := c.spilled + (c.bucket.overflow x - b.overflow x) }

/-- Tokens are taken that all those asleep will miss. -/
def deprive (c : Crowd) (taken : Rat) : Crowd :=
  { c with asleep := c.asleep.map (·.deprived taken) }

def leave (c : Crowd) (place : Nat) : Crowd := { c with asleep := c.asleep.eraseIdx place }

def step (c : Crowd) (e : Event) : Crowd :=
  match e.turn with
  | .call tokens =>
    match c.bucket.request e.instant e.instant tokens with
    | (b, .ok .granted) =>
      { (c.settle b e.instant.value).deprive (max 0 tokens.value) with
        granted := c.granted + max 0 tokens.value }
    | (b, .ok (.sleep x)) =>
      { c.settle b e.instant.value with
        asleep := c.asleep ++ [⟨⟨tokens, x⟩, e.instant.value + x, 0⟩] }
    | (b, .error _) => c.settle b e.instant.value
  | .wake place =>
    match c.asleep[place]? with
    | none => c
    | some z =>
      { ((c.leave place).settle (c.bucket.wake e.instant) e.instant.value).deprive
          (c.bucket.levelAt e.instant.value) with
        granted := c.granted + z.tokens.value
        twice := c.twice + z.lost }
  | .giveUp place => c.leave place

def run (c : Crowd) (events : List Event) : Crowd := events.foldl step c

/-- Nobody has called so far. -/
def opening (b : Bucket Rat) : Crowd := { bucket := b }

/-- What has run over the rim by an instant, if nobody takes anything before. -/
def spilledBy (c : Crowd) (x : Rat) : Rat := c.spilled + c.bucket.overflow x

/-- The bucket and its callers without the books. -/
def shared (c : Crowd) : Shared := ⟨c.bucket, c.asleep.map (·.toSleeper)⟩

/-- Keeping books changes nothing for the callers. -/
theorem shared_step (c : Crowd) (e : Event) : (c.step e).shared = c.shared.step e.move := by
  obtain ⟨now, turn⟩ := e
  cases turn with
  | call tokens =>
    simp only [step, Event.move, Shared.step, shared]
    split
    · next hr => simp [hr, settle, deprive, Waiter.deprived]
    · next hr => simp [hr, settle]
    · next hr => simp [hr, settle]
  | wake place =>
    simp only [step, Event.move, Shared.step, shared, List.length_map]
    split
    · next hz =>
      rw [if_neg (not_lt.mpr (List.getElem?_eq_none_iff.mp hz))]
    · next hz =>
      rw [if_pos (List.getElem?_eq_some_iff.mp hz).1]
      simp [leave, settle, deprive, Waiter.deprived, List.eraseIdx_map]
  | giveUp place => simp [step, leave, Event.move, Shared.step, shared, List.eraseIdx_map]

theorem settle_self (c : Crowd) (x : Rat) : c.settle c.bucket x = c := by
  simp only [settle, sub_self, add_zero]

theorem deprive_zero (c : Crowd) : c.deprive 0 = c := by
  simp only [deprive, Waiter.deprived, add_zero, List.map_id']

/-- Tokens are taken out of the bucket. -/
def draw (c : Crowd) (now : Amount Rat) (taken : Rat) : Crowd :=
  (c.settle (c.bucket.drawn now taken) now.value).deprive taken

/-- Falls asleep until the bucket holds enough, if nobody takes anything before. -/
def join (c : Crowd) (now tokens : Amount Rat) : Crowd :=
  let seconds := (tokens.value - c.bucket.available) / c.bucket.quantum.value
  { c with asleep := c.asleep ++ [⟨⟨tokens, seconds⟩, now.value + seconds, 0⟩] }

theorem step_call (c : Crowd) (now tokens : Amount Rat) :
    c.step ⟨now, .call tokens⟩ =
      if tokens.value ≤ 0 ∨ c.bucket.capacity.value < tokens.value then c
      else if tokens.value ≤ c.bucket.levelAt now.value then
        { c.draw now tokens.value with granted := c.granted + tokens.value }
      else (c.draw now 0).join now tokens := by
  simp only [step, request_eq]
  by_cases hover : c.bucket.capacity.value < tokens.value
  · simp only [if_pos hover, if_pos (Or.inr hover), settle_self]
  by_cases hnone : tokens.value ≤ 0
  · simp only [if_neg hover, if_pos hnone, if_pos (Or.inl hnone), settle_self,
      max_eq_left hnone, deprive_zero, add_zero]
  have hasks : max 0 tokens.value = tokens.value := max_eq_right (not_le.mp hnone).le
  rw [if_neg hover, if_neg hnone, if_neg (not_or.mpr ⟨hnone, hover⟩)]
  split_ifs
  · rw [hasks]
    rfl
  · simp only [draw, deprive_zero, join, settle, drawn, sub_zero]

theorem step_wake (c : Crowd) (now : Amount Rat) {place : Nat} {z : Waiter}
    (hz : c.asleep[place]? = some z) :
    c.step ⟨now, .wake place⟩ =
      { (c.leave place).draw now (c.bucket.levelAt now.value) with
        granted := c.granted + z.tokens.value
        twice := c.twice + z.lost } := by
  simp only [step, hz, leave, draw, drawn, wake_eq, sub_self]

theorem step_wake_nobody (c : Crowd) (now : Amount Rat) {place : Nat}
    (hz : c.asleep[place]? = none) : c.step ⟨now, .wake place⟩ = c := by
  simp only [step, hz]

theorem shared_run (c : Crowd) (events : List Event) :
    (c.run events).shared = c.shared.run (events.map Event.move) := by
  induction events generalizing c with
  | nil => rfl
  | cons e events ih =>
    have hrest : ((c.step e).run events).shared =
        (c.step e).shared.run (events.map Event.move) := ih _
    rw [shared_step] at hrest
    exact hrest

/-- Who wakes, if anybody. -/
def waking (c : Crowd) : Turn → Option Waiter
  | .wake place => c.asleep[place]?
  | .call _ | .giveUp _ => none

/-- Time goes forward from an instant, nobody sleeps on when it is due, and nobody wakes before. -/
def Punctual (c : Crowd) (since : Rat) : List Event → Prop
  | [] => True
  | e :: events =>
    since ≤ e.instant.value ∧ (∀ z ∈ c.asleep, e.instant.value ≤ z.due) ∧
      (∀ z ∈ c.waking e.turn, z.due ≤ e.instant.value) ∧
      (c.step e).Punctual e.instant.value events

instance decidablePunctual (c : Crowd) (since : Rat) :
    (events : List Event) → Decidable (c.Punctual since events)
  | [] => isTrue trivial
  | e :: events =>
    have := decidablePunctual (c.step e) e.instant.value events
    inferInstanceAs (Decidable (_ ∧ _ ∧ _ ∧ _))

/-- Whoever asks for tokens finds nobody asleep. -/
def Alone (c : Crowd) : List Event → Prop
  | [] => True
  | e :: events => (0 < e.turn.asked → c.asleep = []) ∧ (c.step e).Alone events

instance decidableAlone (c : Crowd) : (events : List Event) → Decidable (c.Alone events)
  | [] => isTrue trivial
  | e :: events =>
    have := decidableAlone (c.step e) events
    inferInstanceAs (Decidable (_ ∧ _))

/-- What there is at an instant: of what happens then nothing is left out. -/
def runTo (c : Crowd) (t : Rat) (events : List Event) : Crowd :=
  c.run (events.takeWhile fun e => decide (e.instant.value ≤ t))

theorem runTo_cons_of_le (c : Crowd) {t : Rat} {e : Event} (he : e.instant.value ≤ t)
    (events : List Event) : c.runTo t (e :: events) = (c.step e).runTo t events := by
  simp only [runTo, List.takeWhile_cons, decide_eq_true he, if_true, run, List.foldl_cons]

theorem runTo_cons_of_lt (c : Crowd) {t : Rat} {e : Event} (he : t < e.instant.value)
    (events : List Event) : c.runTo t (e :: events) = c := by
  simp only [runTo, List.takeWhile_cons, decide_eq_false (not_le.mpr he), Bool.false_eq_true,
    if_false, run, List.foldl_nil]

end Crowd

/-- At the end of the sleep the bucket holds what was asked for, less what others took. -/
structure Waiter.Owed (b : Bucket Rat) (z : Waiter) : Prop where
  fits : z.tokens.value ≤ b.full
  harmed : 0 ≤ z.lost
  reached : b.available + (z.due - b.last.value) * b.quantum.value = z.tokens.value - z.lost

namespace Waiter.Owed

variable {b : Bucket Rat} {z : Waiter}

/-- While somebody is asleep nothing runs over the rim. -/
theorem levelAt (h : z.Owed b) (hb : b.Sound) {x : Rat} (hx : b.last.value ≤ x) (hdue : x ≤ z.due) :
    b.levelAt x = z.tokens.value - z.lost - (z.due - x) * b.quantum.value := by
  have hsplit : b.available + (x - b.last.value) * b.quantum.value =
      z.tokens.value - z.lost - (z.due - x) * b.quantum.value := by
    rw [← h.reached]
    ring
  have hrest : 0 ≤ (z.due - x) * b.quantum.value := mul_nonneg (sub_nonneg.mpr hdue) hb.rate.le
  have hfits := h.fits
  have hharmed := h.harmed
  rw [Bucket.levelAt, max_eq_right (sub_nonneg.mpr hx), hsplit]
  exact min_eq_right (by linarith)

theorem levelAt_due (h : z.Owed b) (hb : b.Sound) (hx : b.last.value ≤ z.due) :
    b.levelAt z.due = z.tokens.value - z.lost := by
  rw [h.levelAt hb hx le_rfl]
  ring

/-- Whatever is taken meanwhile, by those who are served at once or wake, is what the books say. -/
theorem deprived (h : z.Owed b) (hb : b.Sound) {now : Amount Rat} {taken : Rat}
    (hnow : b.last.value ≤ now.value) (hdue : now.value ≤ z.due) (htaken : 0 ≤ taken) :
    (z.deprived taken).Owed (b.drawn now taken) where
  fits := h.fits
  harmed := add_nonneg h.harmed htaken
  reached := by
    change b.levelAt now.value - taken + (z.due - now.value) * b.quantum.value =
      z.tokens.value - (z.lost + taken)
    rw [h.levelAt hb hnow hdue]
    ring

end Waiter.Owed

/-- The books are right: the bucket was full at the start, and nothing came from elsewhere. -/
structure Crowd.Balanced (capacity quantum start now : Rat) (c : Crowd) : Prop where
  sound : c.bucket.Sound
  size : c.bucket.full = capacity
  rate : c.bucket.quantum.value = quantum
  begun : c.bucket.last.value ≤ now
  owed : ∀ z ∈ c.asleep, z.Owed c.bucket
  spilled : 0 ≤ c.spilled
  books : c.granted + c.bucket.available + c.spilled =
    capacity + quantum * (c.bucket.last.value - start) + c.twice

namespace Crowd.Balanced

variable {capacity quantum start now : Rat} {c : Crowd}

theorem opening {capacity quantum : Amount Rat} (hcapacity : 0 ≤ capacity.value)
    (hquantum : 0 < quantum.value) (now : Amount Rat) :
    (Crowd.opening ⟨capacity, quantum, capacity.value, capacity.value, now⟩).Balanced
      capacity.value quantum.value now.value now.value where
  sound := full_sound hcapacity hquantum now
  size := rfl
  rate := rfl
  begun := le_rfl
  owed := by simp [Crowd.opening]
  spilled := le_rfl
  books := by simp [Crowd.opening]

/-- What is granted by an instant, what there is then and what has run over the rim. -/
theorem accounts (h : c.Balanced capacity quantum start now) {t : Rat} (ht : now ≤ t) :
    c.granted + c.bucket.levelAt t + c.spilledBy t =
      capacity + quantum * (t - start) + c.twice := by
  have hbooks := h.books
  have hcome := levelAt_add_overflow (h.begun.trans ht)
  rw [h.rate] at hcome
  unfold spilledBy
  linarith

theorem spilledBy_nonneg (h : c.Balanced capacity quantum start now) (t : Rat) :
    0 ≤ c.spilledBy t :=
  add_nonneg h.spilled (overflow_nonneg c.bucket t)

theorem later (h : c.Balanced capacity quantum start now) {t : Rat} (ht : now ≤ t) :
    c.Balanced capacity quantum start t :=
  { h with begun := h.begun.trans ht }

theorem leave (h : c.Balanced capacity quantum start now) (place : Nat) :
    (c.leave place).Balanced capacity quantum start now :=
  { h with owed := fun z hz => h.owed z (List.mem_of_mem_eraseIdx hz) }

/-- What is taken is granted, and those asleep will miss it; none of them is overdue. -/
theorem draw (h : c.Balanced capacity quantum start now) {x : Amount Rat} (hx : now ≤ x.value)
    (hdue : ∀ z ∈ c.asleep, x.value ≤ z.due) {taken : Rat} (htaken : 0 ≤ taken)
    (hle : taken ≤ c.bucket.levelAt x.value) :
    ({ c.draw x taken with granted := c.granted + taken } : Crowd).Balanced capacity quantum start
      x.value := by
  have hrim : (c.bucket.drawn x taken).overflow x.value = 0 :=
    overflow_last ((sub_le_self _ htaken).trans (Sound.levelAt_le c.bucket _)) rfl
  have hspilled : (c.draw x taken).spilled = c.spilledBy x.value := by
    simp only [Crowd.draw, deprive, settle, hrim, sub_zero, spilledBy]
  refine ⟨h.sound.take htaken hle, h.size, h.rate, le_rfl, fun z hz => ?_, ?_, ?_⟩
  · obtain ⟨y, hy, rfl⟩ := List.mem_map.mp hz
    exact (h.owed y hy).deprived h.sound (h.begun.trans hx) (hdue y hy) htaken
  · exact (h.spilledBy_nonneg x.value).trans_eq hspilled.symm
  · have haccounts := h.accounts hx
    change c.granted + taken + (c.bucket.levelAt x.value - taken) + (c.draw x taken).spilled =
      capacity + quantum * (x.value - start) + c.twice
    rw [hspilled]
    linarith

/-- Who falls asleep is due when the tokens are there, if nobody takes any before. -/
theorem join (h : c.Balanced capacity quantum start now) {x tokens : Amount Rat}
    (hx : c.bucket.last = x) (hfits : tokens.value ≤ c.bucket.full) :
    (c.join x tokens).Balanced capacity quantum start now where
  sound := h.sound
  size := h.size
  rate := h.rate
  begun := h.begun
  owed := by
    intro z hz
    rcases List.mem_append.mp hz with hz | hz
    · exact h.owed z hz
    · rw [List.mem_singleton.mp hz]
      refine ⟨hfits, le_rfl, ?_⟩
      dsimp only [Crowd.join]
      rw [hx, add_sub_cancel_left, div_mul_cancel₀ _ h.sound.rate.ne']
      ring
  spilled := h.spilled
  books := h.books

theorem call (h : c.Balanced capacity quantum start now) {x : Amount Rat} (hx : now ≤ x.value)
    (hdue : ∀ z ∈ c.asleep, x.value ≤ z.due) (tokens : Amount Rat) :
    (c.step ⟨x, .call tokens⟩).Balanced capacity quantum start x.value := by
  rw [step_call]
  split_ifs with hrefused hthere
  · exact h.later hx
  · exact h.draw hx hdue (not_le.mp fun hnone => hrefused (.inl hnone)).le hthere
  · have hfits : tokens.value ≤ c.bucket.full :=
      (not_lt.mp fun hover => hrefused (.inr hover)).trans_eq h.sound.full.symm
    have hready := h.draw hx hdue le_rfl (h.sound.levelAt_nonneg x.value)
    rw [add_zero] at hready
    exact hready.join rfl hfits

/-- The bucket holds what was asked for but for what others took, and that is handed out again. -/
theorem wake (h : c.Balanced capacity quantum start now) {x : Amount Rat} (hx : now ≤ x.value)
    (hdue : ∀ z ∈ c.asleep, x.value ≤ z.due) {place : Nat}
    (hplace : ∀ z ∈ c.asleep[place]?, z.due ≤ x.value) :
    (c.step ⟨x, .wake place⟩).Balanced capacity quantum start x.value := by
  cases hz : c.asleep[place]? with
  | none =>
    rw [step_wake_nobody c x hz]
    exact h.later hx
  | some z =>
    have hmem : z ∈ c.asleep := List.mem_of_getElem? hz
    have hexact : z.due = x.value := le_antisymm (hplace z hz) (hdue z hmem)
    have hlevel : c.bucket.levelAt x.value = z.tokens.value - z.lost := by
      rw [← hexact]
      exact (h.owed z hmem).levelAt_due h.sound ((h.begun.trans hx).trans_eq hexact.symm)
    have hempty := (h.leave place).draw hx (fun y hy => hdue y (List.mem_of_mem_eraseIdx hy))
      (h.sound.levelAt_nonneg x.value) le_rfl
    have hbooks : c.granted + c.bucket.levelAt x.value + _ + _ = _ + c.twice := hempty.books
    rw [step_wake c x hz]
    refine { hempty with books := ?_ }
    dsimp only
    linarith

theorem step (h : c.Balanced capacity quantum start now) {e : Event} (hx : now ≤ e.instant.value)
    (hdue : ∀ z ∈ c.asleep, e.instant.value ≤ z.due)
    (hwake : ∀ z ∈ c.waking e.turn, z.due ≤ e.instant.value) :
    (c.step e).Balanced capacity quantum start e.instant.value := by
  obtain ⟨x, turn⟩ := e
  cases turn with
  | call tokens => exact h.call hx hdue tokens
  | wake place => exact h.wake hx hdue hwake
  | giveUp place => exact (h.leave place).later hx

theorem runTo (h : c.Balanced capacity quantum start now) {events : List Event}
    (hp : c.Punctual now events) {t : Rat} (ht : now ≤ t) :
    (c.runTo t events).Balanced capacity quantum start t := by
  induction events generalizing c now with
  | nil => exact h.later ht
  | cons e events ih =>
    obtain ⟨hx, hdue, hwake, hp⟩ := hp
    rcases le_or_gt e.instant.value t with hin | hout
    · rw [runTo_cons_of_le c hin]
      exact ih (h.step hx hdue hwake) hp hin
    · rw [runTo_cons_of_lt c hout]
      exact h.later ht

end Crowd.Balanced

/-- At most one caller is asleep, and nothing is handed out twice. -/
structure Crowd.Calm (c : Crowd) : Prop where
  single : c.asleep.length ≤ 1
  unharmed : ∀ z ∈ c.asleep, z.lost = 0
  once : c.twice = 0

namespace Crowd.Calm

variable {c : Crowd}

theorem opening (b : Bucket Rat) : (Crowd.opening b).Calm :=
  ⟨Nat.zero_le 1, by simp [Crowd.opening], rfl⟩

theorem step (h : c.Calm) {e : Event} (halone : 0 < e.turn.asked → c.asleep = []) :
    (c.step e).Calm := by
  obtain ⟨x, turn⟩ := e
  cases turn with
  | call tokens =>
    rw [step_call]
    split_ifs with hrefused hthere
    · exact h
    · have hempty := halone (not_le.mp fun hnone => hrefused (.inl hnone))
      refine ⟨?_, ?_, h.once⟩
      all_goals simp [draw, deprive, settle, hempty]
    · have hempty := halone (not_le.mp fun hnone => hrefused (.inl hnone))
      refine ⟨?_, ?_, h.once⟩
      all_goals simp [join, draw, deprive, settle, hempty]
  | wake place =>
    cases hz : c.asleep[place]? with
    | none =>
      rw [step_wake_nobody c x hz]
      exact h
    | some z =>
      have hrest : c.asleep.eraseIdx place = [] := by
        have hlt := (List.getElem?_eq_some_iff.mp hz).1
        have hsingle := h.single
        rw [← List.length_eq_zero_iff, List.length_eraseIdx_of_lt hlt]
        omega
      have honce : c.twice + z.lost = 0 := by
        rw [h.once, h.unharmed z (List.mem_of_getElem? hz), add_zero]
      rw [step_wake c x hz]
      refine ⟨?_, ?_, honce⟩
      all_goals simp [leave, draw, deprive, settle, hrest]
  | giveUp place =>
    exact ⟨(List.length_eraseIdx_le c.asleep place).trans h.single,
      fun z hz => h.unharmed z (List.mem_of_mem_eraseIdx hz), h.once⟩

theorem runTo (h : c.Calm) {events : List Event} (halone : c.Alone events) (t : Rat) :
    (c.runTo t events).Calm := by
  induction events generalizing c with
  | nil => exact h
  | cons e events ih =>
    obtain ⟨hfirst, hrest⟩ := halone
    rcases le_or_gt e.instant.value t with hin | hout
    · rw [runTo_cons_of_le c hin]
      exact ih (h.step hfirst) hrest
    · rw [runTo_cons_of_lt c hout]
      exact h

end Crowd.Calm

/-- **What a shared bucket lets through.** However the calls of any number of callers interleave in
virtual time, some of them given up, no more is granted by an instant than the capacity and what
came in since the start exactly when what was handed out twice by then is no more than what has run
over the rim and what there is. Where nobody asks for tokens while another caller is asleep, it is
never more. -/
theorem granted_within_rate_iff (capacity quantum : Amount Rat) (hcapacity : 0 ≤ capacity.value)
    (hquantum : 0 < quantum.value) (now : Amount Rat) :
    ∃ b, create capacity quantum now = .ok b ∧
      ∀ events, (Crowd.opening b).Punctual now.value events → ∀ t, now.value ≤ t →
        (((Crowd.opening b).runTo t events).granted ≤
            capacity.value + quantum.value * (t - now.value) ↔
          ((Crowd.opening b).runTo t events).twice ≤
            ((Crowd.opening b).runTo t events).spilledBy t +
              ((Crowd.opening b).runTo t events).bucket.levelAt t) ∧
        ((Crowd.opening b).Alone events →
          ((Crowd.opening b).runTo t events).granted ≤
            capacity.value + quantum.value * (t - now.value)) := by
  refine ⟨_, create_eq hcapacity hquantum now, fun events hp t ht => ?_⟩
  have hbalanced := (Crowd.Balanced.opening hcapacity hquantum now).runTo hp ht
  have haccounts := hbalanced.accounts le_rfl
  refine ⟨⟨fun hbound => by linarith, fun htwice => by linarith⟩, fun halone => ?_⟩
  have honce := ((Crowd.Calm.opening _).runTo halone t).once
  have hspilled := hbalanced.spilledBy_nonneg t
  have hlevel := hbalanced.sound.levelAt_nonneg t
  linarith

/-- One caller empties the bucket, and two fall asleep of which one wakes before the other. -/
def rush (start : Rat) : List Event :=
  [⟨.real start, .call (.whole 2)⟩, ⟨.real (start + 1 / 2), .call (.whole 1)⟩,
    ⟨.real (start + 3 / 4), .call (.whole 2)⟩, ⟨.real (start + 1), .wake 0⟩,
    ⟨.real (start + 2), .wake 0⟩]

/-- The same calls, the last of them once nobody is asleep. -/
def file : List Event :=
  [⟨.real 0, .call (.whole 2)⟩, ⟨.real (1 / 2), .call (.whole 1)⟩, ⟨.real 1, .wake 0⟩,
    ⟨.real 1, .call (.whole 2)⟩, ⟨.real 3, .wake 0⟩]

/-- In a rush after a time in which the bucket was full, what ran over the rim makes up for what is
handed out twice. -/
theorem late_rush_within_rate :
    ∃ b, create (.whole 2) (.whole 1) (.whole 0) = .ok b ∧
      ((Crowd.opening b).Punctual 0 (rush 5) ∧
        ((Crowd.opening b).runTo 7 (rush 5)).twice = 1 ∧
        ((Crowd.opening b).runTo 7 (rush 5)).spilledBy 7 = 5 ∧
        ((Crowd.opening b).runTo 7 (rush 5)).granted ≤ 2 + 1 * (7 - 0)) ∧
      ((Crowd.opening b).Punctual 0 file ∧ (Crowd.opening b).Alone file ∧
        ((Crowd.opening b).runTo 3 file).granted ≤ 2 + 1 * (3 - 0)) := by
  obtain ⟨b, hb, hall⟩ :=
    granted_within_rate_iff (.whole 2) (.whole 1) (by decide) (by decide) (.whole 0)
  have hmade : b = ⟨.whole 2, .whole 1, 2, 2, .whole 0⟩ := by
    cases hb
    rfl
  subst hmade
  have hrush : (Crowd.opening ⟨.whole 2, .whole 1, 2, 2, .whole 0⟩).Punctual 0 (rush 5) := by
    decide +kernel
  have hfile : (Crowd.opening ⟨.whole 2, .whole 1, 2, 2, .whole 0⟩).Punctual 0 file := by
    decide +kernel
  have halone : (Crowd.opening ⟨.whole 2, .whole 1, 2, 2, .whole 0⟩).Alone file := by
    decide +kernel
  exact ⟨_, hb,
    ⟨hrush, by decide +kernel, by decide +kernel,
      (hall (rush 5) hrush 7 (by decide)).1.mpr (by decide +kernel)⟩,
    ⟨hfile, halone, (hall file hfile 3 (by decide)).2 halone⟩⟩

/-- A rush at the start breaks the rate: five tokens in two seconds, from a bucket of two that gets
one per second. -/
theorem rush_over_rate :
    ∃ b, create (.whole 2) (.whole 1) (.whole 0) = .ok b ∧
      (Crowd.opening b).Punctual 0 (rush 0) ∧
      ¬ ((Crowd.opening b).runTo 2 (rush 0)).granted ≤ 2 + 1 * (2 - 0) := by
  refine ⟨⟨.whole 2, .whole 1, 2, 2, .whole 0⟩, rfl, ?_⟩
  decide +kernel

end FleetProbe.Bucket
