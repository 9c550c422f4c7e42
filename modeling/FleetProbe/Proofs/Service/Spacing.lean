import FleetProbe.Proofs.Bucket.Level
import FleetProbe.Proofs.Service.Cursor
import FleetProbe.Proofs.Settings.Valid
import FleetProbe.Service.Start
/-!
How far apart polls start. Whatever polls have taken out of the bucket was in it at first or came in
since, so that any number of polls in a row takes a time: the tokens they need, less those of a full
bucket.
-/

namespace FleetProbe

/-- What a poll takes, what a full bucket holds, and what comes in a second. -/
structure Pace where
  cost : Rat
  full : Rat
  rate : Rat
  positive : 0 < cost
  fits : cost ≤ full

/-- Instants, the last one first, any two of which are as far apart as the pace asks: a full bucket
is all that is there besides what came in. -/
def Pace.Spaced (p : Pace) (starts : List Rat) : Prop :=
  ∀ (i k : Nat) (later earlier : Rat), starts[i]? = some later → starts[i + k]? = some earlier →
    (k + 1) * p.cost - p.full ≤ (later - earlier) * p.rate

namespace Bucket

/-- A bucket under some terms, out of which calls took their tokens at some instants, the last one
first: all they took since any of them, and what is left, was in a full bucket or came in since. -/
structure Paid (b : Bucket Rat) (p : Pace) (starts : List Rat) : Prop where
  sound : b.Sound
  full : b.full = p.full
  rate : b.quantum.value = p.rate
  covered : ∀ (i : Nat) (x : Rat), starts[i]? = some x →
    b.available + (i + 1) * p.cost ≤ p.full + (b.last.value - x) * p.rate

namespace Paid

variable {b : Bucket Rat} {p : Pace} {starts : List Rat} {t : Amount Rat}

theorem rate_pos (h : b.Paid p starts) : 0 < p.rate := by
  rw [← h.rate]
  exact h.sound.rate

theorem refill (h : b.Paid p starts) (hlast : b.last.value ≤ t.value) :
    Paid { b with available := b.levelAt t.value, last := t } p starts := by
  refine ⟨h.sound.refill t, h.full, h.rate, fun i x hx => ?_⟩
  have hcovered := h.covered i x hx
  have hlevel := Sound.levelAt_le_add hlast
  rw [h.rate] at hlevel
  dsimp only
  linarith

theorem grant (h : b.Paid p starts) (hlast : b.last.value ≤ t.value)
    (hthere : p.cost ≤ b.levelAt t.value) :
    Paid { b with available := b.levelAt t.value - p.cost, last := t } p (t.value :: starts) := by
  refine ⟨h.sound.take p.positive.le hthere, h.full, h.rate, fun i x hx => ?_⟩
  have hlevel := Sound.levelAt_le_add hlast
  have hfull := Sound.levelAt_le b t.value
  rw [h.rate] at hlevel
  rw [h.full] at hfull
  cases i with
  | zero =>
    cases hx
    push_cast
    linarith
  | succ i =>
    have hcovered := h.covered i x hx
    push_cast
    linarith

/-- Who slept until the tokens were there finds an empty bucket. -/
theorem wake (h : b.Paid p starts)
    (hslept : p.cost - b.available ≤ (t.value - b.last.value) * p.rate) :
    Paid { b with available := 0, last := t } p (t.value :: starts) := by
  refine ⟨h.sound.empty t, h.full, h.rate, fun i x hx => ?_⟩
  cases i with
  | zero =>
    have hfits := p.fits
    cases hx
    push_cast
    linarith
  | succ i =>
    have hcovered := h.covered i x hx
    push_cast
    linarith

end Paid

end Bucket

theorem Pace.Spaced.push {p : Pace} {b : Bucket Rat} {starts : List Rat}
    (h : p.Spaced starts) (hpaid : b.Paid p (b.last.value :: starts)) :
    p.Spaced (b.last.value :: starts) := by
  intro i k later earlier hlater hearlier
  cases i with
  | zero =>
    cases hlater
    rw [Nat.zero_add] at hearlier
    have hcovered := hpaid.covered k earlier hearlier
    have hnonneg := hpaid.sound.nonneg
    linarith
  | succ i =>
    rw [Nat.add_right_comm, List.getElem?_cons_succ] at hearlier
    exact h i k later earlier hlater hearlier

namespace Watch

variable {p : Pace} {starts : List Rat} {since now : Rat}

/-- A watch whose polls started at some instants and paid for it. -/
structure Pays (w : Watch Rat) (p : Pace) (now : Rat) (starts : List Rat) : Prop where
  cost : (w.cost : Rat) = p.cost
  paid : w.bucket.Paid p starts
  clock : w.bucket.last.value ≤ now
  spaced : p.Spaced starts

theorem Pays.later {w : Watch Rat} (h : w.Pays p since starts) (hnow : since ≤ now) :
    w.Pays p now starts :=
  ⟨h.cost, h.paid, h.clock.trans hnow, h.spaced⟩

/-- What was paid is a matter of the bucket alone. -/
theorem Pays.of_same {v w : Watch Rat} (h : w.Pays p now starts) (hbucket : v.bucket = w.bucket)
    (hcost : v.cost = w.cost) : v.Pays p now starts := by
  refine ⟨?_, ?_, ?_, h.spaced⟩
  · rw [hcost]
    exact h.cost
  · rw [hbucket]
    exact h.paid
  · rw [hbucket]
    exact h.clock

/-- The polls that have started after a step of the loop; one that asks the catalog starts with it. -/
def Turn.started (turn : Turn Rat) (now : Rat) (starts : List Rat) : List Rat :=
  match turn.stand with
  | .waiting (.catalog _) => now :: starts
  | _ => starts

/-- A step of the loop that pays for the poll it starts. One that sleeps does so until the tokens
are there. -/
structure Turn.Pays (turn : Turn Rat) (p : Pace) (now : Rat) (starts : List Rat) : Prop where
  watch : turn.watch.Pays p now (turn.started now starts)
  asleep : ∀ deadline, turn.stand = .waiting (.tokens deadline) →
    p.cost - turn.watch.bucket.available ≤ (deadline - turn.watch.bucket.last.value) * p.rate

theorem Turn.Pays.of_same {turn other : Turn Rat} (h : other.Pays p now starts)
    (hbucket : turn.watch.bucket = other.watch.bucket)
    (hcost : turn.watch.cost = other.watch.cost) (hstand : turn.stand = other.stand) :
    turn.Pays p now starts := by
  have hstarted : turn.started now starts = other.started now starts := by
    unfold started
    rw [hstand]
  refine ⟨?_, fun deadline hdeadline => ?_⟩
  · rw [hstarted]
    exact h.watch.of_same hbucket hcost
  · rw [hbucket]
    exact h.asleep deadline (hstand.symm.trans hdeadline)

/-- A poll gets its tokens at once, or sleeps until they are there. -/
theorem Pays.poll_eq {w : Watch Rat} (h : w.Pays p since starts) (now : Rat) :
    w.poll now =
      if p.cost ≤ w.bucket.levelAt now then
        query { w with bucket :=
          { w.bucket with available := w.bucket.levelAt now - p.cost, last := .real now } }
      else
        { watch := { w with bucket :=
            { w.bucket with available := w.bucket.levelAt now, last := .real now } }
          stand := .waiting (.tokens (now + (p.cost - w.bucket.levelAt now) / p.rate)) } := by
  have hfits : ¬ w.bucket.capacity.value < (Amount.whole w.cost : Amount Rat).value := by
    rw [← h.paid.sound.full, h.paid.full, Amount.value_whole, h.cost]
    exact not_lt.mpr p.fits
  have hpositive : ¬ (Amount.whole w.cost : Amount Rat).value ≤ 0 := by
    rw [Amount.value_whole, h.cost]
    exact not_le.mpr p.positive
  unfold Watch.poll
  rw [Bucket.request_eq, if_neg hfits, if_neg hpositive, Amount.value_whole, Amount.value_real,
    h.cost, h.paid.rate]
  by_cases hthere : p.cost ≤ w.bucket.levelAt now
  · rw [if_pos hthere, if_pos hthere]
  · rw [if_neg hthere, if_neg hthere]

theorem Pays.poll {w : Watch Rat} (h : w.Pays p since starts) (hnow : since ≤ now) :
    (w.poll now).Pays p now starts := by
  have hvalue : (Amount.real now).value = now := Amount.value_real now
  have hlast : w.bucket.last.value ≤ (Amount.real now).value := hvalue ▸ h.clock.trans hnow
  rw [h.poll_eq now]
  by_cases hthere : p.cost ≤ w.bucket.levelAt now
  · rw [if_pos hthere]
    have hpaid := h.paid.grant hlast (by rwa [hvalue])
    rw [hvalue] at hpaid
    exact ⟨⟨h.cost, hpaid, le_refl _, h.spaced.push hpaid⟩, by simp [query]⟩
  · rw [if_neg hthere]
    have hpaid := h.paid.refill hlast
    rw [hvalue] at hpaid
    refine ⟨⟨h.cost, hpaid, le_refl _, h.spaced⟩, fun deadline hdeadline => ?_⟩
    cases hdeadline
    dsimp only
    rw [hvalue, add_sub_cancel_left, div_mul_cancel₀ _ h.paid.rate_pos.ne']

theorem Draws.pays {w : Watch Rat} {turn : Turn Rat} (h : w.Draws now turn)
    (hw : w.Pays p since starts) (hnow : since ≤ now) : turn.Pays p now starts := by
  cases h with
  | @poll v hbucket hcost hpolled hkept hstand =>
    have hv := hw.of_same hbucket hcost
    have hcharge := hkept.trans (hcost.symm.trans (v.poll_cost now).symm)
    exact (hv.poll hnow).of_same hpolled hcharge hstand
  | rest hbucket hcost hstand _ =>
    have hstarted : turn.started now starts = starts := by
      unfold Turn.started
      rw [hstand]
    refine ⟨?_, by simp [hstand]⟩
    rw [hstarted]
    exact (hw.later hnow).of_same hbucket hcost

/-- A poll that slept long enough pays with all there is. -/
theorem Pays.wake {w : Watch Rat} (h : w.Pays p since starts)
    (hslept : p.cost - w.bucket.available ≤ (now - w.bucket.last.value) * p.rate) :
    (w.wake now).Pays p now starts := by
  have hpaid := h.paid.wake (t := .real now) hslept
  exact ⟨⟨h.cost, hpaid, le_refl _, h.spaced.push hpaid⟩, by simp [Watch.wake, query]⟩

end Watch

theorem Catalog.Listing.step_asks {s : Source} {l next : Listing} {o : Outcome}
    (h : (l.step s o).1 = .ask next) : ∃ service, next.request = nodesRequest service := by
  obtain ⟨r, hend⟩ | ⟨v, name, rest, found, -, hask⟩ := step_cases s l o
  · cases hend.symm.trans h
  · cases hask.symm.trans h
    exact ⟨name, rfl⟩

namespace Service

open Catalog

/-- Adds the instant of an event that starts a poll. -/
def startedBy {α : Type} [Quantity α] (s : Service α) (now : α) (e : Event) (starts : List α) :
    List α :=
  ((queries (s.step now e).outputs).filterMap Poll.begun).map (fun _ => now) ++ starts

/-- The instants at which polls started after some events, the last one first. -/
def startsAfter {α : Type} [Quantity α] (s : Service α) (starts : List α) :
    List (α × Event) → List α
  | [] => starts
  | e :: events => (s.step e.1 e.2).service.startsAfter (s.startedBy e.1 e.2 starts) events

variable {p : Pace} {starts : List Rat} {since now : Rat}

/-- A service whose polls started at some instants and paid for it. While the loop sleeps, it does so
until the tokens for the next one are there. -/
structure Spends (s : Service Rat) (p : Pace) (now : Rat) (starts : List Rat) : Prop where
  upright : s.Upright
  watch : s.watch.Pays p now starts
  asleep : ∀ deadline, s.loop = .asleep deadline →
    p.cost - s.watch.bucket.available ≤ (deadline - s.watch.bucket.last.value) * p.rate

theorem startedBy_eq {s : Service Rat} {e : Event}
    (h : (queries (s.step now e).outputs).filterMap Poll.begun = []) :
    s.startedBy now e starts = starts := by
  rw [startedBy, h]
  rfl

theorem Spends.of_keeps {s t : Service Rat} (h : s.Spends p since starts) (hnow : since ≤ now)
    (hst : Keeps s t) (ht : t.Upright) : t.Spends p now starts := by
  refine ⟨ht, (h.watch.later hnow).of_same hst.bucket hst.cost, fun deadline hdeadline => ?_⟩
  rw [hst.bucket]
  obtain hsame | hover := hst.loop
  · exact h.asleep deadline (hsame.symm.trans hdeadline)
  · cases hover.symm.trans hdeadline

theorem Took.spends {s : Service Rat} {turn : Watch.Turn Rat} (h : Took turn s)
    (hturn : turn.Pays p now starts) (hs : s.Upright) :
    s.Spends p now (turn.started now starts) := by
  refine ⟨hs, hturn.watch.of_same h.bucket h.cost, fun deadline hdeadline => ?_⟩
  rw [h.bucket]
  exact hturn.asleep deadline (h.asleep deadline hdeadline)

theorem Begets.pays {s : Service Rat} {e : Event} {turn : Watch.Turn Rat}
    (h : s.Begets now e turn) (hs : s.Spends p since starts) (hnow : since ≤ now) :
    turn.Pays p now starts := by
  obtain hdraws | ⟨deadline, hl, hdue, rfl⟩ := h.cases
  · exact hdraws.pays hs.watch hnow
  · refine hs.watch.wake ?_
    have hrate := hs.watch.paid.rate_pos
    calc p.cost - s.watch.bucket.available
        ≤ (deadline - s.watch.bucket.last.value) * p.rate := hs.asleep deadline hl
      _ ≤ (now - s.watch.bucket.last.value) * p.rate :=
        mul_le_mul_of_nonneg_right (by linarith) hrate.le

theorem take_started (now : Rat) (s : Service Rat) (turn : Watch.Turn Rat) (starts : List Rat) :
    ((queries (s.take now turn).outputs).filterMap Poll.begun).map (fun _ => now) ++ starts =
      turn.started now starts := by
  rw [take_queries]
  unfold Watch.Turn.started
  match turn.stand with
  | .waiting (.tokens _) => rfl
  | .waiting (.catalog previous) => rw [List.filterMap_cons, Poll.begun_services]; rfl
  | .over _ => rfl

theorem Spends.step {s : Service Rat} (h : s.Spends p since starts) (hnow : since ≤ now)
    (e : Event) : (s.step now e).service.Spends p now (s.startedBy now e starts) := by
  have hupright := h.upright.step now e
  cases step_does h.upright now e with
  | aside _ hquiet _ hkeeps =>
    rw [startedBy_eq (by rw [hquiet.queries_eq]; rfl)]
    exact h.of_keeps hnow hkeeps hupright
  | down hquiet _ hkeeps =>
    rw [startedBy_eq (by rw [hquiet.queries_eq]; rfl)]
    exact h.of_keeps hnow hkeeps hupright
  | @asks l next o hl _ hstep hservice hqueries =>
    obtain ⟨service, hrequest⟩ := Listing.step_asks hstep
    have hnone : [next.request].filterMap Poll.begun = [] := by
      rw [hrequest, List.filterMap_cons, Poll.begun_nodes]
      rfl
    rw [startedBy_eq (by rw [hqueries, hnone])]
    rw [hservice] at hupright ⊢
    exact ⟨hupright, h.watch.later hnow, by simp [ask]⟩
  | @takes t turn hbegets _ _ hservice hqueries =>
    rw [startedBy, hqueries, take_started]
    rw [hservice] at hupright ⊢
    exact (take_took now t turn).spends (hbegets.pays h hnow) hupright

theorem startsAfter_spaced {s : Service Rat} (h : s.Spends p since starts)
    (events : List (Rat × Event)) (hclock : (since :: events.map Prod.fst).IsChain (· ≤ ·)) :
    p.Spaced (s.startsAfter starts events) := by
  induction events generalizing s since starts with
  | nil => exact h.watch.spaced
  | cons e events ih =>
    obtain ⟨hnow, hrest⟩ := List.isChain_cons_cons.mp hclock
    exact ih (h.step hnow e.2) hrest

end Service

namespace Settings

open Service

theorem Valid.watchOf_eq {s : Settings} (h : s.Valid) (since : Rat) :
    watchOf s since = .ok
      { bucket := ⟨.whole s.bucketCapacity, .whole quantum, s.bucketCapacity, s.bucketCapacity,
          .real since⟩
        cost := s.tokenCost } := by
  have hcapacity := h.bucketCapacity_pos
  have hnonneg : 0 ≤ (Amount.whole s.bucketCapacity : Amount Rat).value := by
    rw [Amount.value_whole]
    exact_mod_cast hcapacity.le
  have hquantum : 0 < (Amount.whole quantum : Amount Rat).value := by decide
  rw [watchOf, Bucket.create_eq hnonneg hquantum]
  rfl

/-- The pace that settings describe. -/
def pace (s : Settings) (h : s.Valid) (hpace : s.pollInterval ≤ s.bucketCapacity) : Pace where
  cost := s.pollInterval
  full := s.bucketCapacity
  rate := 1
  positive := by exact_mod_cast h.pollInterval
  fits := by exact_mod_cast hpace

theorem Valid.watchOf_pays {s : Settings} (h : s.Valid)
    (hpace : s.pollInterval ≤ s.bucketCapacity) {since : Rat} {watch : Watch Rat}
    (hwatch : watchOf s since = .ok watch) : watch.Pays (s.pace h hpace) since [] := by
  have hcapacity := h.bucketCapacity_pos
  have hquantum : (Amount.whole quantum : Amount Rat).value = 1 := rfl
  rw [h.watchOf_eq] at hwatch
  cases hwatch
  refine ⟨rfl, ⟨?_, rfl, ?_, by simp⟩, le_refl _, by intro i k later earlier hlater; cases hlater⟩
  · refine Bucket.full_sound ?_ (by decide) _
    rw [Amount.value_whole]
    exact_mod_cast hcapacity.le
  · exact hquantum

theorem Valid.spends {s : Settings} (h : s.Valid) (hpace : s.pollInterval ≤ s.bucketCapacity)
    {since : Rat} {service : Service Rat} (hwatch : watchOf s since = .ok service.watch)
    (hstage : service.stage = .idle) (hloop : service.loop = .idle) :
    service.Spends (s.pace h hpace) since [] :=
  ⟨.inr (by simp [hstage]), h.watchOf_pays hpace hwatch, by simp [hloop]⟩

/-- Polls of a service with the watch that settings describe, in a row and on a clock that never goes
back, take the time of all their intervals but for what a full bucket holds. -/
theorem Valid.polls_span {s : Settings} (h : s.Valid) (hpace : s.pollInterval ≤ s.bucketCapacity)
    {since : Rat} {service : Service Rat} (hwatch : watchOf s since = .ok service.watch)
    (hstage : service.stage = .idle) (hloop : service.loop = .idle)
    (events : List (Rat × Event)) (hclock : (since :: events.map Prod.fst).IsChain (· ≤ ·))
    {i k : Nat} {later earlier : Rat} (hlater : (service.startsAfter [] events)[i]? = some later)
    (hearlier : (service.startsAfter [] events)[i + k]? = some earlier) :
    ((k + 1) * s.pollInterval - s.bucketCapacity : Rat) ≤ later - earlier := by
  have hspends := h.spends hpace hwatch hstage hloop
  have hapart := startsAfter_spaced hspends events hclock i k later earlier hlater hearlier
  rwa [show (s.pace h hpace).rate = 1 from rfl, mul_one] at hapart

end Settings

end FleetProbe
