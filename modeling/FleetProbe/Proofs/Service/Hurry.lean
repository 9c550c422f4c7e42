import FleetProbe.Proofs.Service.Spacing
/-!
Polls that follow each other too soon. A poll that fails is followed by the next one as soon as the
tokens for it are there. A bucket that holds more than one poll takes is full at first, so the second
poll of such a run starts before an interval has passed; one that holds just what a poll takes keeps
any two polls an interval apart.
-/

namespace FleetProbe

open Catalog

namespace Watch

variable {p : Pace} {starts : List Rat} {since now : Rat}

/-- A step that begins a poll and waits asks the catalog at once where the tokens are there, and else
sleeps until they are. -/
theorem Draws.waits {w : Watch Rat} {turn : Turn Rat} (h : w.Draws now turn)
    (hwaits : turn.Waits) (hw : w.Pays p since starts) :
    if p.cost ≤ w.bucket.levelAt now then
      (∃ previous, turn.stand = .waiting (.catalog previous)) ∧
        turn.watch.bucket =
          { w.bucket with available := w.bucket.levelAt now - p.cost, last := .real now }
    else
      turn.stand = .waiting (.tokens (now + (p.cost - w.bucket.levelAt now) / p.rate)) := by
  obtain ⟨⟨wait, hwait⟩, -⟩ := hwaits
  cases h with
  | @poll v hbucket hcost hpolled _ hstand =>
    rw [(hw.of_same hbucket hcost).poll_eq now, hbucket] at hpolled hstand
    split
    · next hthere =>
      rw [if_pos hthere] at hpolled hstand
      exact ⟨⟨v.index, hstand⟩, hpolled⟩
    · next hshort => rwa [if_neg hshort] at hstand
  | rest _ _ hstand _ => cases hwait.symm.trans hstand

end Watch

namespace Service

variable {p : Pace} {starts : List Rat} {since now : Rat} {s : Service Rat}

theorem Begets.started {e : Event} {turn : Watch.Turn Rat} (h : s.Begets now e turn)
    (starts : List Rat) : s.startedBy now e starts = turn.started now starts := by
  obtain ⟨t, -, -, -, -, hqueries⟩ := h.takes
  rw [startedBy, hqueries, take_started]

theorem Begets.asks {e : Event} {turn : Watch.Turn Rat} {previous : Int}
    (h : s.Begets now e turn) (hstand : turn.stand = .waiting (.catalog previous)) :
    ∃ l, (s.step now e).service.loop = .asking l := by
  obtain ⟨t, -, -, -, hservice, -⟩ := h.takes
  rw [hservice, take_eq, hstand]
  exact ⟨_, rfl⟩

theorem Begets.sleeps {e : Event} {turn : Watch.Turn Rat} {deadline : Rat}
    (h : s.Begets now e turn) (hstand : turn.stand = .waiting (.tokens deadline)) :
    (s.step now e).service.loop = .asleep deadline := by
  obtain ⟨t, -, -, -, hservice, -⟩ := h.takes
  rw [hservice, take_eq, hstand]

theorem Begets.bucket_eq {e : Event} {turn : Watch.Turn Rat} (h : s.Begets now e turn) :
    (s.step now e).service.watch.bucket = turn.watch.bucket := by
  obtain ⟨t, -, -, -, hservice, -⟩ := h.takes
  rw [hservice]
  exact (take_took now t turn).bucket

/-- A poll that fails is followed by the next one as soon as the tokens for it are there. -/
theorem Polls.again (h : s.Polls) (hspends : s.Spends p now starts) {l : Listing}
    (hl : s.loop = .asking l) {o : Outcome} (hfails : o.Fails) (hexpected : o.Expected) :
    ∃ events later, (now :: events.map Prod.fst).IsChain (· ≤ ·) ∧
      s.startsAfter starts events = later :: starts ∧
      (later - now) * p.rate = max 0 (p.cost - s.watch.bucket.levelAt now) := by
  obtain ⟨e, hread, hfailed⟩ := Query.read_fails s.source l.request hfails
  obtain ⟨f, rfl⟩ := hfailed hexpected
  have hanswered : s.Begets now (.answer o)
      (Watch.follow now (s.watch.receive (.error (.failed f)))) :=
    .answer hl (by rw [Listing.step_error hread])
  have hdraws := (s.watch.follow_receive_draws now (.error (.failed f))).waits
    (h.going.receive now (.inr ⟨f, rfl⟩)) hspends.watch
  have hrate := hspends.watch.paid.rate_pos
  split at hdraws
  · next hthere =>
    obtain ⟨⟨previous, hstand⟩, -⟩ := hdraws
    refine ⟨[(now, .answer o)], now, by simp, ?_, ?_⟩
    · rw [startsAfter, startsAfter, hanswered.started, Watch.Turn.started, hstand]
    · rw [sub_self, zero_mul, max_eq_left (by linarith)]
  · next hshort =>
    -- The loop sleeps just until the tokens are there, and the clock may strike then.
    have hmissing := sub_pos.mpr (not_le.mp hshort)
    let later := now + (p.cost - s.watch.bucket.levelAt now) / p.rate
    have hwoken := Begets.tick (hanswered.sleeps hdraws) (le_refl later)
    refine ⟨[(now, .answer o), (later, .tick)], later, ?_, ?_, ?_⟩
    · have hlater : now ≤ later := le_add_of_nonneg_right (div_pos hmissing hrate).le
      simpa using hlater
    · rw [startsAfter, startsAfter, startsAfter, hanswered.started, Watch.Turn.started, hdraws,
        hwoken.started]
      rfl
    · rw [max_eq_right hmissing.le, add_sub_cancel_left, div_mul_cancel₀ _ hrate.ne']

/-- A bucket that holds more than one poll takes lets the second poll start too soon. -/
theorem Fresh.hurries (h : s.Fresh) (hspends : s.Spends p since [])
    (hfull : s.watch.bucket.available = p.full) (hmore : p.cost < p.full) :
    ∃ events later, (since :: events.map Prod.fst).IsChain (· ≤ ·) ∧
      s.startsAfter [] events = [later, since] ∧ (later - since) * p.rate < p.cost := by
  -- The first poll starts at once, and what it does not take is there for the second.
  have hserved : s.Begets since (.serve none) (s.watch.run since) := .serve h.stage
  have hlevel : s.watch.bucket.levelAt since = p.full := by
    rw [hspends.watch.paid.sound.levelAt_full (hfull.trans hspends.watch.paid.full.symm),
      hspends.watch.paid.full]
  have hdraws := (s.watch.run_draws since).waits
    (Watch.Going.run h.running h.wanted h.affords since) hspends.watch
  rw [hlevel, if_pos p.fits] at hdraws
  obtain ⟨⟨previous, hstand⟩, hbucket⟩ := hdraws
  obtain ⟨l, hl⟩ := hserved.asks hstand
  have hstarted : s.startedBy since (.serve none) [] = [since] := by
    rw [hserved.started, Watch.Turn.started, hstand]
  have hnext := hspends.step le_rfl (.serve none)
  rw [hstarted] at hnext
  have hleft : (s.step since (.serve none)).service.watch.bucket.levelAt since =
      p.full - p.cost := by
    have hlast := hserved.bucket_eq.trans hbucket
    rw [hnext.watch.paid.sound.levelAt_last (by rw [hlast]; rfl), hlast]
  -- The second need wait for what is missing alone, which is less than all that a poll takes.
  obtain ⟨events, later, hclock, hstarts, hgap⟩ :=
    (serve_polls h since).again hnext hl (o := brokenOff) trivial rfl
  refine ⟨(since, .serve none) :: events, later, ?_, ?_, ?_⟩
  · exact List.isChain_cons_cons.mpr ⟨le_rfl, hclock⟩
  · rw [startsAfter, hstarted, hstarts]
  · rw [hgap, hleft]
    exact max_lt p.positive (by linarith)

end Service

namespace Settings

open Service

/-- A service with the watch that settings describe has done nothing yet, and its bucket is full. -/
theorem Valid.fresh {s : Settings} (h : s.Valid) (hpace : s.pollInterval ≤ s.bucketCapacity)
    {since : Rat} {service : Service Rat} (hwatch : watchOf s since = .ok service.watch)
    (hstage : service.stage = .idle) :
    service.Fresh ∧ service.watch.bucket.available = (s.pace h hpace).full := by
  rw [h.watchOf_eq] at hwatch
  have hsame := (Except.ok.inj hwatch).symm
  refine ⟨⟨hstage, by rw [hsame], by rw [hsame], ?_⟩, by rw [hsame]; rfl⟩
  rw [hsame]
  refine ⟨?_, rfl, rfl, rfl⟩
  rw [Bool.eq_false_iff, Ne, Amount.lt_iff, Amount.value_whole, Amount.value_whole]
  exact not_lt.mpr (by exact_mod_cast hpace)

/-- **Which settings keep polls apart**, in exact arithmetic and on a clock that never goes back. Any
two polls in a row of any run of a service with the watch that loaded settings describe start at
least an interval apart exactly when its bucket holds just what one poll takes. -/
theorem polls_spaced_iff (start : Surroundings) (path : Option Text) (given : List (Text × Value))
    (s : Settings) (hload : load start path given = .ok s)
    (hpace : s.pollInterval ≤ s.bucketCapacity) (since : Rat) :
    ∃ watch : Watch Rat, watchOf s since = .ok watch ∧
      ∀ service : Service Rat, service.watch = watch → service.stage = .idle →
        service.loop = .idle →
        ((∀ events : List (Rat × Event), (since :: events.map Prod.fst).IsChain (· ≤ ·) →
          ∀ (i : Nat) (later earlier : Rat), (service.startsAfter [] events)[i]? = some later →
            (service.startsAfter [] events)[i + 1]? = some earlier →
            (s.pollInterval : Rat) ≤ later - earlier) ↔
          s.bucketCapacity = s.pollInterval) := by
  have hvalid := load_valid hload
  refine ⟨_, hvalid.watchOf_eq since, ?_⟩
  intro service hsame hstage hloop
  have hwatch : watchOf s since = .ok service.watch := by rw [hsame, hvalid.watchOf_eq]
  constructor
  · intro hspaced
    by_contra hmore
    obtain ⟨hfresh, hfull⟩ := hvalid.fresh hpace hwatch hstage
    have hspends := hvalid.spends hpace hwatch hstage hloop
    have hroom : (s.pace hvalid hpace).cost < (s.pace hvalid hpace).full := by
      have hlt : s.pollInterval < s.bucketCapacity := by omega
      exact Int.cast_lt.mpr hlt
    obtain ⟨events, later, hclock, hstarts, hgap⟩ := hfresh.hurries hspends hfull hroom
    have hapart := hspaced events hclock 0 later since (by rw [hstarts]; rfl) (by rw [hstarts]; rfl)
    rw [show (s.pace hvalid hpace).rate = 1 from rfl, mul_one] at hgap
    exact absurd hapart (not_le.mpr hgap)
  · intro hone events hclock i later earlier hlater hearlier
    have hapart := hvalid.polls_span hpace hwatch hstage hloop events hclock hlater hearlier
    rw [hone] at hapart
    push_cast at hapart
    linarith

/-- Settings of which the pace was read. -/
theorem paced_of_read {loaded : Except LoadFault Settings} {interval capacity : Int}
    (h : (loaded.toOption.map fun s => (s.pollInterval, s.bucketCapacity)) =
      some (interval, capacity)) :
    ∃ s, loaded = .ok s ∧ s.pollInterval = interval ∧ s.bucketCapacity = capacity := by
  cases loaded with
  | error e => cases h
  | ok s =>
    obtain ⟨hinterval, hcapacity⟩ := Prod.mk.inj (Option.some.inj h)
    exact ⟨s, rfl, hinterval, hcapacity⟩

/-- Settings of a tag, and of polls two seconds apart. -/
def measured : Except LoadFault Settings :=
  load {} none [("services_tag", .text "m"), ("poll_interval", .int 2)]

/-- A service with the bucket that holds one poll. -/
def steady : Service Rat :=
  { unhurried with watch := { bucket := ⟨.whole 2, .whole 1, 2, 2, .real 0⟩, cost := 2 } }

/-- The catalog fails two polls at once, and the second sleep lasts a second more than it should. -/
def rebuffs : List (Rat × Event) :=
  [(0, .serve none), (0, .answer brokenOff), (2, .tick), (2, .answer brokenOff), (5, .tick)]

theorem steady_spaced : ∃ s, measured = .ok s ∧ s.pollInterval ≤ s.bucketCapacity ∧
    watchOf s (0 : Rat) = .ok steady.watch ∧ steady.startsAfter [] rebuffs = [5, 2, 0] ∧
    ∀ (i : Nat) (later earlier : Rat), (steady.startsAfter [] rebuffs)[i]? = some later →
      (steady.startsAfter [] rebuffs)[i + 1]? = some earlier →
      (s.pollInterval : Rat) ≤ later - earlier := by
  have hread : (measured.toOption.map fun s => (s.pollInterval, s.bucketCapacity)) = some (2, 2) := by
    decide +kernel
  obtain ⟨s, hload, hinterval, hcapacity⟩ := paced_of_read hread
  have hpace : s.pollInterval ≤ s.bucketCapacity := by omega
  have hwatch : watchOf s (0 : Rat) = .ok steady.watch := by
    rw [(load_valid hload).watchOf_eq, tokenCost, hinterval, hcapacity]
    rfl
  obtain ⟨watch, hmade, hspaced⟩ := polls_spaced_iff {} none _ s hload hpace 0
  have hsame : steady.watch = watch := Except.ok.inj (hwatch.symm.trans hmade)
  exact ⟨s, hload, hpace, hwatch, by decide +kernel,
    (hspaced steady hsame rfl rfl).mpr (by omega) rebuffs (by decide +kernel)⟩

/-- Settings of a tag, and of a bucket that holds what three polls take. -/
def bursting : Except LoadFault Settings :=
  load {} none [("services_tag", .text "m"), ("poll_interval", .int 2),
    ("poll_bucket_capacity", .int 6)]

/-- A service with that bucket. -/
def eager : Service Rat :=
  { unhurried with watch := { bucket := ⟨.whole 6, .whole 1, 6, 6, .real 0⟩, cost := 2 } }

/-- The catalog fails four polls, as fast as they come. -/
def refusals : List (Rat × Event) :=
  [(0, .serve none), (0, .answer brokenOff), (0, .answer brokenOff), (0, .answer brokenOff),
    (2, .tick), (2, .answer brokenOff)]

/-- With such a bucket two polls start at the same instant. -/
theorem eager_hurries :
    ¬ ∀ (start : Surroundings) (path : Option Text) (given : List (Text × Value)) (s : Settings),
      load start path given = .ok s → s.pollInterval ≤ s.bucketCapacity →
      ∀ (since : Rat) (watch : Watch Rat), watchOf s since = .ok watch →
      ∀ service : Service Rat, service.watch = watch → service.stage = .idle →
        service.loop = .idle → ∀ events : List (Rat × Event),
        (since :: events.map Prod.fst).IsChain (· ≤ ·) →
        ∀ (i : Nat) (later earlier : Rat), (service.startsAfter [] events)[i]? = some later →
          (service.startsAfter [] events)[i + 1]? = some earlier →
          (s.pollInterval : Rat) ≤ later - earlier := by
  intro h
  have hread : (bursting.toOption.map fun s => (s.pollInterval, s.bucketCapacity)) = some (2, 6) := by
    decide +kernel
  obtain ⟨s, hload, hinterval, hcapacity⟩ := paced_of_read hread
  have hwatch : watchOf s (0 : Rat) = .ok eager.watch := by
    rw [(load_valid hload).watchOf_eq, tokenCost, hinterval, hcapacity]
    rfl
  have hapart := h {} none _ s hload (by omega) 0 eager.watch hwatch eager rfl rfl rfl refusals
    (by decide +kernel) 1 0 0 (by decide +kernel) (by decide +kernel)
  rw [hinterval] at hapart
  norm_num at hapart

end Settings

end FleetProbe
