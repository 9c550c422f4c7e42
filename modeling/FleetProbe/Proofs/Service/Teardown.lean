import FleetProbe.Proofs.Service.Books
import FleetProbe.Proofs.Service.Steps
import FleetProbe.Service.Start
/-!
How serving ends. Whoever asks for it, and however often, the loop of polls ends first; then every
task that has not finished is waited for, and cancelled if it takes too long; then the port is given
back and the session with the catalog is closed. Only a cancellation that strikes meanwhile breaks
this off; until then the port is held.
-/

namespace FleetProbe

open Catalog

namespace Catalog.Sessions

/-- The client opened all its sessions itself, and only the newest may be open. -/
structure Own (ss : Sessions) : Prop where
  given : ∀ x ∈ ss, x.given = false
  closed : ∀ x ∈ ss.tail, x.isOpen = false

theorem acquire_own {ss : Sessions} (h : Own ss) : Own ss.acquire := by
  cases ss with
  | nil => exact ⟨by simp [acquire], by simp [acquire]⟩
  | cons x rest =>
    rw [acquire]
    split
    · exact h
    · next hclosed =>
      have hx : x.isOpen = false := by simpa using hclosed
      refine ⟨fun y hy => ?_, fun y hy => ?_⟩
      · obtain rfl | hy := List.mem_cons.mp hy
        · rfl
        · exact h.given y hy
      · obtain rfl | hy := List.mem_cons.mp hy
        · exact hx
        · exact h.closed y hy

theorem close_closed {ss : Sessions} (h : Own ss) : ∀ x ∈ ss.close, x.isOpen = false := by
  cases ss with
  | nil => simp [close]
  | cons x rest =>
    have hx : x.given = false := h.given x List.mem_cons_self
    intro y hy
    rw [close, hx] at hy
    obtain rfl | hy := List.mem_cons.mp hy
    · rfl
    · exact h.closed y hy

end Catalog.Sessions

variable {α : Type} [Quantity α]

theorem Shutdown.advance_starts (s : Shutdown α) (f : Fleet) (now : α) :
    (s.advance f now).orders.filterMap Fleet.Order.node? = [] := by
  have hcancels (tasks : List Nat) :
      (tasks.map Fleet.Order.cancel).filterMap Fleet.Order.node? = [] := by
    rw [List.filterMap_map, List.filterMap_eq_nil_iff]
    exact fun _ _ => rfl
  cases s with
  | waiting tasks deadline =>
    simp only [advance]
    split
    · rfl
    · split
      · exact hcancels _
      · rfl
  | cancelling tasks =>
    simp only [advance]
    split
    · rfl
    · rfl
  | «over» => rfl

namespace Service

/-- A service that serves: its books agree, its sessions are its own, and it holds its port. -/
structure Serving (s : Service α) : Prop where
  stage : s.stage = .serving
  tallies : s.Tallies 0
  sessions : s.sessions.Own
  listing : ∀ l, s.loop = .asking l → l.WellKeyed
  endpoint : s.endpoint = .bound

/-- The loop of polls is over, no probe runs, and a shutdown waits for every task that has not
finished. -/
structure Closing (shutdown : Shutdown α) (s : Service α) : Prop where
  tallies : s.Tallies 0
  loop : s.loop = .over
  stopped : s.watch.running = false
  active : s.watch.fleet.active = []
  covers : shutdown.Covers s.watch.fleet

/-- A service that is being taken down, and holds its port meanwhile, or one that has been. -/
inductive Ceases (e : Ending α) (s : Service α) : Prop where
  | stopping {shutdown : Shutdown α} : s.stage = .stopping shutdown e → Closing shutdown s →
    s.sessions.Own → s.endpoint = .bound → Ceases e s
  | served : s.stage = .served e → Closing .over s → s.endpoint = .idle →
    (∀ x ∈ s.sessions, x.isOpen = false) → Ceases e s

/-- Nothing is left of what a service took up: its loop is over, all its tasks have ended, its port
is given back and its sessions are closed. -/
structure Released (s : Service α) : Prop where
  loop : s.loop = .over
  stopped : s.watch.running = false
  fleet : s.watch.fleet.Spent
  tasks : ∀ t ∈ s.crew.tasks, t.ending?.isSome = true
  endpoint : s.endpoint = .idle
  sessions : ∀ x ∈ s.sessions, x.isOpen = false

section Tends

variable {s t : Service α} {shutdown : Shutdown α} {e : Ending α}

omit [Quantity α] in
theorem Serving.of_tends (h : s.Serving) (hst : Tends s t) (ht : t.Tallies 0) : t.Serving :=
  ⟨hst.steady.stage.trans h.stage, ht, hst.sessions ▸ h.sessions, fun l hl =>
    h.listing l (hst.steady.loop.symm.trans hl), hst.endpoint.trans h.endpoint⟩

omit [Quantity α] in
theorem Closing.of_tends (h : s.Closing shutdown) (hst : Tends s t) (ht : t.Tallies 0) :
    t.Closing shutdown := by
  obtain ⟨fleet, hwatch⟩ := hst.steady.watch
  refine ⟨ht, hst.steady.loop.trans h.loop, ?_, hst.wanes.active_nil h.active,
    h.covers.of_wanes hst.wanes⟩
  rw [hwatch]
  exact h.stopped

omit [Quantity α] in
theorem Ceases.of_tends (h : s.Ceases e) (hst : Tends s t) (ht : t.Tallies 0) : t.Ceases e := by
  cases h with
  | stopping hstage hclosing hown hbound =>
    exact .stopping (hst.steady.stage.trans hstage) (hclosing.of_tends hst ht)
      (hst.sessions ▸ hown) (hst.endpoint.trans hbound)
  | served hstage hclosing hidle hclosed =>
    exact .served (hst.steady.stage.trans hstage) (hclosing.of_tends hst ht)
      (hst.endpoint.trans hidle) (hst.sessions ▸ hclosed)

omit [Quantity α] in
theorem Ceases.tallies (h : s.Ceases e) : s.Tallies 0 := by
  cases h with
  | stopping _ hclosing _ _ => exact hclosing.tallies
  | served _ hclosing _ _ => exact hclosing.tallies

omit [Quantity α] in
theorem Ceases.loop (h : s.Ceases e) : s.loop = .over := by
  cases h with
  | stopping _ hclosing _ _ => exact hclosing.loop
  | served _ hclosing _ _ => exact hclosing.loop

omit [Quantity α] in
/-- A shutdown that waits for nothing any more has waited for every task. -/
theorem Closing.released (h : s.Closing .over) (hidle : s.endpoint = .idle)
    (hclosed : ∀ x ∈ s.sessions, x.isOpen = false) : s.Released := by
  have hnone : ∀ task, s.watch.fleet.isUnfinished task = false := fun task => by
    rw [Bool.eq_false_iff]
    exact h.covers task
  refine ⟨h.loop, h.stopped, ⟨s.watch.fleet.finished_of_none hnone, ?_⟩, fun x hx => ?_, hidle,
    hclosed⟩
  · rw [Fleet.keys, h.active, List.map_nil]
  · obtain ⟨task, htask⟩ := List.getElem?_of_mem hx
    rw [Option.isSome_iff_ne_none]
    intro hgoes
    have hunfinished := (h.tallies.isUnfinished task).mpr ⟨x, htask, hgoes⟩
    rw [hnone task] at hunfinished
    cases hunfinished

omit [Quantity α] in
theorem Ceases.released (h : s.Ceases e) {ending : Ending α} (hstage : s.stage = .served ending) :
    ending = e ∧ s.Released := by
  cases h with
  | stopping hstopping _ _ _ => cases hstopping.symm.trans hstage
  | served hserved hclosing hidle hclosed =>
    cases hserved.symm.trans hstage
    exact ⟨rfl, hclosing.released hidle hclosed⟩

omit [Quantity α] in
theorem Ceases.closing (h : s.Ceases e) (hstage : s.stage = .stopping shutdown e) :
    s.Closing shutdown ∧ s.sessions.Own := by
  cases h with
  | stopping hstopping hclosing hown _ =>
    cases hstopping.symm.trans hstage
    exact ⟨hclosing, hown⟩
  | served hserved _ _ _ => cases hserved.symm.trans hstage

theorem obeyAll_ceases (h : s.Ceases e) (now : α) (orders : List Fleet.Order)
    (hstarts : orders.filterMap Fleet.Order.node? = []) :
    (s.obeyAll now orders).service.Ceases e := by
  refine h.of_tends (obeyAll_tends now orders s) (obeyAll_tallies now orders ?_)
  rw [hstarts]
  exact h.tallies

omit [Quantity α] in
/-- A fleet that takes up no task may take the place of the one there is. -/
theorem Ceases.amend (h : s.Ceases e) {next : Fleet.Next} (hnext : s.watch.fleet.Amends [] next)
    (hwanes : s.watch.fleet.Wanes next.fleet) (stopping : Bool) :
    Ceases e { s with watch := { s.watch with fleet := next.fleet, stopping } } := by
  have hclosing {shutdown : Shutdown α} (hc : s.Closing shutdown) : Closing shutdown
      { s with watch := { s.watch with fleet := next.fleet, stopping } } :=
    ⟨hc.tallies.amend hnext rfl rfl, hc.loop, hc.stopped, hwanes.active_nil hc.active,
      hc.covers.of_wanes hwanes⟩
  cases h with
  | stopping hstage hc hown hbound => exact .stopping hstage (hclosing hc) hown hbound
  | served hstage hc hidle hclosed => exact .served hstage (hclosing hc) hidle hclosed

theorem Serving.amend (h : s.Serving) {new : List Node} {next : Fleet.Next}
    (hnext : s.watch.fleet.Amends new next) (now : α) (hfleet : t.watch.fleet = next.fleet)
    (htasks : t.crew.tasks = s.crew.tasks) (hsessions : t.sessions = s.sessions)
    (hstage : t.stage = s.stage) (hloop : t.loop = s.loop) (hendpoint : t.endpoint = s.endpoint) :
    (t.obeyAll now next.orders).service.Serving := by
  have htends := obeyAll_tends now next.orders t
  have htallies := h.tallies.amend hnext hfleet htasks
  rw [← hnext.enlists.orders] at htallies
  refine ⟨htends.steady.stage.trans (hstage.trans h.stage), obeyAll_tallies now _ htallies, ?_,
    fun l hl => h.listing l (hloop.symm.trans (htends.steady.loop.symm.trans hl)),
    htends.endpoint.trans (hendpoint.trans h.endpoint)⟩
  rw [htends.sessions, hsessions]
  exact h.sessions

end Tends

section Steps

variable {s t : Service α} {shutdown : Shutdown α} {e : Ending α}

omit [Quantity α] in
theorem close_ceases (h : s.Ceases e) (hover : s.stage = .stopping .over e) :
    (s.close e).service.Ceases e := by
  obtain ⟨hclosing, hown⟩ := h.closing hover
  refine .served rfl ⟨hclosing.tallies.of_same rfl rfl, hclosing.loop, hclosing.stopped,
    hclosing.active, hclosing.covers⟩ ?_ (Sessions.close_closed hown)
  simp only [close]
  cases s.endpoint with
  | idle | unbound | bound => rfl

theorem advance_ceases (h : s.Ceases e) (now : α) : (s.advance now).service.Ceases e := by
  cases h with
  | @stopping shutdown hstage hclosing hown hbound =>
    have hcovers := Shutdown.advance_covers hclosing.covers now
    have hstarts := shutdown.advance_starts s.watch.fleet now
    simp only [advance, hstage]
    generalize shutdown.advance s.watch.fleet now = next at *
    have hnoted : Ceases e { s with stage := .stopping next.shutdown e } :=
      .stopping rfl ⟨hclosing.tallies.of_same rfl rfl, hclosing.loop, hclosing.stopped,
        hclosing.active, hcovers⟩ hown hbound
    have hobeyed := obeyAll_ceases hnoted now next.orders hstarts
    have hkept := (obeyAll_tends now next.orders
      { s with stage := .stopping next.shutdown e }).steady.stage
    split
    · next hover => exact close_ceases hobeyed (hover ▸ hkept)
    · exact hobeyed
  | served hstage hclosing hidle hclosed =>
    simp only [advance, hstage]
    exact .served hstage hclosing hidle hclosed

theorem settle_ceases (h : s.Ceases e) (now : α) : (s.settle now).service.Ceases e :=
  advance_ceases (advance_ceases h now) now

theorem tearDown_ceases (h : s.Tallies 0) (hown : s.sessions.Own) (hbound : s.endpoint = .bound)
    (now : α) (e : Ending α) : (s.tearDown now e).service.Ceases e := by
  have hcovers := Shutdown.begin_covers h.orderly h.tracked
    ((Quantity.ofInt? Shutdown.patience).map (now + ·))
  have hamends := Fleet.stopProbes_amends h.orderly h.tracked s.watch.fleet.keys
  have hwatch : (Shutdown.begin s.watch ((Quantity.ofInt? Shutdown.patience).map (now + ·))).1 =
      { s.watch with fleet := s.watch.fleet.stopAll.fleet, stopping := true } := rfl
  have horders : (Shutdown.begin s.watch
      ((Quantity.ofInt? Shutdown.patience).map (now + ·))).2.orders =
        s.watch.fleet.stopAll.orders := rfl
  unfold tearDown
  simp only
  generalize Shutdown.begin s.watch ((Quantity.ofInt? Shutdown.patience).map (now + ·)) = begun at *
  obtain ⟨watch, next⟩ := begun
  simp only at hwatch horders hcovers
  subst hwatch
  -- The loop ends and all probes are told to stop before anything is waited for.
  have hbegun : Ceases e { s with
      watch := { s.watch with
        fleet := s.watch.fleet.stopAll.fleet, stopping := true, running := false }
      loop := .over, stage := .stopping next.shutdown e } :=
    .stopping rfl ⟨h.amend hamends rfl rfl, rfl, rfl, Fleet.stopAll_active h.orderly, hcovers⟩ hown
      hbound
  have hobeyed := obeyAll_ceases hbegun now next.orders
    (by rw [horders]; exact hamends.enlists.orders)
  have hkept := (obeyAll_tends now next.orders { s with
      watch := { s.watch with
        fleet := s.watch.fleet.stopAll.fleet, stopping := true, running := false }
      loop := .over, stage := .stopping next.shutdown e }).steady.stage
  split
  · next hover => exact close_ceases hobeyed (hover ▸ hkept)
  · exact settle_ceases hobeyed now

theorem Serving.tearDown (h : s.Serving) (now : α) (e : Ending α) :
    (s.tearDown now e).service.Ceases e := tearDown_ceases h.tallies h.sessions h.endpoint now e

/-- A step of the loop leaves the service serving, unless the loop comes to its end. -/
theorem take_serving (h : s.Serving) (now : α) {turn : Watch.Turn α} {new : List Node}
    (hturn : s.watch.fleet.Amends new turn.next) :
    (s.take now turn).service.Serving ∨ (s.take now turn).service.Ceases .returned := by
  have hu : (s.heeding now turn).Serving :=
    h.amend hturn now (t := { s.countFailures turn.failures with watch := turn.watch })
      rfl rfl rfl rfl rfl rfl
  rw [take_eq]
  match turn.stand with
  | .waiting (.tokens _) =>
    exact .inl ⟨hu.stage, hu.tallies.of_same rfl rfl, hu.sessions, nofun, hu.endpoint⟩
  | .waiting (.catalog previous) =>
    refine .inl ⟨hu.stage, hu.tallies.of_same rfl rfl, Sessions.acquire_own hu.sessions,
      fun l hl => ?_, hu.endpoint⟩
    cases hl
    exact trivial
  | .over (.ok _) => exact .inr (hu.tearDown now .returned)
  | .over (.error _) =>
    exact .inl ⟨hu.stage, hu.tallies.of_same rfl rfl, hu.sessions, nofun, hu.endpoint⟩

end Steps

/-- How serving ends, if an event ends it. -/
def endingBy (s : Service α) : Event → Ending α
  | .cancel => .cancelled
  | .tick | .shutdown => s.loop.ending
  | _ => .returned

/-- The service takes notice that its loop failed. -/
def Notices (f : Watch.Fault α) (s : Service α) (e : Event) : Prop :=
  (∃ instant, s.loop = .failed instant f) ∧ (e = .tick ∨ e = .shutdown)

/-- Whoever serves gives up while the service serves. -/
def GivesUp (s : Service α) (e : Event) : Prop := s.stage = .serving ∧ e = .cancel

/-- Whoever serves gives up while everything is being taken down. -/
def BreaksOff (s : Service α) (e : Event) : Prop :=
  (∃ shutdown ending, s.stage = .stopping shutdown ending) ∧ e = .cancel

section Ending

variable {s : Service α}

omit [Quantity α] in
theorem endingBy_eq_failed {e : Event} {f : Watch.Fault α} :
    s.endingBy e = .failed f ↔ s.Notices f e := by
  have hloop : s.loop.ending = .failed f ↔ ∃ instant, s.loop = .failed instant f := by
    cases s.loop with
    | failed instant g => simp [Loop.ending]
    | idle | asleep | asking | «over» => simp [Loop.ending]
  cases e with
  | tick | shutdown => simp [endingBy, Notices, hloop]
  | serve | answer | probe | stopProbe | halt | cancel => simp [endingBy, Notices]

omit [Quantity α] in
theorem endingBy_eq_cancelled (h : s.stage = .serving) {e : Event} :
    s.endingBy e = .cancelled ↔ s.GivesUp e := by
  have hloop : s.loop.ending ≠ .cancelled := by
    cases s.loop with
    | failed | idle | asleep | asking | «over» => simp [Loop.ending]
  cases e with
  | tick | shutdown => simp [endingBy, GivesUp, hloop]
  | serve | answer | probe | stopProbe | halt | cancel => simp [endingBy, GivesUp, h]

end Ending

section Runs

variable {s : Service α} {e : Ending α}

omit [Quantity α] in
theorem Ceases.stage (h : s.Ceases e) : s.stage ≠ .idle ∧ s.stage ≠ .serving := by
  cases h with
  | stopping hstage _ _ _ => simp [hstage]
  | served hstage _ _ _ => simp [hstage]

theorem step_ceases (h : s.Ceases e) (now : α) {x : Event} (hx : ¬ s.BreaksOff x) :
    (s.step now x).service.Ceases e := by
  have hloop := h.loop
  cases x with
  | serve f =>
    simp only [step]
    split
    · next hidle => exact absurd hidle h.stage.1
    · exact h
  | answer o =>
    simp only [step, hear, hloop]
    exact h
  | probe task x =>
    have htouched := h.of_tends (touch_tends now task x s) (touch_tallies h.tallies now task x)
    exact settle_ceases htouched now
  | tick =>
    simp only [step, expire, hloop]
    exact settle_ceases h now
  | shutdown =>
    simp only [step, Next.andThen, noting]
    split
    · next hserving => exact absurd hserving h.stage.2
    · exact h
  | stopProbe key =>
    have hamends := Fleet.stopProbe_amends h.tallies.orderly h.tallies.tracked key
    have hstopped := h.amend hamends (Fleet.stopProbe_wanes key _) s.watch.stopping
    exact settle_ceases (obeyAll_ceases hstopped now _ hamends.enlists.orders) now
  | halt =>
    have hamends := Fleet.stopProbes_amends h.tallies.orderly h.tallies.tracked s.watch.fleet.keys
    have hhalted := h.amend hamends (Fleet.stopProbes_wanes _ _) true
    exact obeyAll_ceases hhalted now _ hamends.enlists.orders
  | cancel =>
    simp only [step]
    split
    · next hserving => exact absurd hserving h.stage.2
    -- A cancellation now would leave the port bound and the session open.
    · next shutdown ending hstopping => exact absurd ⟨⟨_, _, hstopping⟩, rfl⟩ hx
    · exact h

theorem hear_serving (h : s.Serving) (now : α) (o : Outcome) :
    (s.hear now o).service.Serving ∨ (s.hear now o).service.Ceases .returned := by
  by_cases hasking : ∃ l, s.loop = .asking l
  · obtain ⟨l, hl⟩ := hasking
    have hkeyed := Listing.step_wellKeyed (h.listing l hl) s.source o
    rw [hear_eq now hl]
    cases hstep : (l.step s.source o).1 with
    | ask next =>
      rw [hstep] at hkeyed
      refine .inl ⟨h.stage, h.tallies.of_same rfl rfl, Sessions.acquire_own h.sessions,
        fun l' hl' => ?_, h.endpoint⟩
      cases hl'
      exact hkeyed
    | finish r =>
      rw [hstep] at hkeyed
      obtain ⟨new, hnew⟩ := Watch.follow_receive_amends h.tallies.orderly h.tallies.tracked now
        hkeyed
      exact take_serving h now hnew
  · have hsame : (s.hear now o).service = s := by
      unfold hear
      split
      · next l hl => exact absurd ⟨l, hl⟩ hasking
      · rfl
    rw [hsame]
    exact .inl h

/-- A service serves until an event ends that. -/
theorem step_serving (h : s.Serving) (now : α) (x : Event) :
    (s.step now x).service.Serving ∧ s.endingBy x = .returned ∨
      (s.step now x).service.Ceases (s.endingBy x) := by
  have hsettled {t : Service α} (ht : t.Serving) : (t.settle now).service.Serving := by
    rw [settle_serving now ht.stage]
    exact ht
  cases x with
  | serve f =>
    refine .inl ⟨?_, rfl⟩
    simp only [step, h.stage]
    exact h
  | answer o =>
    obtain hserving | hceases := hear_serving h now o
    · exact .inl ⟨hserving, rfl⟩
    · exact .inr hceases
  | probe task x =>
    have htouched := h.of_tends (touch_tends now task x s) (touch_tallies h.tallies now task x)
    exact .inl ⟨hsettled htouched, rfl⟩
  | tick =>
    simp only [step, expire, endingBy]
    cases s.loop with
    | asleep deadline =>
      simp only
      split
      · have hplain := Watch.follow_wake_plain s.watch now
        obtain hserving | hceases :=
          take_serving h now (hplain.amends h.tallies.orderly h.tallies.tracked)
        · exact .inl ⟨hserving, rfl⟩
        · exact .inr hceases
      · exact .inl ⟨h, rfl⟩
    | failed instant f => exact .inr (h.tearDown now (.failed f))
    | idle | asking | «over» => exact .inl ⟨hsettled h, rfl⟩
  | shutdown =>
    simp only [step, Next.andThen, noting, h.stage, endingBy]
    exact .inr (h.tearDown now s.loop.ending)
  | stopProbe key =>
    have hamends := Fleet.stopProbe_amends h.tallies.orderly h.tallies.tracked key
    have hstopped := h.amend hamends now
      (t := { s with watch := { s.watch with fleet := (s.watch.fleet.stopProbe key).fleet } })
      rfl rfl rfl rfl rfl rfl
    exact .inl ⟨hsettled hstopped, rfl⟩
  | halt =>
    have hamends := Fleet.stopProbes_amends h.tallies.orderly h.tallies.tracked s.watch.fleet.keys
    exact .inl ⟨h.amend hamends now (t := { s with watch := (Shutdown.begin s.watch none).1 })
      rfl rfl rfl rfl rfl rfl, rfl⟩
  | cancel =>
    simp only [step, h.stage, endingBy]
    exact .inr (h.tearDown now .cancelled)

omit [Quantity α] in
theorem Ceases.not_notices (h : s.Ceases e) (f : Watch.Fault α) (x : Event) : ¬ s.Notices f x := by
  rintro ⟨⟨instant, hloop⟩, -⟩
  cases hloop.symm.trans h.loop

omit [Quantity α] in
theorem Ceases.not_givesUp (h : s.Ceases e) (x : Event) : ¬ s.GivesUp x :=
  fun hgives => h.stage.2 hgives.1

theorem run_ceases (h : s.Ceases e) {events : List (α × Event)}
    (hevents : ¬ s.Meets BreaksOff events) :
    (s.run events).Ceases e ∧ (∀ f, ¬ s.Meets (Notices f) events) ∧ ¬ s.Meets GivesUp events := by
  induction events generalizing s with
  | nil => exact ⟨h, fun f => not_meets_nil (Notices f) s, not_meets_nil GivesUp s⟩
  | cons x events ih =>
    rw [meets_cons, not_or] at hevents
    obtain ⟨hceases, hfailed, hcancelled⟩ := ih (step_ceases h x.1 hevents.1) hevents.2
    refine ⟨hceases, fun f => ?_, ?_⟩
    · rw [meets_cons, not_or]
      exact ⟨h.not_notices f x.2, hfailed f⟩
    · rw [meets_cons, not_or]
      exact ⟨h.not_givesUp x.2, hcancelled⟩

/-- How a run went on from a service that serves. -/
inductive Course (s : Service α) (events : List (α × Event)) : Prop where
  | serving : (s.run events).Serving → Course s events
  | ceases {e : Ending α} : (s.run events).Ceases e →
    (∀ f, e = .failed f ↔ s.Meets (Notices f) events) →
    (e = .cancelled ↔ s.Meets GivesUp events) → Course s events

/-- The first event that ends serving says how it ends. -/
theorem run_serving (h : s.Serving) {events : List (α × Event)}
    (hevents : ¬ s.Meets BreaksOff events) : s.Course events := by
  induction events generalizing s with
  | nil => exact .serving h
  | cons x events ih =>
    rw [meets_cons, not_or] at hevents
    have hfailed (f : Watch.Fault α) : s.Notices f x.2 ↔ s.endingBy x.2 = .failed f :=
      endingBy_eq_failed.symm
    have hcancelled : s.GivesUp x.2 ↔ s.endingBy x.2 = .cancelled :=
      (endingBy_eq_cancelled h.stage).symm
    obtain ⟨hserving, hreturns⟩ | hceases := step_serving h x.1 x.2
    · -- Serving goes on: this event is neither kind, and the rest of the run decides.
      rw [hreturns] at hcancelled
      simp only [hreturns] at hfailed
      cases ih hserving hevents.2 with
      | serving hserves => exact .serving hserves
      | ceases hover hf hc =>
        refine .ceases hover (fun f => ?_) ?_
        · rw [meets_cons, hfailed, hf]
          simp
        · rw [meets_cons, hcancelled, hc]
          simp
    · -- This event ended serving, and no later one can say otherwise.
      obtain ⟨hover, hnotices, hgives⟩ := run_ceases hceases hevents.2
      refine .ceases hover (fun f => ?_) ?_
      · rw [meets_cons, hfailed, or_iff_left (hnotices f)]
      · rw [meets_cons, hcancelled, or_iff_left hgives]

/-- A service that is being taken down is through when it looks at tasks that have all ended. -/
theorem Ceases.tick_served (h : s.Ceases e) {shutdown : Shutdown α} {ending : Ending α}
    (hstage : s.stage = .stopping shutdown ending)
    (hended : ∀ x ∈ s.crew.tasks, x.ending?.isSome = true) (now : α) :
    (s.step now .tick).service.stage = .served ending := by
  have hnone : ∀ task, s.watch.fleet.isUnfinished task = false := by
    intro task
    rw [Bool.eq_false_iff]
    intro hunfinished
    obtain ⟨x, hx, hgoes⟩ := (h.tallies.isUnfinished task).mp hunfinished
    have hsome := hended x (List.mem_of_getElem? hx)
    rw [hgoes] at hsome
    cases hsome
  have hover := Shutdown.advance_over hnone shutdown now
  have hthrough : (s.advance now).service.stage = .served ending := by
    simp only [advance, hstage, hover]
    rfl
  have hsettled : (s.settle now).service.stage = .served ending := by
    rw [settle, Next.andThen, advance, hthrough]
    exact hthrough
  simp only [step, expire, h.loop]
  exact hsettled

end Runs

/-- A service that was made and has done nothing yet. -/
structure New (s : Service α) : Prop where
  stage : s.stage = .idle
  loop : s.loop = .idle
  fleet : s.watch.fleet = {}
  tasks : s.crew.tasks = []
  sessions : s.sessions = []

theorem ofSettings_new {settings : Settings} {now : Float} {s : Service Float}
    (h : ofSettings settings now = .ok s) : s.New := by
  unfold ofSettings at h
  split at h
  · cases h
  · split at h
    · cases h
    · split at h
      · cases h
      · next watch hwatch =>
        split at h
        · cases h
        · cases h
          refine ⟨rfl, rfl, ?_, rfl, rfl⟩
          unfold watchOf at hwatch
          split at hwatch
          · cases hwatch
          · cases hwatch
            rfl

/-- Serving begins, unless the watch was told to stop before. -/
theorem serve_serving {s : Service α} (h : s.New) (now : α) :
    (s.step now (.serve none)).service.Serving ∨
      (s.step now (.serve none)).service.Ceases .returned := by
  have htallies : s.Tallies 0 := by
    refine ⟨?_, ?_, ?_, fun task => ?_⟩
    · rw [h.fleet]
      exact Fleet.empty_orderly
    · rw [h.fleet]
      exact Fleet.empty_tracked
    · rw [h.fleet, h.tasks]
      rfl
    · rw [h.fleet, Probe.Crew.ending?, h.tasks]
      rfl
  have hown : s.sessions.Own := by
    rw [h.sessions]
    exact ⟨by simp, by simp⟩
  have hbound : Serving { s with
      endpoint := (Metrics.Endpoint.start false).1, stage := .serving } :=
    ⟨rfl, htallies.of_same rfl rfl, hown, fun l hl => (by cases hl.symm.trans h.loop), rfl⟩
  -- The first turn of the loop is a step like the later ones.
  have hbegin : (s.step now (.serve none)).service =
      (take now (s.watch.run now)
        { s with endpoint := (Metrics.Endpoint.start false).1, stage := .serving }).service := by
    simp only [step, h.stage]
    rfl
  rw [hbegin]
  exact take_serving hbound now
    ((s.watch.run_plain now).amends htallies.orderly htallies.tracked)

end Service

end FleetProbe
