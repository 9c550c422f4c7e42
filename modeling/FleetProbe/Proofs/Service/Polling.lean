import FleetProbe.Service
import FleetProbe.Proofs.Fleet.Rounds
import FleetProbe.Proofs.Probe.Connection
/-!
What ends the loop of polls of a running service. As long as nobody stops the watch, shuts the
service down or cancels it, the loop goes on whatever else happens, until a fatal answer of the
catalog.
-/

namespace FleetProbe.Service

open Catalog

variable {α : Type}

/-- What a service does while it keeps its loop as it is. -/
structure Holds (s t : Service α) : Prop where
  loop : t.loop = s.loop
  begun : s.stage ≠ .idle → t.stage ≠ .idle

/-- What a service does for its probes alone. -/
structure Steady (s t : Service α) : Prop where
  loop : t.loop = s.loop
  stage : t.stage = s.stage
  watch : ∃ fleet, t.watch = { s.watch with fleet }

namespace Holds

variable {s t u : Service α}

theorem refl (s : Service α) : Holds s s := ⟨rfl, id⟩

theorem trans (h : Holds s t) (h' : Holds t u) : Holds s u :=
  ⟨h'.loop.trans h.loop, fun hs => h'.begun (h.begun hs)⟩

end Holds

namespace Steady

variable {s t u : Service α}

theorem refl (s : Service α) : Steady s s := ⟨rfl, rfl, s.watch.fleet, rfl⟩

theorem trans (h : Steady s t) (h' : Steady t u) : Steady s u := by
  obtain ⟨fleet, hwatch⟩ := h'.watch
  obtain ⟨_, hwatch'⟩ := h.watch
  exact ⟨h'.loop.trans h.loop, h'.stage.trans h.stage, fleet, by rw [hwatch, hwatch']⟩

theorem holds (h : Steady s t) : Holds s t := ⟨h.loop, fun hs => by rw [h.stage]; exact hs⟩

end Steady

variable [Quantity α]

theorem touch_steady (now : α) (task : Nat) (e : Probe.Event) (s : Service α) :
    Steady s (s.touch now task e).service := by
  unfold touch
  simp only
  split
  · exact ⟨rfl, rfl, s.watch.fleet, rfl⟩
  · exact ⟨rfl, rfl, _, rfl⟩

/-- To carry out orders is to create tasks and to let things happen to them. -/
theorem obeyAll_related {R : Service α → Service α → Prop} (hrefl : ∀ s, R s s)
    (htrans : ∀ s t u, R s t → R t u → R s u) (now : α)
    (hspawn : ∀ (s : Service α) n, R s { s with crew := s.crew.spawn n s.config false })
    (htouch : ∀ task e (s : Service α), R s (s.touch now task e).service)
    (orders : List Fleet.Order) (s : Service α) : R s (s.obeyAll now orders).service := by
  have hobey (s : Service α) (o : Fleet.Order) : R s (s.obey now o).service := by
    cases o with
    | start task n => exact htrans _ _ _ (hspawn s n) (htouch ..)
    | stop task => exact htouch ..
    | cancel task => exact htouch ..
  have hfold (next : Next α) (h : R s next.service) :
      R s (orders.foldl (fun next o => next.andThen fun s => s.obey now o) next).service := by
    induction orders generalizing next with
    | nil => exact h
    | cons o orders ih => exact ih _ (htrans _ _ _ h (hobey _ o))
  exact hfold ⟨s, []⟩ (hrefl s)

theorem obeyAll_steady (now : α) (orders : List Fleet.Order) (s : Service α) :
    Steady s (s.obeyAll now orders).service :=
  obeyAll_related Steady.refl (fun _ _ _ => Steady.trans) now
    (fun s _ => ⟨rfl, rfl, s.watch.fleet, rfl⟩) (touch_steady now) orders s

omit [Quantity α] in
theorem close_holds (e : Ending α) (s : Service α) : Holds s (s.close e).service :=
  ⟨rfl, by simp [close]⟩

theorem advance_holds (now : α) (s : Service α) : Holds s (s.advance now).service := by
  unfold advance
  split
  · next shutdown e hstage =>
    simp only
    generalize shutdown.advance s.watch.fleet now = next
    -- A shutdown that goes on, or comes to its end, leaves the loop as it is.
    have hnoted : Holds s { s with stage := .stopping next.shutdown e } := ⟨rfl, by simp⟩
    have hobeyed := hnoted.trans (obeyAll_steady now next.orders _).holds
    split
    · exact hobeyed.trans (close_holds e _)
    · exact hobeyed
  · exact .refl s

theorem settle_holds (now : α) (s : Service α) : Holds s (s.settle now).service :=
  (advance_holds now s).trans (advance_holds now _)

/-- The loop is over, or will be once the service takes notice. -/
structure Down (s : Service α) : Prop where
  begun : s.stage ≠ .idle
  ended : s.loop = .over ∨ ∃ instant f, s.loop = .failed instant f

omit [Quantity α] in
theorem Down.of_holds {s t : Service α} (h : s.Down) (hst : Holds s t) : t.Down :=
  ⟨hst.begun h.begun, by rw [hst.loop]; exact h.ended⟩

omit [Quantity α] in
theorem Down.isPolling {s : Service α} (h : s.Down) : s.isPolling = false := by
  obtain hloop | ⟨instant, f, hloop⟩ := h.ended
  · rw [Service.isPolling, hloop]
  · rw [Service.isPolling, hloop]

/-- Taking down begins with the end of the loop. -/
theorem tearDown_holds (now : α) (e : Ending α) (s : Service α) :
    ∃ t : Service α, t.loop = .over ∧ t.stage ≠ .idle ∧ Holds t (s.tearDown now e).service := by
  unfold tearDown
  simp only
  generalize Shutdown.begin s.watch ((Quantity.ofInt? Shutdown.patience).map (now + ·)) = begun
  obtain ⟨watch, next⟩ := begun
  refine ⟨{ s with
      watch := { watch with running := false }, loop := .over,
      stage := .stopping next.shutdown e }, rfl, by simp, ?_⟩
  have hobeyed := (obeyAll_steady now next.orders { s with
      watch := { watch with running := false }, loop := .over,
      stage := .stopping next.shutdown e }).holds
  split
  · exact hobeyed.trans (close_holds e _)
  · exact hobeyed.trans (settle_holds now _)

theorem tearDown_loop (now : α) (e : Ending α) (s : Service α) :
    (s.tearDown now e).service.loop = .over := by
  obtain ⟨t, hover, -, hholds⟩ := tearDown_holds now e s
  exact hholds.loop.trans hover

theorem tearDown_down (now : α) (e : Ending α) (s : Service α) :
    (s.tearDown now e).service.Down := by
  obtain ⟨t, hover, hbegun, hholds⟩ := tearDown_holds now e s
  exact Down.of_holds ⟨hbegun, .inl hover⟩ hholds

theorem step_down {s : Service α} (h : s.Down) (now : α) (e : Event) :
    (s.step now e).service.Down := by
  have hself : Holds s s := .refl s
  cases e with
  | serve f =>
    simp only [step]
    split
    · next hidle => exact absurd hidle h.begun
    · exact h
  | answer o =>
    simp only [step, hear]
    split
    · next l hl =>
      obtain hloop | ⟨instant, f, hloop⟩ := h.ended
      · cases hl.symm.trans hloop
      · cases hl.symm.trans hloop
    · exact h
  | probe task e =>
    have htouched := h.of_holds (touch_steady now task e s).holds
    exact htouched.of_holds (settle_holds now _)
  | tick =>
    simp only [step, expire]
    split
    · next deadline hl =>
      obtain hloop | ⟨instant, f, hloop⟩ := h.ended
      · cases hl.symm.trans hloop
      · cases hl.symm.trans hloop
    · exact tearDown_down now _ s
    · exact h.of_holds (settle_holds now s)
  | shutdown =>
    simp only [step, Next.andThen, noting]
    split
    · exact tearDown_down now _ s
    · exact h
  | stopProbe key =>
    have hstopped : Holds s { s with
        watch := { s.watch with fleet := (s.watch.fleet.stopProbe key).fleet } } := ⟨rfl, id⟩
    have hobeyed := (h.of_holds hstopped).of_holds
      (obeyAll_steady now (s.watch.fleet.stopProbe key).orders _).holds
    exact hobeyed.of_holds (settle_holds now _)
  | halt =>
    simp only [step]
    generalize Shutdown.begin s.watch none = begun
    obtain ⟨watch, next⟩ := begun
    have hhalted : Holds s { s with watch } := ⟨rfl, id⟩
    exact (h.of_holds hhalted).of_holds (obeyAll_steady now next.orders _).holds
  | cancel =>
    simp only [step]
    split
    · exact tearDown_down now _ s
    · exact ⟨by simp, h.ended⟩
    · exact h

/-- The loop of polls is under way, and nothing at hand ends it. -/
structure Polls (s : Service α) : Prop where
  serving : s.stage = .serving
  waits : s.isPolling = true
  going : s.watch.Going

theorem Polls.of_steady {s t : Service α} (h : s.Polls) (hst : Steady s t) : t.Polls := by
  obtain ⟨fleet, hwatch⟩ := hst.watch
  refine ⟨hst.stage.trans h.serving, ?_, ?_⟩
  · have hwaits := h.waits
    unfold isPolling at hwaits ⊢
    rw [hst.loop]
    exact hwaits
  · rw [hwatch]
    exact h.going.of_fleet fleet

/-- Where nothing is being taken down there is nothing to look at. -/
theorem settle_eq (now : α) {s : Service α}
    (h : ∀ shutdown e, s.stage ≠ .stopping shutdown e) : s.settle now = ⟨s, []⟩ := by
  have hadvance : s.advance now = ⟨s, []⟩ := by
    unfold advance
    split
    · next shutdown e hstage => exact absurd hstage (h shutdown e)
    · rfl
  simp only [settle, Next.andThen, hadvance, List.append_nil]

theorem settle_serving (now : α) {s : Service α} (h : s.stage = .serving) :
    (s.settle now).service = s := by
  rw [settle_eq now (by simp [h])]

/-- A service that took over a step of its loop, but for where the loop stands then. -/
def heeding (now : α) (turn : Watch.Turn α) (s : Service α) : Service α :=
  (obeyAll now turn.orders { s.countFailures turn.failures with watch := turn.watch }).service

theorem take_eq (now : α) (s : Service α) (turn : Watch.Turn α) :
    (s.take now turn).service =
      match turn.stand with
      | .waiting (.tokens deadline) => { s.heeding now turn with loop := .asleep deadline }
      | .waiting (.catalog previous) =>
        ((s.heeding now turn).ask (.services previous (s.heeding now turn).tag)).service
      | .over (.ok _) => ((s.heeding now turn).tearDown now .returned).service
      | .over (.error f) => { s.heeding now turn with loop := .failed now f } := by
  unfold take
  match turn.stand with
  | .waiting (.tokens _) => rfl
  | .waiting (.catalog _) => rfl
  | .over (.ok _) => rfl
  | .over (.error _) => rfl

theorem take_steady (now : α) (s : Service α) (turn : Watch.Turn α) :
    ∃ u, Steady { s.countFailures turn.failures with watch := turn.watch } u ∧
      (s.take now turn).service =
        match turn.stand with
        | .waiting (.tokens deadline) => { u with loop := .asleep deadline }
        | .waiting (.catalog previous) => (u.ask (.services previous u.tag)).service
        | .over (.ok _) => (u.tearDown now .returned).service
        | .over (.error f) => { u with loop := .failed now f } :=
  ⟨s.heeding now turn, obeyAll_steady now turn.orders _, take_eq now s turn⟩

theorem take_waits (now : α) {s : Service α} (hserving : s.stage = .serving)
    {turn : Watch.Turn α} (h : turn.Waits) : (s.take now turn).service.Polls := by
  obtain ⟨⟨wait, hwait⟩, hgoing⟩ := h
  obtain ⟨u, hsteady, htake⟩ := take_steady now s turn
  obtain ⟨fleet, hwatch⟩ := hsteady.watch
  have hstage : u.stage = .serving := hsteady.stage.trans hserving
  have hu : u.watch.Going := by
    rw [hwatch]
    exact hgoing.of_fleet fleet
  rw [htake, hwait]
  cases wait with
  | tokens deadline => exact ⟨hstage, rfl, hu⟩
  | catalog previous => exact ⟨hstage, rfl, hu⟩

theorem take_fails (now : α) {s : Service α} (hserving : s.stage = .serving)
    {turn : Watch.Turn α} {f : Watch.Fault α} (h : turn.stand = .over (.error f)) :
    (s.take now turn).service.Down := by
  obtain ⟨u, hsteady, htake⟩ := take_steady now s turn
  have hstage : u.stage = .serving := hsteady.stage.trans hserving
  rw [htake, h]
  exact ⟨by simp [hstage], .inr ⟨now, f, rfl⟩⟩

/-- Nobody stops the watch, shuts the service down or cancels it. -/
def Event.Leaves : Event → Prop
  | .shutdown | .halt | .cancel => False
  | _ => True

/-- An answer is one that can be expected of a catalog; other events are as they are. -/
def Event.Expected : Event → Prop
  | .answer o => o.Expected
  | _ => True

/-- The service waits for the catalog, and gets an answer that no poll survives. -/
def Struck (s : Service α) (e : Event) : Prop :=
  ∃ l o, s.loop = .asking l ∧ e = .answer o ∧ l.Fatal o

/-- An answer takes the poll under way on, or the loop to what follows the poll. -/
theorem hear_eq (now : α) {s : Service α} {l : Listing} (hl : s.loop = .asking l) (o : Outcome) :
    (s.hear now o).service =
      match (l.step s.source o).1 with
      | .ask next => (s.ask next).service
      | .finish r => (s.take now (Watch.follow now (s.watch.receive r))).service := by
  simp only [hear, hl]
  cases l.step s.source o with
  | mk turn notices =>
    cases turn with
    | ask next => rfl
    | finish r => rfl

theorem step_struck {s : Service α} (h : s.Polls) (now : α) {e : Event} (hstruck : s.Struck e) :
    (s.step now e).service.Down := by
  obtain ⟨l, o, hl, rfl, hfatal⟩ := hstruck
  obtain ⟨fault, hstep, hfault⟩ := Listing.step_fatal s.source hfatal
  have hfails := Watch.follow_receive_error s.watch now hfault
  rw [step, hear_eq now hl, hstep]
  exact take_fails now h.serving hfails

/-- Only a fatal answer ends the loop. -/
theorem step_polls {s : Service α} (h : s.Polls) (now : α) {e : Event} (hleaves : e.Leaves)
    (hexpected : e.Expected) (hspared : ¬ s.Struck e) : (s.step now e).service.Polls := by
  cases e with
  | serve f =>
    simp only [step]
    rw [h.serving]
    exact h
  | answer o =>
    by_cases hasking : ∃ l, s.loop = .asking l
    · obtain ⟨l, hl⟩ := hasking
      have hfatal : ¬ l.Fatal o := fun hfatal => hspared ⟨l, o, hl, rfl, hfatal⟩
      rw [step, hear_eq now hl]
      obtain ⟨v, name, rest, found, -, hstep⟩ | ⟨r, hstep, hforeseen⟩ :=
        Listing.step_foreseen s.source hexpected hfatal
      · rw [hstep]
        exact ⟨h.serving, rfl, h.going⟩
      · rw [hstep]
        exact take_waits now h.serving (h.going.receive now hforeseen)
    · have hsame : (s.hear now o).service = s := by
        unfold hear
        split
        · next l hl => exact absurd ⟨l, hl⟩ hasking
        · rfl
      rw [step, hsame]
      exact h
  | probe task e =>
    have htouched := h.of_steady (touch_steady now task e s)
    have hsettled := settle_serving now htouched.serving
    simp only [step, Next.andThen, hsettled]
    exact htouched
  | tick =>
    simp only [step, expire]
    split
    · split
      · exact take_waits now h.serving (h.going.wake now)
      · exact h
    · next hl =>
      have hwaits := h.waits
      rw [isPolling, hl] at hwaits
      cases hwaits
    · rw [settle_serving now h.serving]
      exact h
  | shutdown => exact absurd hleaves id
  | stopProbe key =>
    have hstopped : Steady s { s with
        watch := { s.watch with fleet := (s.watch.fleet.stopProbe key).fleet } } :=
      ⟨rfl, rfl, _, rfl⟩
    have hobeyed := h.of_steady
      (hstopped.trans (obeyAll_steady now (s.watch.fleet.stopProbe key).orders _))
    have hsettled := settle_serving now hobeyed.serving
    simp only [step, Next.andThen, noting, hsettled]
    exact hobeyed
  | halt => exact absurd hleaves id
  | cancel => exact absurd hleaves id

def run (s : Service α) (events : List (α × Event)) : Service α :=
  events.foldl (fun s e => (s.step e.1 e.2).service) s

/-- Some time in a run an event finds the service in some way. -/
def Meets (P : Service α → Event → Prop) (s : Service α) (events : List (α × Event)) : Prop :=
  ∃ before e after, events = before ++ e :: after ∧ P (s.run before) e.2

theorem not_meets_nil (P : Service α → Event → Prop) (s : Service α) : ¬ s.Meets P [] := by
  rintro ⟨before, e, after, hevents, -⟩
  cases before with
  | nil => cases hevents
  | cons first before => cases hevents

theorem meets_cons (P : Service α → Event → Prop) (s : Service α) (e : α × Event)
    (events : List (α × Event)) :
    s.Meets P (e :: events) ↔ P s e.2 ∨ (s.step e.1 e.2).service.Meets P events := by
  constructor
  · rintro ⟨before, e', after, hevents, hmet⟩
    cases before with
    | nil =>
      cases hevents
      exact .inl hmet
    | cons first before =>
      cases hevents
      exact .inr ⟨before, e', after, rfl, hmet⟩
  · rintro (hmet | ⟨before, e', after, rfl, hmet⟩)
    · exact ⟨[], e, events, rfl, hmet⟩
    · exact ⟨e :: before, e', after, rfl, hmet⟩

/-- A fatal answer comes some time. -/
def Falls (s : Service α) (events : List (α × Event)) : Prop :=
  ∃ before e after, events = before ++ e :: after ∧ (s.run before).Struck e.2

theorem run_down {s : Service α} (h : s.Down) (events : List (α × Event)) :
    (s.run events).Down := by
  induction events generalizing s with
  | nil => exact h
  | cons e events ih => exact ih (step_down h e.1 e.2)

theorem falls_cons (s : Service α) (e : α × Event) (events : List (α × Event)) :
    s.Falls (e :: events) ↔ s.Struck e.2 ∨ (s.step e.1 e.2).service.Falls events :=
  meets_cons Struck s e events

/-- A service that polls does so until a fatal answer. -/
theorem run_polls {s : Service α} (h : s.Polls) (events : List (α × Event))
    (hleaves : ∀ e ∈ events, e.2.Leaves) (hexpected : ∀ e ∈ events, e.2.Expected) :
    (s.run events).isPolling = true ↔ ¬ s.Falls events := by
  induction events generalizing s with
  | nil =>
    exact ⟨fun _ => not_meets_nil Struck s, fun _ => h.waits⟩
  | cons e events ih =>
    rw [falls_cons]
    by_cases hstruck : s.Struck e.2
    · have hdown := run_down (step_struck h e.1 hstruck) events
      have hsilent : (s.run (e :: events)).isPolling = false := hdown.isPolling
      rw [hsilent]
      exact ⟨fun hp => absurd hp Bool.false_ne_true, fun hn => absurd (.inl hstruck) hn⟩
    · have hnext := step_polls h e.1 (hleaves e List.mem_cons_self)
        (hexpected e List.mem_cons_self) hstruck
      have hrest := ih hnext (fun f hf => hleaves f (List.mem_cons_of_mem _ hf))
        fun f hf => hexpected f (List.mem_cons_of_mem _ hf)
      have hsame : s.run (e :: events) = (s.step e.1 e.2).service.run events := rfl
      rw [hsame, hrest, not_or]
      exact ⟨fun hn => ⟨hstruck, hn⟩, fun hn => hn.2⟩

/-- A service that was made and has done nothing yet, with a bucket that can hold what a poll
takes. -/
structure Fresh (s : Service α) : Prop where
  stage : s.stage = .idle
  running : s.watch.running = false
  wanted : s.watch.stopping = false
  affords : s.watch.bucket.Serves (.whole s.watch.cost)

theorem serve_polls {s : Service α} (h : s.Fresh) (now : α) :
    (s.step now (.serve none)).service.Polls := by
  have hbegin : (s.step now (.serve none)).service =
      (take now (s.watch.run now)
        { s with endpoint := (Metrics.Endpoint.start false).1, stage := .serving }).service := by
    simp only [step, h.stage]
    rfl
  rw [hbegin]
  exact take_waits now rfl (Watch.Going.run h.running h.wanted h.affords now)

/-- **What the catalog can do to the polls.** A poll is over after some answers, and ends with a
snapshot or a failed query exactly when none of them is fatal; and while nobody ends it, the loop of
polls goes on exactly as long as no fatal answer came. -/
theorem polling_iff_spared (s : Service α) (h : s.Fresh) (now : α) :
    (∀ (previous : Int) (answers : Nat → Outcome), (∀ i, (answers i).Expected) →
      let poll := Listing.services previous s.tag
      ∃ n r, poll.after s.source ((List.range n).map answers) = .finish r ∧
        (Foreseen r ↔ ¬ poll.Meets s.source ((List.range n).map answers))) ∧
    ∀ events : List (α × Event), (∀ e ∈ events, e.2.Leaves) → (∀ e ∈ events, e.2.Expected) →
      let serving := (s.step now (.serve none)).service
      (serving.run events).isPolling = true ↔ ¬ serving.Falls events := by
  constructor
  · intro previous answers hexpected poll
    obtain ⟨n, r, hover⟩ := poll.finishes s.source answers
    have hall : ∀ o ∈ (List.range n).map answers, o.Expected := by
      intro o ho
      obtain ⟨i, -, rfl⟩ := List.mem_map.mp ho
      exact hexpected i
    exact ⟨n, r, hover, poll.after_foreseen s.source _ hall hover⟩
  · intro events hleaves hexpected
    exact run_polls (serve_polls h now) events hleaves hexpected

/-- A service that polls once a second at most. -/
def unhurried : Service Rat where
  source := ⟨"http://c", "10m"⟩
  tag := "m"
  config := .secondly
  watch := { bucket := ⟨.whole 1, .whole 1, 1, 1, .whole 0⟩, cost := 1 }
  crew := { metrics := { bounds := [] } }

theorem unhurried_fresh : unhurried.Fresh := ⟨rfl, rfl, rfl, ⟨by decide, rfl, rfl, rfl⟩⟩

/-- An answer with some body. -/
def plainly (body : String) : Outcome :=
  .ok ⟨200, [("X-Consul-Index", "1")], .ok (body.toList.map fun c => c.toNat.toUInt8)⟩

/-- Answers of all kinds, none of them fatal. -/
def troubled : List (Rat × Event) :=
  [(0, .answer (.error ⟨.exchange, "ClientError", ""⟩)), (1, .tick),
    (1, .answer (plainly "no document")), (2, .tick),
    (2, .answer (plainly "\x7b\"c\": [\"m\"]\x7d")),
    (2, .answer (.ok ⟨500, [], .ok []⟩)), (3, .tick)]

theorem troubled_polls :
    ((unhurried.step 0 (.serve none)).service.run troubled).isPolling = true ∧
      ¬ (unhurried.step 0 (.serve none)).service.Falls troubled := by
  obtain ⟨-, hloop⟩ := polling_iff_spared unhurried unhurried_fresh 0
  have hpolls : ((unhurried.step 0 (.serve none)).service.run troubled).isPolling = true := by
    decide +kernel
  have hleaves : ∀ e ∈ troubled, e.2.Leaves := by simp [troubled, Event.Leaves]
  have hexpected : ∀ e ∈ troubled, e.2.Expected := by
    simp [troubled, Event.Expected, Outcome.Expected, plainly, Fault.isQuery]
  exact ⟨hpolls, (hloop troubled hleaves hexpected).mp hpolls⟩

/-- A catalog that lists a service whose name is half a character. -/
def broken : List (Rat × Event) := [(0, .answer (plainly "\x7b\"\\ud800\": [\"m\"]\x7d"))]

/-- So it is not so that nothing the catalog answers ends the loop of polls. -/
theorem broken_ends_polls :
    ¬ ∀ (s : Service Rat) (now : Rat) (events : List (Rat × Event)), s.Fresh →
      (∀ e ∈ events, e.2.Leaves) → (∀ e ∈ events, e.2.Expected) →
      ((s.step now (.serve none)).service.run events).isPolling = true := by
  intro h
  have hpolls := h unhurried 0 broken unhurried_fresh
    (by intro e he; cases List.mem_singleton.mp he; trivial)
    (by intro e he; cases List.mem_singleton.mp he; intro f hf; cases hf)
  have hsilent : ((unhurried.step 0 (.serve none)).service.run broken).isPolling = false := by
    decide +kernel
  rw [hsilent] at hpolls
  exact Bool.false_ne_true hpolls

end FleetProbe.Service
