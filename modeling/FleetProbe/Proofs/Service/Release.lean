import FleetProbe.Proofs.Service.Teardown
/-!
When serving leaves nothing behind. A cancellation that strikes while everything is being taken down
ends serving at once: the port stays bound for good, and with it whatever was not yet taken down.
Without one, all of it is given back.
-/

namespace FleetProbe.Service

variable {α : Type} [Quantity α] {s t : Service α} {e : Ending α}

/-- Serving was cancelled before the port was given back. -/
structure Deserted (s : Service α) : Prop where
  stage : s.stage = .served .cancelled
  loop : s.loop = .over
  endpoint : s.endpoint = .bound

omit [Quantity α] in
theorem Deserted.of_tends (h : s.Deserted) (hst : Tends s t) : t.Deserted :=
  ⟨hst.steady.stage.trans h.stage, hst.steady.loop.trans h.loop, hst.endpoint.trans h.endpoint⟩

theorem Deserted.settle (h : s.Deserted) (now : α) : (s.settle now).service.Deserted := by
  rw [settle_eq now (by simp [h.stage])]
  exact h

/-- Nothing takes up again what was left. -/
theorem step_deserted (h : s.Deserted) (now : α) (x : Event) :
    (s.step now x).service.Deserted := by
  cases x with
  | serve f =>
    simp only [step, h.stage]
    exact h
  | answer o =>
    simp only [step, hear, h.loop]
    exact h
  | probe task x => exact (h.of_tends (touch_tends now task x s)).settle now
  | tick =>
    simp only [step, expire, h.loop]
    exact h.settle now
  | shutdown =>
    simp only [step, Next.andThen, noting, h.stage]
    exact h
  | stopProbe key =>
    have hstopped : Deserted { s with
        watch := { s.watch with fleet := (s.watch.fleet.stopProbe key).fleet } } :=
      ⟨h.stage, h.loop, h.endpoint⟩
    exact (hstopped.of_tends (obeyAll_tends now _ _)).settle now
  | halt =>
    have hhalted : Deserted { s with watch := (Shutdown.begin s.watch none).1 } :=
      ⟨h.stage, h.loop, h.endpoint⟩
    exact hhalted.of_tends (obeyAll_tends now _ _)
  | cancel =>
    simp only [step, h.stage]
    exact h

theorem run_deserted (h : s.Deserted) (events : List (α × Event)) : (s.run events).Deserted := by
  induction events generalizing s with
  | nil => exact h
  | cons x events ih => exact ih (step_deserted h x.1 x.2)

omit [Quantity α] in
theorem Deserted.not_released (h : s.Deserted) : ¬ s.Released := fun hreleased => by
  cases h.endpoint.symm.trans hreleased.endpoint

/-- A cancellation meanwhile ends the taking down, wherever it stands. -/
theorem Ceases.desert (h : s.Ceases e) (now : α) {x : Event} (hx : s.BreaksOff x) :
    (s.step now x).service.Deserted := by
  obtain ⟨⟨shutdown, ending, hstage⟩, rfl⟩ := hx
  simp only [step, hstage]
  cases h with
  | stopping _ hclosing _ hbound => exact ⟨rfl, hclosing.loop, hbound⟩
  | served hserved _ _ _ => cases hserved.symm.trans hstage

theorem Ceases.run_deserted (h : s.Ceases e) {events : List (α × Event)}
    (hevents : s.Meets BreaksOff events) : (s.run events).Deserted := by
  induction events generalizing s with
  | nil => exact absurd hevents (not_meets_nil BreaksOff s)
  | cons x events ih =>
    by_cases hx : s.BreaksOff x.2
    · exact Service.run_deserted (h.desert x.1 hx) events
    · rw [meets_cons] at hevents
      exact ih (step_ceases h x.1 hx) (hevents.resolve_left hx)

theorem Serving.run_deserted (h : s.Serving) {events : List (α × Event)}
    (hevents : s.Meets BreaksOff events) : (s.run events).Deserted := by
  induction events generalizing s with
  | nil => exact absurd hevents (not_meets_nil BreaksOff s)
  | cons x events ih =>
    -- Nothing is being taken down yet, so it cannot be broken off.
    have hx : ¬ s.BreaksOff x.2 := by
      rintro ⟨⟨shutdown, ending, hstage⟩, -⟩
      cases hstage.symm.trans h.stage
    rw [meets_cons] at hevents
    have hrest := hevents.resolve_left hx
    obtain ⟨hserving, -⟩ | hceases := step_serving h x.1 x.2
    · exact ih hserving hrest
    · exact hceases.run_deserted hrest

/-- **When serving leaves nothing behind.** Let the port of a service be bound. Whatever happens from
then on, however often and in whatever order, when serving has ended the loop of polls is over, every
task ever created has ended, the port is given back, the session with the catalog is closed, and
serving ends with the fault of the loop just when that is what the service took notice of, and as
cancelled just when whoever serves gave up, exactly if the taking down itself was not broken off. One
that was broken off leaves the port bound. What is being taken down is through as soon as it looks at
tasks that have all ended. -/
theorem served_released_iff (s : Service α) (h : s.New) (now : α) (events : List (α × Event)) :
    let serving := (s.step now (.serve none)).service
    let t := serving.run events
    (∀ e, t.stage = .served e →
      ((t.Released ∧ (∀ f, e = .failed f ↔ serving.Meets (Notices f) events) ∧
        (e = .cancelled ↔ serving.Meets GivesUp events)) ↔ ¬ serving.Meets BreaksOff events)) ∧
    (serving.Meets BreaksOff events → t.stage = .served .cancelled ∧ t.endpoint = .bound) ∧
    ∀ shutdown e, t.stage = .stopping shutdown e →
      (∀ x ∈ t.crew.tasks, x.ending?.isSome = true) →
      ∀ time, (t.step time .tick).service.stage = .served e := by
  intro serving t
  have hserve := serve_serving h now
  have hdeserted : serving.Meets BreaksOff events → t.Deserted := fun hevents =>
    hserve.elim (·.run_deserted hevents) (·.run_deserted hevents)
  have hcourse : ¬ serving.Meets BreaksOff events → serving.Course events := by
    intro hevents
    obtain hserving | hceases := hserve
    · exact run_serving hserving hevents
    · obtain ⟨hover, hnotices, hgives⟩ := run_ceases hceases hevents
      exact .ceases hover (fun f => by simpa using hnotices f) (by simpa using hgives)
  refine ⟨fun e he => ⟨fun hdone hevents => (hdeserted hevents).not_released hdone.1,
    fun hevents => ?_⟩, fun hevents => ⟨(hdeserted hevents).stage, (hdeserted hevents).endpoint⟩,
    fun shutdown e he hended time => ?_⟩
  · cases hcourse hevents with
    | serving hserving => cases he.symm.trans hserving.stage
    | ceases hceases hfailed hcancelled =>
      obtain ⟨rfl, hreleased⟩ := hceases.released he
      exact ⟨hreleased, hfailed, hcancelled⟩
  · have hevents : ¬ serving.Meets BreaksOff events := fun hevents => by
      cases he.symm.trans (hdeserted hevents).stage
    cases hcourse hevents with
    | serving hserving => cases he.symm.trans hserving.stage
    | ceases hceases _ _ => exact hceases.tick_served he hended time

def isServed (s : Service α) : Bool :=
  match s.stage with
  | .served _ => true
  | _ => false

omit [Quantity α] in
theorem isServed_iff : s.isServed = true ↔ ∃ e, s.stage = .served e := by
  unfold isServed
  split
  · next e hstage => simp [hstage]
  · next hnone => simpa using hnone

theorem unhurried_new : unhurried.New := ⟨rfl, rfl, rfl, rfl, rfl⟩

/-- A service shuts down, and is told to once more, while a probe's connection is being opened; the
probe runs out of time. -/
def impatient : List (Rat × Event) :=
  [(0, .answer (plainly "\x7b\"c\": [\"m\"]\x7d")),
    (0, .answer (plainly "[\x7b\"Address\": \"a\", \"ServicePort\": 1\x7d]")),
    (1, .tick), (1, .shutdown), (2, .shutdown), (5, .tick), (6, .tick)]

theorem impatient_released :
    unhurried.New ∧ ¬ (unhurried.step 0 (.serve none)).service.Meets BreaksOff impatient ∧
      ((unhurried.step 0 (.serve none)).service.run impatient).isServed = true ∧
      ((unhurried.step 0 (.serve none)).service.run impatient).crew.tasks.length = 1 ∧
      ((unhurried.step 0 (.serve none)).service.run impatient).Released := by
  have hcarried : ¬ (unhurried.step 0 (.serve none)).service.Meets BreaksOff impatient := by
    rintro ⟨before, x, after, hevents, -, hcancel⟩
    have hx : x ∈ impatient := hevents ▸ List.mem_append_right before List.mem_cons_self
    have hnone : ∀ x ∈ impatient, x.2 ≠ .cancel := by simp [impatient]
    exact hnone x hx hcancel
  have hserved : ((unhurried.step 0 (.serve none)).service.run impatient).isServed = true := by
    decide +kernel
  obtain ⟨e, he⟩ := isServed_iff.mp hserved
  obtain ⟨hends, -⟩ := served_released_iff unhurried unhurried_new 0 impatient
  exact ⟨unhurried_new, hcarried, hserved, by decide +kernel, ((hends e he).mpr hcarried).1⟩

/-- A service shuts down while a probe's connection is being opened, and is then cancelled. -/
def forsaken : List (Rat × Event) := impatient.take 4 ++ [(2, .cancel)]

/-- The port is still bound then, the session open and the probe on its way, so it is not true that
serving leaves nothing behind however it ends. -/
theorem forsaken_unreleased :
    let t := (unhurried.step 0 (.serve none)).service.run forsaken
    (t.endpoint = .bound ∧ t.sessions.any (·.isOpen) = true ∧
      t.crew.tasks.any (·.ending?.isNone) = true) ∧
    ¬ ∀ (s : Service Rat) (now : Rat) (events : List (Rat × Event)), s.New →
      ∀ e, ((s.step now (.serve none)).service.run events).stage = .served e →
        ((s.step now (.serve none)).service.run events).Released := by
  have hbound : ((unhurried.step 0 (.serve none)).service.run forsaken).endpoint = .bound := by
    decide +kernel
  refine ⟨⟨hbound, by decide +kernel, by decide +kernel⟩, fun h => ?_⟩
  have hserved : ((unhurried.step 0 (.serve none)).service.run forsaken).isServed = true := by
    decide +kernel
  obtain ⟨e, he⟩ := isServed_iff.mp hserved
  cases hbound.symm.trans (h unhurried 0 forsaken unhurried_new e he).endpoint

end FleetProbe.Service
