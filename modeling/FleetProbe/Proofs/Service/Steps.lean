import FleetProbe.Proofs.Service.Polling
/-!
What the events of a running service are to its loop of polls. An event takes the poll under way to
its next query, or the loop to its next step; or it is no matter of the polls, and then nothing is
asked and no failed poll is counted.
-/

namespace FleetProbe

variable {α : Type} [Quantity α]

namespace Metrics

theorem apply_discoveryFailures (m : Metrics α) (r : Report α) :
    (m.apply r).discoveryFailures = m.discoveryFailures := by
  cases r with
  | release target owner =>
    simp only [apply, release]
    split
    · rfl
    · rfl
  | request | untimed | failure | claim => rfl

end Metrics

namespace Probe.Crew

theorem deliver_discoveryFailures (c : Crew α) (now : α) (task : Nat) (e : Event) :
    (c.deliver now task e).1.metrics.discoveryFailures = c.metrics.discoveryFailures := by
  have hhear (effects : List (Effect α)) (m : Metrics α) :
      (effects.foldl hear m).discoveryFailures = m.discoveryFailures := by
    induction effects generalizing m with
    | nil => rfl
    | cons effect effects ih =>
      rw [List.foldl_cons, ih]
      cases effect with
      | report r => exact Metrics.apply_discoveryFailures m r
      | _ => rfl
  unfold deliver
  split
  · rfl
  · exact hhear _ _

end Probe.Crew

namespace Service

open Catalog

section Quiet

/-- The catalog is not asked, and no failed poll is counted. -/
structure Quiet (s : Service α) (next : Next α) : Prop where
  silent : ∀ r, .query r ∉ next.outputs
  counts : next.service.crew.metrics.discoveryFailures = s.crew.metrics.discoveryFailures

omit [Quantity α] in
theorem Quiet.andThen {s : Service α} {a : Next α} {step : Service α → Next α} (h : Quiet s a)
    (h' : Quiet a.service (step a.service)) : Quiet s (a.andThen step) := by
  refine ⟨fun r hr => ?_, h'.counts.trans h.counts⟩
  obtain hr | hr := List.mem_append.mp hr
  · exact h.silent r hr
  · exact h'.silent r hr

omit [Quantity α] in
theorem Quiet.refl (s : Service α) : Quiet s ⟨s, []⟩ := ⟨by simp, rfl⟩

omit [Quantity α] in
theorem noting_quiet {s t : Service α} (notices : List Notice)
    (h : t.crew.metrics.discoveryFailures = s.crew.metrics.discoveryFailures) :
    Quiet s (t.noting notices) :=
  ⟨by simp [noting], h⟩

theorem touch_quiet (now : α) (task : Nat) (e : Probe.Event) (s : Service α) :
    Quiet s (s.touch now task e) := by
  have hcounts := s.crew.deliver_discoveryFailures now task e
  unfold touch
  simp only
  split
  · exact ⟨by simp, hcounts⟩
  · exact ⟨by simp, hcounts⟩

theorem obey_quiet (now : α) (s : Service α) (o : Fleet.Order) : Quiet s (s.obey now o) := by
  cases o with
  | start task n =>
    have htouch := touch_quiet now s.crew.tasks.length .run
      { s with crew := s.crew.spawn n s.config false }
    exact ⟨htouch.silent, htouch.counts⟩
  | stop task => exact touch_quiet ..
  | cancel task => exact touch_quiet ..

theorem obeyAll_quiet (now : α) (orders : List Fleet.Order) (s : Service α) :
    Quiet s (s.obeyAll now orders) := by
  have hfold (next : Next α) (h : Quiet s next) :
      Quiet s (orders.foldl (fun next o => next.andThen fun s => s.obey now o) next) := by
    induction orders generalizing next with
    | nil => exact h
    | cons o orders ih => exact ih _ (h.andThen (obey_quiet now _ o))
  exact hfold ⟨s, []⟩ (.refl s)

omit [Quantity α] in
theorem close_quiet (e : Ending α) (s : Service α) : Quiet s (s.close e) := ⟨by simp [close], rfl⟩

theorem advance_quiet (now : α) (s : Service α) : Quiet s (s.advance now) := by
  unfold advance
  split
  · next shutdown e _ =>
    simp only
    generalize shutdown.advance s.watch.fleet now = next
    have hnoted := noting_quiet (s := s) (t := { s with stage := .stopping next.shutdown e })
      next.notices rfl
    have hobeyed := hnoted.andThen (obeyAll_quiet now next.orders _)
    split
    · exact hobeyed.andThen (close_quiet e _)
    · exact hobeyed
  · exact .refl s

theorem settle_quiet (now : α) (s : Service α) : Quiet s (s.settle now) :=
  (advance_quiet now s).andThen (advance_quiet now _)

theorem tearDown_quiet (now : α) (e : Ending α) (s : Service α) : Quiet s (s.tearDown now e) := by
  unfold tearDown
  simp only
  generalize Shutdown.begin s.watch ((Quantity.ofInt? Shutdown.patience).map (now + ·)) = begun
  obtain ⟨watch, next⟩ := begun
  have hnoted := noting_quiet (s := s) (t := { s with
    watch := { watch with running := false }, loop := .over, stage := .stopping next.shutdown e })
    (shuttingDown :: next.notices) rfl
  have hobeyed := hnoted.andThen (obeyAll_quiet now next.orders _)
  split
  · exact hobeyed.andThen (close_quiet e _)
  · exact hobeyed.andThen (settle_quiet now _)

end Quiet

/-- The queries among some outputs. -/
def queries (outputs : List (Output α)) : List Request :=
  outputs.filterMap fun
    | .query r => some r
    | _ => none

omit [Quantity α] in
theorem queries_append (a b : List (Output α)) : queries (a ++ b) = queries a ++ queries b :=
  List.filterMap_append

omit [Quantity α] in
theorem Quiet.queries_eq {s : Service α} {next : Next α} (h : Quiet s next) :
    queries next.outputs = [] := by
  refine List.filterMap_eq_nil_iff.mpr fun output ho => ?_
  cases output with
  | query r => exact absurd ho (h.silent r)
  | probe | binding | notice => rfl

/-- What is done for a step of the loop before the loop is looked at. -/
theorem take_told (now : α) (s : Service α) (turn : Watch.Turn α) :
    Quiet (s.countFailures turn.failures)
      ((({ s.countFailures turn.failures with watch := turn.watch }).noting turn.notices).andThen
        (obeyAll now turn.orders)) := by
  have hnoted := noting_quiet (s := s.countFailures turn.failures)
    (t := { s.countFailures turn.failures with watch := turn.watch }) turn.notices rfl
  exact hnoted.andThen (obeyAll_quiet now turn.orders _)

theorem take_queries (now : α) (s : Service α) (turn : Watch.Turn α) :
    queries (s.take now turn).outputs =
      match turn.stand with
      | .waiting (.catalog previous) => [Listing.servicesRequest previous]
      | _ => [] := by
  have htold := (take_told now s turn).queries_eq
  unfold take
  simp only [Next.andThen, queries_append] at htold ⊢
  rw [htold, List.nil_append]
  obtain (_ | _) | (_ | _) := turn.stand
  · rfl
  · rfl
  · rfl
  · exact (tearDown_quiet now .returned _).queries_eq

omit [Quantity α] in
theorem countFailures_discoveryFailures (n : Nat) (s : Service α) :
    (s.countFailures n).crew.metrics.discoveryFailures =
      s.crew.metrics.discoveryFailures + n := by
  have hrepeat (m : Metrics α) :
      (n.repeat (·.recordDiscoveryFailure) m).discoveryFailures = m.discoveryFailures + n := by
    induction n with
    | zero => rfl
    | succ n ih =>
      rw [Nat.repeat, Metrics.recordDiscoveryFailure, ih, Nat.add_assoc]
  exact hrepeat s.crew.metrics

theorem take_counts (now : α) (s : Service α) (turn : Watch.Turn α) :
    (s.take now turn).service.crew.metrics.discoveryFailures =
      s.crew.metrics.discoveryFailures + turn.failures := by
  have htold := (take_told now s turn).counts
  rw [countFailures_discoveryFailures] at htold
  unfold take
  obtain (_ | _) | (_ | _) := turn.stand
  · exact htold
  · exact htold
  · exact htold
  · exact (tearDown_quiet now .returned _).counts.trans htold

section Keeps

/-- The bucket of polls is left alone, and the loop is as it was or over. -/
structure Keeps (s t : Service α) : Prop where
  bucket : t.watch.bucket = s.watch.bucket
  cost : t.watch.cost = s.watch.cost
  loop : t.loop = s.loop ∨ t.loop = .over

omit [Quantity α] in
theorem Keeps.refl (s : Service α) : Keeps s s := ⟨rfl, rfl, .inl rfl⟩

omit [Quantity α] in
theorem Keeps.trans {s t u : Service α} (h : Keeps s t) (h' : Keeps t u) : Keeps s u := by
  refine ⟨h'.bucket.trans h.bucket, h'.cost.trans h.cost, ?_⟩
  obtain hsame | hover := h'.loop
  · rw [hsame]
    exact h.loop
  · exact .inr hover

omit [Quantity α] in
theorem Steady.keeps {s t : Service α} (h : Steady s t) : Keeps s t := by
  obtain ⟨fleet, hwatch⟩ := h.watch
  exact ⟨by rw [hwatch], by rw [hwatch], .inl h.loop⟩

omit [Quantity α] in
theorem close_keeps (e : Ending α) (s : Service α) : Keeps s (s.close e).service :=
  ⟨rfl, rfl, .inl rfl⟩

theorem advance_keeps (now : α) (s : Service α) : Keeps s (s.advance now).service := by
  unfold advance
  split
  · next shutdown e _ =>
    simp only
    generalize shutdown.advance s.watch.fleet now = next
    have hnoted : Keeps s { s with stage := .stopping next.shutdown e } := ⟨rfl, rfl, .inl rfl⟩
    have hobeyed := hnoted.trans (obeyAll_steady now next.orders _).keeps
    split
    · exact hobeyed.trans (close_keeps e _)
    · exact hobeyed
  · exact .refl s

theorem settle_keeps (now : α) (s : Service α) : Keeps s (s.settle now).service :=
  (advance_keeps now s).trans (advance_keeps now _)

theorem tearDown_keeps (now : α) (e : Ending α) (s : Service α) :
    Keeps s (s.tearDown now e).service := by
  unfold tearDown
  simp only
  have hwatch : (Shutdown.begin s.watch ((Quantity.ofInt? Shutdown.patience).map (now + ·))).1 =
      { s.watch with fleet := s.watch.fleet.stopAll.fleet, stopping := true } := rfl
  generalize Shutdown.begin s.watch ((Quantity.ofInt? Shutdown.patience).map (now + ·)) = begun at *
  obtain ⟨watch, next⟩ := begun
  simp only at hwatch
  have hover : Keeps s { s with
      watch := { watch with running := false }, loop := .over,
      stage := .stopping next.shutdown e } :=
    ⟨by rw [hwatch], by rw [hwatch], .inr rfl⟩
  have hobeyed := hover.trans (obeyAll_steady now next.orders _).keeps
  split
  · exact hobeyed.trans (close_keeps e _)
  · exact hobeyed.trans (settle_keeps now _)

end Keeps

/-- What is done aside from the polls. -/
structure Calm (s t : Service α) : Prop where
  loop : t.loop = s.loop
  index : t.watch.index = s.watch.index
  stage : t.stage = s.stage ∨ s.stage = .idle ∧ ∃ e, t.stage = .served e

omit [Quantity α] in
theorem Steady.calm {s t : Service α} (h : Steady s t) : Calm s t := by
  obtain ⟨fleet, hwatch⟩ := h.watch
  exact ⟨h.loop, by rw [hwatch], .inl h.stage⟩

/-- The poll under way is answered. -/
def Answered (s : Service α) (e : Event) : Prop := ∃ l o, s.loop = .asking l ∧ e = .answer o

/-- A step of the loop that an event leads to. -/
inductive Begets (s : Service α) (now : α) : Event → Watch.Turn α → Prop where
  | serve : s.stage = .idle → Begets s now (.serve none) (s.watch.run now)
  | tick {deadline : α} : s.loop = .asleep deadline → deadline ≤ now →
    Begets s now .tick (Watch.follow now (s.watch.wake now))
  | answer {l : Listing} {o : Outcome} {r : Except QueryFault Snapshot} : s.loop = .asking l →
    (l.step s.source o).1 = .finish r →
    Begets s now (.answer o) (Watch.follow now (s.watch.receive r))

/-- A step of the loop is a poll's first or last, or the one that its sleep leads to. -/
theorem Begets.cases {s : Service α} {now : α} {e : Event} {turn : Watch.Turn α}
    (h : s.Begets now e turn) : s.watch.Draws now turn ∨
      ∃ deadline, s.loop = .asleep deadline ∧ deadline ≤ now ∧ turn = s.watch.wake now := by
  cases h with
  | serve _ => exact .inl (s.watch.run_draws now)
  | tick hl hdue => exact .inr ⟨_, hl, hdue, rfl⟩
  | answer _ _ => exact .inl (s.watch.follow_receive_draws now _)

omit [Quantity α] in
theorem noting_andThen_outputs (s : Service α) (notices : List Notice)
    (step : Service α → Next α) :
    queries ((s.noting notices).andThen step).outputs = queries (step s).outputs := by
  have hsilent := (noting_quiet (s := s) (t := s) notices rfl).queries_eq
  rw [Next.andThen, queries_append, hsilent]
  rfl

/-- A step of the loop that is due is taken, by a service that differs in its endpoint and its stage
alone, and in these only where serving begins. -/
theorem Begets.takes {s : Service α} {now : α} {e : Event} {turn : Watch.Turn α} :
    s.Begets now e turn → ∃ t : Service α, t.tag = s.tag ∧ t.crew = s.crew ∧
      t.stage = (match e with | .serve _ => .serving | _ => s.stage) ∧
      (s.step now e).service = (t.take now turn).service ∧
      queries (s.step now e).outputs = queries (t.take now turn).outputs := by
  intro h
  cases h with
  | serve hidle =>
    refine ⟨{ s with endpoint := (Metrics.Endpoint.start false).1, stage := .serving }, rfl, rfl,
      rfl, ?_, ?_⟩
    · simp only [step, hidle]
      rfl
    · simp only [step, hidle, begin, Next.andThen, queries_append]
      rfl
  | tick hl hdue =>
    have hstep : s.step now .tick = s.take now (Watch.follow now (s.watch.wake now)) := by
      simp only [step, expire, hl, if_pos hdue]
    exact ⟨s, rfl, rfl, rfl, by rw [hstep], by rw [hstep]⟩
  | @answer l o r hl hfinish =>
    refine ⟨s, rfl, rfl, rfl, ?_, ?_⟩
    · have hservice := hear_eq now hl o
      rwa [hfinish] at hservice
    · simp only [step, hear, hl, hfinish]
      exact noting_andThen_outputs s _ _

/-- What an event can come to. -/
inductive Does (s : Service α) (now : α) (e : Event) : Prop where
  | aside : ¬ s.Answered e → Quiet s (s.step now e) → Calm s (s.step now e).service →
    Keeps s (s.step now e).service → Does s now e
  | down : Quiet s (s.step now e) → (s.step now e).service.Down →
    Keeps s (s.step now e).service → Does s now e
  /-- The poll under way goes on to its next query. -/
  | asks {l next : Listing} {o : Outcome} : s.loop = .asking l → e = .answer o →
    (l.step s.source o).1 = .ask next → (s.step now e).service = (s.ask next).service →
    queries (s.step now e).outputs = [next.request] → Does s now e
  | takes {t : Service α} {turn : Watch.Turn α} : s.Begets now e turn →
    t.crew = s.crew → t.stage = (match e with | .serve _ => .serving | _ => s.stage) →
    (s.step now e).service = (t.take now turn).service →
    queries (s.step now e).outputs = queries (t.take now turn).outputs → Does s now e

/-- The loop is over, or nothing is being taken down. -/
def Upright (s : Service α) : Prop := s.Down ∨ ∀ shutdown e, s.stage ≠ .stopping shutdown e

theorem does_aside {s : Service α} (hs : s.Upright) {now : α} {e : Event}
    (he : ¬ s.Answered e) (hquiet : Quiet s (s.step now e))
    (hkeeps : Keeps s (s.step now e).service)
    (h : (∀ shutdown e, s.stage ≠ .stopping shutdown e) →
      Calm s (s.step now e).service ∨ (s.step now e).service.Down) : Does s now e := by
  obtain hdown | hstage := hs
  · exact .down hquiet (step_down hdown now e) hkeeps
  · obtain hcalm | hdown := h hstage
    · exact .aside he hquiet hcalm hkeeps
    · exact .down hquiet hdown hkeeps

theorem does_takes {s : Service α} {now : α} {e : Event} {turn : Watch.Turn α}
    (h : s.Begets now e turn) : Does s now e := by
  obtain ⟨t, -, hcrew, hstage, hservice, hqueries⟩ := h.takes
  exact .takes h hcrew hstage hservice hqueries

theorem does_still {s : Service α} (hs : s.Upright) {now : α} {e : Event}
    (he : ¬ s.Answered e) (h : s.step now e = ⟨s, []⟩) : Does s now e := by
  refine does_aside hs he ?_ ?_ fun _ => .inl ?_
  · rw [h]
    exact .refl s
  · rw [h]
    exact .refl s
  · rw [h]
    exact (Steady.refl s).calm

theorem hear_does {s : Service α} (hs : s.Upright) (now : α) (o : Outcome) :
    Does s now (.answer o) := by
  by_cases hasking : ∃ l, s.loop = .asking l
  · obtain ⟨l, hl⟩ := hasking
    cases hstep : (l.step s.source o).1 with
    | ask next =>
      have hservice := hear_eq now hl o
      have houtputs : queries (s.hear now o).outputs = [next.request] := by
        simp only [hear, hl, hstep]
        exact noting_andThen_outputs s _ _
      rw [hstep] at hservice
      exact .asks hl rfl hstep hservice houtputs
    | finish r => exact does_takes (.answer hl hstep)
  · have hsame : s.hear now o = ⟨s, []⟩ := by
      unfold hear
      split
      · next l hl => exact absurd ⟨l, hl⟩ hasking
      · rfl
    have hnot : ¬ s.Answered (.answer o) := by
      rintro ⟨l, _, hl, _⟩
      exact hasking ⟨l, hl⟩
    exact does_still hs hnot hsame

theorem serve_does {s : Service α} (hs : s.Upright) (now : α) (f : Option Fault) :
    Does s now (.serve f) := by
  by_cases hidle : s.stage = .idle
  · cases f with
    | none => exact does_takes (.serve hidle)
    | some f =>
      refine does_aside hs (by simp [Answered]) ?_ ?_ fun _ => .inl ?_
      · simp only [step, hidle]
        exact ⟨by simp [begin, Next.andThen], rfl⟩
      · simp only [step, hidle]
        exact ⟨rfl, rfl, .inl rfl⟩
      · simp only [step, hidle]
        exact ⟨rfl, rfl, .inr ⟨hidle, _, rfl⟩⟩
  · refine does_still hs (by simp [Answered]) ?_
    cases hstage : s.stage with
    | idle => exact absurd hstage hidle
    | serving | stopping | served => simp only [step, hstage]

theorem tick_does {s : Service α} (hs : s.Upright) (now : α) : Does s now .tick := by
  cases hloop : s.loop with
  | asleep deadline =>
    by_cases hdue : deadline ≤ now
    · exact does_takes (.tick hloop hdue)
    · refine does_still hs (by simp [Answered]) ?_
      simp only [step, expire, hloop, if_neg hdue]
  | failed instant f =>
    have hstep : s.step now .tick = s.tearDown now (.failed f) := by
      simp only [step, expire, hloop]
    refine .down ?_ ?_ ?_
    · rw [hstep]
      exact tearDown_quiet now _ s
    · rw [hstep]
      exact tearDown_down now _ s
    · rw [hstep]
      exact tearDown_keeps now _ s
  | idle | «over» | asking =>
    have hstep : s.step now .tick = s.settle now := by simp only [step, expire, hloop]
    refine does_aside hs (by simp [Answered]) ?_ ?_ fun hstage => .inl ?_
    · rw [hstep]
      exact settle_quiet now s
    · rw [hstep]
      exact settle_keeps now s
    · rw [hstep, settle_eq now hstage]
      exact (Steady.refl s).calm

theorem stopProbe_does {s : Service α} (hs : s.Upright) (now : α) (key : Text) :
    Does s now (.stopProbe key) := by
  have hstopped : Steady s { s with
      watch := { s.watch with fleet := (s.watch.fleet.stopProbe key).fleet } } :=
    ⟨rfl, rfl, _, rfl⟩
  have hobeyed := hstopped.trans
    (obeyAll_steady now (s.watch.fleet.stopProbe key).orders _)
  refine does_aside hs (by simp [Answered]) ?_ ?_ fun hstage => ?_
  · have hnoted := noting_quiet (s := s)
      (t := { s with watch := { s.watch with fleet := (s.watch.fleet.stopProbe key).fleet } })
      (s.watch.fleet.stopProbe key).notices rfl
    simp only [step]
    refine hnoted.andThen ?_
    exact (obeyAll_quiet now _ _).andThen (settle_quiet now _)
  · exact hobeyed.keeps.trans (settle_keeps now _)
  · have hsettled := settle_eq now (s := (obeyAll now (s.watch.fleet.stopProbe key).orders
      { s with watch := { s.watch with fleet := (s.watch.fleet.stopProbe key).fleet } }).service)
      (by rw [hobeyed.stage]; exact hstage)
    simp only [step, Next.andThen, noting, hsettled]
    exact .inl hobeyed.calm

theorem halt_does {s : Service α} (hs : s.Upright) (now : α) : Does s now .halt := by
  refine does_aside hs (by simp [Answered]) ?_ ?_ fun _ => .inl ?_
  · have hnoted := noting_quiet (s := s)
      (t := { s with watch := (Shutdown.begin s.watch none).1 })
      (Shutdown.begin s.watch none).2.notices rfl
    exact hnoted.andThen (obeyAll_quiet now _ _)
  · have hhalted : Keeps s { s with watch := (Shutdown.begin s.watch none).1 } :=
      ⟨rfl, rfl, .inl rfl⟩
    exact hhalted.trans (obeyAll_steady now (Shutdown.begin s.watch none).2.orders _).keeps
  · have hobeyed := obeyAll_steady now (Shutdown.begin s.watch none).2.orders
      { s with watch := (Shutdown.begin s.watch none).1 }
    exact ⟨hobeyed.calm.loop, hobeyed.calm.index, .inl hobeyed.stage⟩

theorem step_does {s : Service α} (hs : s.Upright) (now : α) (e : Event) : Does s now e := by
  cases e with
  | serve f => exact serve_does hs now f
  | answer o => exact hear_does hs now o
  | tick => exact tick_does hs now
  | stopProbe key => exact stopProbe_does hs now key
  | halt => exact halt_does hs now
  | probe task e =>
    have hquiet := (touch_quiet now task e s).andThen (settle_quiet now _)
    have htouched := touch_steady now task e s
    have hkeeps := htouched.keeps.trans (settle_keeps now _)
    refine does_aside hs (by simp [Answered]) hquiet hkeeps fun hstage => ?_
    have hsettled := settle_eq now (s := (s.touch now task e).service)
      (by rw [htouched.stage]; exact hstage)
    simp only [step, Next.andThen, hsettled]
    exact .inl htouched.calm
  | shutdown =>
    refine does_aside hs (by simp [Answered]) ?_ ?_ fun _ => ?_
    · have hnoted := noting_quiet (s := s) (t := s) [shutdownRequested] rfl
      simp only [step]
      refine hnoted.andThen ?_
      split
      · exact tearDown_quiet now _ _
      · exact .refl _
    · simp only [step, Next.andThen, noting]
      split
      · exact tearDown_keeps now _ s
      · exact .refl s
    · simp only [step, Next.andThen, noting]
      split
      · exact .inr (tearDown_down now _ s)
      · exact .inl (Steady.refl s).calm
  | cancel =>
    refine does_aside hs (by simp [Answered]) ?_ ?_ fun hstage => ?_
    · simp only [step]
      split
      · exact tearDown_quiet now _ s
      · exact ⟨by simp, rfl⟩
      · exact .refl s
    · simp only [step]
      split
      · exact tearDown_keeps now _ s
      · exact ⟨rfl, rfl, .inl rfl⟩
      · exact .refl s
    · simp only [step]
      split
      · exact .inr (tearDown_down now _ s)
      · next h => exact absurd h (hstage _ _)
      · exact .inl (Steady.refl s).calm

/-- A service that took over a step of its loop: the bucket of polls is as the step left it, and the
loop stands where the step does. -/
structure Took (turn : Watch.Turn α) (t : Service α) : Prop where
  bucket : t.watch.bucket = turn.watch.bucket
  cost : t.watch.cost = turn.watch.cost
  asleep : ∀ deadline, t.loop = .asleep deadline → turn.stand = .waiting (.tokens deadline)
  failed : ∀ instant f, t.loop = .failed instant f → turn.stand = .over (.error f)

theorem take_took (now : α) (s : Service α) (turn : Watch.Turn α) :
    Took turn (s.take now turn).service := by
  obtain ⟨u, hsteady, htake⟩ := take_steady now s turn
  have hkeeps := hsteady.keeps
  rw [htake]
  match hstand : turn.stand with
  | .waiting (.tokens deadline) =>
    refine ⟨hkeeps.bucket, hkeeps.cost, fun d hd => ?_, by simp⟩
    cases hd
    exact hstand
  | .waiting (.catalog previous) => exact ⟨hkeeps.bucket, hkeeps.cost, by simp [ask], by simp [ask]⟩
  | .over (.ok found) =>
    have hdown := tearDown_keeps now .returned u
    exact ⟨hdown.bucket.trans hkeeps.bucket, hdown.cost.trans hkeeps.cost,
      by simp [tearDown_loop], by simp [tearDown_loop]⟩
  | .over (.error f) =>
    refine ⟨hkeeps.bucket, hkeeps.cost, by simp, fun instant g hg => ?_⟩
    cases hg
    exact hstand

theorem take_upright (now : α) {s : Service α} (hs : ∀ shutdown e, s.stage ≠ .stopping shutdown e)
    (turn : Watch.Turn α) : (s.take now turn).service.Upright := by
  obtain ⟨u, hsteady, htake⟩ := take_steady now s turn
  have hstage : ∀ shutdown e, u.stage ≠ .stopping shutdown e := by
    rw [show u.stage = s.stage from hsteady.stage]
    exact hs
  rw [htake]
  match turn.stand with
  | .waiting (.tokens _) => exact .inr hstage
  | .waiting (.catalog _) => exact .inr hstage
  | .over (.ok _) => exact .inl (tearDown_down now _ u)
  | .over (.error f) => exact .inr hstage

omit [Quantity α] in
/-- While the loop waits for something, nothing is being taken down. -/
theorem Upright.standing {s : Service α} (h : s.Upright) (hwaits : s.isPolling = true)
    (shutdown : Shutdown α) (e : Ending α) : s.stage ≠ .stopping shutdown e := by
  obtain hdown | hstage := h
  · rw [hdown.isPolling] at hwaits
    cases hwaits
  · exact hstage shutdown e

theorem Upright.step {s : Service α} (h : s.Upright) (now : α) (e : Event) :
    (s.step now e).service.Upright := by
  cases step_does h now e with
  | aside _ _ hcalm _ =>
    obtain hsame | ⟨-, ending, hserved⟩ := hcalm.stage
    · obtain hdown | hnot := h
      · exact .inl ⟨by rw [hsame]; exact hdown.begun, by rw [hcalm.loop]; exact hdown.ended⟩
      · exact .inr (by rw [hsame]; exact hnot)
    · exact .inr (by simp [hserved])
  | down _ hdown _ => exact .inl hdown
  | asks hl _ _ hservice _ =>
    rw [hservice]
    exact .inr (h.standing (by rw [isPolling, hl]))
  | @takes t turn hbegets _ hstage hservice _ =>
    have hnot : ∀ shutdown ending, t.stage ≠ .stopping shutdown ending := by
      rw [hstage]
      cases hbegets with
      | serve _ => simp
      | tick hl _ => exact h.standing (by rw [isPolling, hl])
      | answer hl _ => exact h.standing (by rw [isPolling, hl])
    rw [hservice]
    exact take_upright now hnot turn

end Service

end FleetProbe
