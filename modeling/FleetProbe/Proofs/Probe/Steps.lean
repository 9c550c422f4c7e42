import FleetProbe.Proofs.Client.Writing
import FleetProbe.Proofs.Probe.Connection
/-!
What a step of a task can be. A round begins when the task first runs, when its connection opens,
when a pause is over and when a stop breaks a pause off; only there is a connection asked for or a
probe begun. All other steps go on with what is under way, or end it.
-/

namespace FleetProbe

theorem Effect.sends_of_quiet {α : Type} {es : List (Effect α)} (h : ∀ e ∈ es, e.Quiet) :
    sends es = [] := by
  refine List.filterMap_eq_nil_iff.mpr fun e he => ?_
  have hquiet := h e he
  cases e with
  | send => cases hquiet
  | connect | abandon | close | report | started | stopped | connectFailed | probeFailed
  | timedOut => rfl

namespace Probe

/-- What a task begins at the start of a round. -/
inductive Start where
  | connect
  | probe
  deriving DecidableEq, Repr

/-- What a task is in the middle of. -/
def Wait.underWay? {α : Type} : Wait α → Option Start
  | .opening _ => some .connect
  | .reply _ => some .probe
  | _ => none

namespace Task

variable {α : Type} [Quantity α]

/-- The task as it begins a round at an event, if it does. -/
def round? (t : Task α) (now : α) : Event → Option (Task α)
  | .run =>
    match t.wait with
    | .start => some t
    | _ => none
  | .opened =>
    match t.wait with
    | .opening _ => some { t with client := some {}, stage := .probing }
    | _ => none
  | .tick =>
    match t.wait with
    | .pause d => if d.any (· ≤ now) then some t else none
    | _ => none
  | .stop =>
    match t.wait with
    | .pause _ => some { t with stopRequested := true }
    | _ => none
  | _ => none

/-- What a task begins at an event, if anything. -/
def starts? (t : Task α) (now : α) (e : Event) : Option Start :=
  (t.round? now e).bind fun u =>
    if u.stopRequested then none else some (if u.client.isSome then .probe else .connect)

/-- The course that a step takes at which no round begins. -/
inductive Course (t : Task α) (now : α) : Event → Next α → Prop where
  | idle (e : Event) : Course t now e ⟨t, []⟩
  | asked (hw : ∀ d, t.wait ≠ .pause d) :
    Course t now .stop ⟨{ t with stopRequested := true }, []⟩
  /-- Something happened on a connection that is not being read from. -/
  | noted (e : Event) {c : Client} (change : Link → Link) (hc : t.client = some c)
      (hw : ∀ w, t.wait ≠ .reply w) :
    Course t now e ⟨{ t with client := some { c with link := change c.link } }, []⟩
  | resumes (e : Event) {w : Exchange.Waiting α} {c : Client} (change : Link → Link)
      (hw : t.wait = .reply w) (hc : t.client = some c) :
    Course t now e
      (t.settle now (Exchange.resume t.setup now w { c with link := change c.link }))
  | expires {w : Exchange.Waiting α} {c : Client} (hw : t.wait = .reply w)
      (hc : t.client = some c) :
    Course t now .tick (t.settle now (Exchange.expire t.setup now w c))
  | refused (e : Event) {d : Option α} (es : List (Effect α)) (hw : t.wait = .opening d)
      (hes : ∀ x ∈ es, x.Parting) :
    Course t now e ((t.failConnect now).after es)
  | closed {next : AfterClose} (f : Option FleetProbe.Fault) (hw : t.wait = .closing next) :
    Course t now (.closed f) (t.afterClose now next f)
  | shut (e : Event) (how : Ending) (es : List (Effect α)) (hes : ∀ x ∈ es, x.Parting) :
    Course t now e ((t.shutdown how).after es)
  | unbegun (hw : t.wait = .start) :
    Course t now .cancel ⟨{ t with wait := .ended .cancelled }, []⟩

variable {t : Task α} {now : α} {e : Event}

theorem touch_course (t : Task α) (now : α) (change : Link → Link) (e : Event) :
    Course t now e (t.touch now change) := by
  unfold touch
  split
  · exact .idle e
  · next c hc =>
    dsimp only
    split
    · next w hw => exact .resumes e change hw hc
    · next hw => exact .noted e change hc hw

theorem expire_course (h : t.round? now .tick = none) : Course t now .tick (t.expire now) := by
  unfold expire
  split
  · next d hw =>
    split
    · exact .refused .tick [.abandon] hw (by simp [Effect.Parting])
    · exact .idle .tick
  · next w hw =>
    split
    · split
      · next c hc => exact .expires hw hc
      · exact .idle .tick
    · exact .idle .tick
  · next d hw =>
    split
    · next hdue => simp [round?, hw, hdue] at h
    · exact .idle .tick
  · exact .idle .tick

theorem cancel_course (t : Task α) (now : α) : Course t now .cancel t.cancel := by
  unfold cancel
  split
  · next hw => exact .unbegun hw
  · exact .shut .cancel _ [.abandon] (by simp [Effect.Parting])
  · exact .idle .cancel
  · exact .shut .cancel _ [] (by simp)

/-- Every step at which no round begins takes one of these courses. -/
theorem step_course (h : t.round? now e = none) : Course t now e (t.step now e) := by
  cases e with
  | run =>
    rw [step]
    split
    · next hw => simp [round?, hw] at h
    · exact .idle .run
  | opened =>
    rw [step]
    split
    · next d hw => simp [round?, hw] at h
    · exact .idle .opened
  | refused f =>
    rw [step]
    split
    · next d hw =>
      split
      · exact .refused (.refused f) [] hw (by simp)
      · exact .shut (.refused f) _ [] (by simp)
    · exact .idle (.refused f)
  | arrived bs => exact touch_course t now (·.receive bs) (.arrived bs)
  | finished => exact touch_course t now Link.finish .finished
  | lost f => exact touch_course t now (·.lose f) (.lost f)
  | closed f =>
    rw [step]
    split
    · next next hw => exact .closed f hw
    · exact .idle (.closed f)
  | tick => exact expire_course h
  | stop =>
    rw [step]
    dsimp only
    split
    · next d hw => simp [round?, hw] at h
    · next hw => exact .asked hw
  | cancel => exact cancel_course t now

/-- The four ways to begin a round. -/
theorem round?_eq_some {u : Task α} (h : t.round? now e = some u) :
    (e = .run ∧ t.wait = .start ∧ u = t) ∨
    (e = .opened ∧ (∃ d, t.wait = .opening d) ∧
      u = { t with client := some {}, stage := .probing }) ∨
    (e = .tick ∧ (∃ d, t.wait = .pause d ∧ d.any (· ≤ now) = true) ∧ u = t) ∨
    (e = .stop ∧ (∃ d, t.wait = .pause d) ∧ u = { t with stopRequested := true }) := by
  cases e with
  | run =>
    rw [round?] at h
    split at h
    · next hw =>
      cases h
      exact .inl ⟨rfl, hw, rfl⟩
    · cases h
  | opened =>
    rw [round?] at h
    split at h
    · next d hw =>
      cases h
      exact .inr (.inl ⟨rfl, ⟨d, hw⟩, rfl⟩)
    · cases h
  | tick =>
    rw [round?] at h
    split at h
    · next d hw =>
      split at h
      · next hdue =>
        cases h
        exact .inr (.inr (.inl ⟨rfl, ⟨d, hw, hdue⟩, rfl⟩))
      · cases h
    · cases h
  | stop =>
    rw [round?] at h
    split at h
    · next d hw =>
      cases h
      exact .inr (.inr (.inr ⟨rfl, ⟨d, hw⟩, rfl⟩))
    · cases h
  | refused | arrived | finished | lost | closed | cancel => cases h

theorem counts_of_round? {u : Task α} (h : t.round? now e = some u) :
    u.probes = t.probes ∧ u.failures = t.failures := by
  obtain ⟨-, -, rfl⟩ | ⟨-, -, rfl⟩ | ⟨-, -, rfl⟩ | ⟨-, -, rfl⟩ := round?_eq_some h
  all_goals exact ⟨rfl, rfl⟩

/-- A step at which a round begins is a turn; a task that first runs says so before. -/
theorem step_eq_turn {u : Task α} (h : t.round? now e = some u) :
    ∃ es, (es = [] ∨ es = [.started, .report (.claim u.target u.id)]) ∧
      t.step now e = (u.turn now).after es := by
  obtain ⟨rfl, hw, rfl⟩ | ⟨rfl, ⟨d, hw⟩, rfl⟩ | ⟨rfl, ⟨d, hw, hdue⟩, rfl⟩ | ⟨rfl, ⟨d, hw⟩, rfl⟩ :=
    round?_eq_some h
  · exact ⟨_, .inr rfl, by simp only [step, hw]⟩
  · exact ⟨[], .inl rfl, by simp only [step, hw]; rfl⟩
  · exact ⟨[], .inl rfl, by simp only [step, expire, hw, hdue, if_true]; rfl⟩
  · exact ⟨[], .inl rfl, by simp only [step, hw]; rfl⟩

theorem step_of_round? {u : Task α} (h : t.round? now e = some u) :
    ∃ es, (∀ x ∈ es, x.Quiet) ∧ .connect ∉ es ∧ t.step now e = (u.turn now).after es := by
  obtain ⟨es, rfl | rfl, hstep⟩ := step_eq_turn h
  · exact ⟨_, by simp, by simp, hstep⟩
  · exact ⟨_, by simp [Effect.Quiet], by simp, hstep⟩

/-- No round begins while a command waits for its answer. -/
theorem round?_of_reply {w : Exchange.Waiting α} (hw : t.wait = .reply w) :
    t.round? now e = none := by
  cases hu : t.round? now e with
  | none => rfl
  | some u =>
    obtain ⟨-, h, -⟩ | ⟨-, ⟨d, h⟩, -⟩ | ⟨-, ⟨d, h, -⟩, -⟩ | ⟨-, ⟨d, h⟩, -⟩ := round?_eq_some hu
    all_goals cases hw.symm.trans h

theorem run_append (t : Task α) (before after : List (α × Event)) :
    t.run (before ++ after) = ((t.run before).task.run after).after (t.run before).effects := by
  induction before generalizing t with
  | nil => rfl
  | cons y before ih =>
    rw [List.cons_append, run, run, ih]
    simp only [Next.after, List.append_assoc]

omit [Quantity α] in
theorem shutdown_counts (t : Task α) (e : Ending) : (t.shutdown e).task.probes = t.probes ∧
    (t.shutdown e).task.failures = t.failures ∧
    (t.shutdown e).task.stopRequested = t.stopRequested := by
  unfold shutdown
  dsimp only
  split
  · exact ⟨rfl, rfl, rfl⟩
  · exact ⟨rfl, rfl, rfl⟩

/-- A pause is an end for a task that is asked to stop, or cannot tell how long to pause. -/
theorem pause_cases (t : Task α) (now : α) (delay : TimeLimit α) :
    (∃ how, t.pause now delay = t.shutdown how) ∨
      (t.stopRequested = false ∧ ∃ d, t.pause now delay = ⟨{ t with wait := .pause d }, []⟩) := by
  unfold pause
  split
  · exact .inl ⟨_, rfl⟩
  · split
    · exact .inl ⟨_, rfl⟩
    · next hstop => exact .inr ⟨by simpa using hstop, _, rfl⟩

theorem stopRequested_of_round? {u : Task α} (h : t.round? now e = some u)
    (hstop : t.stopRequested = true ∨ e = .stop) : u.stopRequested = true := by
  obtain ⟨rfl, -, rfl⟩ | ⟨rfl, -, rfl⟩ | ⟨rfl, -, rfl⟩ | ⟨-, -, rfl⟩ := round?_eq_some h
  · exact hstop.resolve_right (by simp)
  · exact hstop.resolve_right (by simp)
  · exact hstop.resolve_right (by simp)
  · rfl

/-- A task that has been asked to stop begins nothing. -/
theorem starts?_eq_none (hstop : t.stopRequested = true ∨ e = .stop) :
    t.starts? now e = none := by
  unfold starts?
  cases hu : t.round? now e with
  | none => rfl
  | some u => simp [stopRequested_of_round? hu hstop]

end Task

end Probe

end FleetProbe
