import FleetProbe.Probe.Crew
import FleetProbe.Proofs.Metrics.Ownership
import FleetProbe.Proofs.Probe.Connection
/-!
What a task reports. It claims its node when it first runs, counts for this node only, and gives
the node up with its last report; before it runs and after it ended it says nothing.
-/

namespace FleetProbe

open Metrics

/-- The limit is a number of seconds. -/
def TimeLimit.IsNumber {α : Type} [Quantity α] (l : TimeLimit α) : Prop := ∃ x, l.seconds = .ok x

namespace Effect

variable {α : Type}

/-- What an effect tells the metrics. -/
def report? : Effect α → Option (Report α)
  | .report r => some r
  | _ => none

/-- The reports among some effects. -/
def reports (es : List (Effect α)) : List (Report α) := es.filterMap report?

@[simp]
theorem reports_nil : reports ([] : List (Effect α)) = [] := rfl

@[simp]
theorem reports_append (es fs : List (Effect α)) :
    reports (es ++ fs) = reports es ++ reports fs := List.filterMap_append

/-- The reports among some effects count for one node, each with its time where there is one. -/
def Counting (target : Target) (timed : Prop) (es : List (Effect α)) : Prop :=
  ∀ r ∈ reports es, r.Counts target ∧ (timed → r.Timed)

variable {target : Target} {timed : Prop} {es fs : List (Effect α)}

theorem Counting.append (h : Counting target timed es) (h' : Counting target timed fs) :
    Counting target timed (es ++ fs) := by
  intro r hr
  rw [reports_append] at hr
  obtain hr | hr := List.mem_append.mp hr
  · exact h r hr
  · exact h' r hr

theorem Counting.of_silent (h : reports es = []) : Counting target timed es := by
  intro r hr
  rw [h] at hr
  cases hr

theorem Counting.one {r : Report α} (h : reports es = [r])
    (hr : r.Counts target ∧ (timed → r.Timed)) : Counting target timed es := by
  intro x hx
  rw [h] at hx
  cases List.mem_singleton.mp hx
  exact hr

end Effect

open Effect

variable {α : Type}

namespace Exchange

variable [Quantity α] {s : Setup α}

theorem timeOut_counting (p : Phase) (c : Client) {next : Client → Outcome α}
    (hn : ∀ c, Counting s.target s.timeout.IsNumber (next c).effects) :
    Counting s.target s.timeout.IsNumber (timeOut s p c next).effects := by
  unfold timeOut
  cases hx : s.timeout.seconds with
  | ok x =>
    have ht : Counting s.target s.timeout.IsNumber [.timedOut p.command s.timeout,
        .report (.request s.target p.command timeoutStatus x)] :=
      .one rfl ⟨rfl, fun _ => trivial⟩
    exact ht.append (hn c)
  | error e =>
    refine .one rfl ⟨rfl, fun ⟨x, hnumber⟩ => ?_⟩
    cases hx.symm.trans hnumber

theorem answer_counting (now : α) (w : Waiting α) (c : Client) {next : Client → Outcome α}
    (hn : ∀ c, Counting s.target s.timeout.IsNumber (next c).effects) :
    Counting s.target s.timeout.IsNumber (answer s now w c next).effects := by
  unfold answer
  split
  · exact .of_silent rfl
  · next f d _ =>
    have ha : Counting s.target s.timeout.IsNumber
        [.report (.request s.target w.phase.command f.status (now - w.started))] :=
      .one rfl ⟨rfl, fun _ => trivial⟩
    exact ha.append (hn d)
  · split
    · exact timeOut_counting _ _ hn
    · exact .of_silent rfl
  · exact .of_silent rfl

theorem command_counting (now : α) (p : Phase) (c : Client) {next : Client → Outcome α}
    (hn : ∀ c, Counting s.target s.timeout.IsNumber (next c).effects) :
    Counting s.target s.timeout.IsNumber (command s now p c next).effects := by
  have hsend (bs : Bytes) : Counting s.target s.timeout.IsNumber [(.send bs : Effect α)] :=
    .of_silent rfl
  unfold command
  simp only
  split
  · exact .of_silent rfl
  · split
    · exact timeOut_counting _ _ hn
    · split
      · exact .of_silent rfl
      · exact .of_silent rfl
      · split
        · split
          · exact (hsend _).append (timeOut_counting _ _ hn)
          · exact .of_silent rfl
        · exact (hsend _).append (answer_counting _ _ _ hn)

theorem following_counting (now : α) (p : Phase) (c : Client) :
    Counting s.target s.timeout.IsNumber (following s now p c).effects := by
  cases p with
  | set => exact command_counting now .get c fun _ => .of_silent rfl
  | get => exact .of_silent rfl

theorem begin_counting (now : α) (c : Client) :
    Counting s.target s.timeout.IsNumber (begin s now c).effects :=
  command_counting now .set c (following_counting now .set)

theorem resume_counting (now : α) (w : Waiting α) (c : Client) :
    Counting s.target s.timeout.IsNumber (resume s now w c).effects :=
  answer_counting now w c (following_counting now w.phase)

theorem expire_counting (now : α) (w : Waiting α) (c : Client) :
    Counting s.target s.timeout.IsNumber (expire s now w c).effects :=
  timeOut_counting w.phase c (following_counting now w.phase)

end Exchange

namespace Probe.Task

/-- The task has run and has not ended. -/
def Running (t : Task α) : Prop := t.wait ≠ .start ∧ ∀ e, t.wait ≠ .ended e

/-- The last report of a task that has ended. -/
def farewell (t : Task α) : List (Report α) :=
  match t.wait with
  | .ended _ => [.release t.target t.id]
  | _ => []

/-- What a task that runs does next: it counts for its node, and gives it up when it ends. -/
structure Tells [Quantity α] (t : Task α) (n : Next α) : Prop where
  id : n.task.id = t.id
  node : n.task.node = t.node
  config : n.task.config = t.config
  begun : n.task.wait ≠ .start
  told : ∃ counts, reports n.effects = counts ++ farewell n.task ∧
    ∀ r ∈ counts, r.Counts t.target ∧ (t.config.timeout.IsNumber → r.Timed)

namespace Tells

variable [Quantity α] {t u : Task α} {n : Next α}

theorem after {es : List (Effect α)} (h : Tells t n)
    (hes : Counting t.target t.config.timeout.IsNumber es) :
    Tells t (n.after es) := by
  obtain ⟨counts, hr, hc⟩ := h.told
  refine ⟨h.id, h.node, h.config, h.begun, reports es ++ counts, ?_, fun r hm => ?_⟩
  · simp only [Next.after, reports_append, hr, List.append_assoc]
  · obtain hm | hm := List.mem_append.mp hm
    · exact hes r hm
    · exact hc r hm

/-- Only the identity of a task, its node and its configuration matter to what it may tell. -/
theorem of_same (h : Tells u n) (hid : u.id = t.id) (hn : u.node = t.node)
    (hc : u.config = t.config) : Tells t n := by
  have ht : u.target = t.target := by rw [target, target, hn]
  obtain ⟨counts, hr, hcounts⟩ := h.told
  exact ⟨h.id.trans hid, h.node.trans hn, h.config.trans hc, h.begun, counts, hr,
    ht ▸ hc ▸ hcounts⟩

theorem timed (h : Tells t n) (hx : t.config.timeout.IsNumber) :
    ∀ r ∈ reports n.effects, r.Timed := by
  intro r hr
  obtain ⟨counts, he, hc⟩ := h.told
  rw [he] at hr
  obtain hm | hm := List.mem_append.mp hr
  · exact (hc r hm).2 hx
  · rw [farewell] at hm
    split at hm
    · cases List.mem_singleton.mp hm
      exact trivial
    · cases hm

theorem silent (hid : n.task.id = t.id) (hn : n.task.node = t.node)
    (hc : n.task.config = t.config) (hrun : n.task.Running) (he : reports n.effects = []) :
    Tells t n := by
  refine ⟨hid, hn, hc, hrun.1, [], ?_, by simp⟩
  rw [he, farewell]
  split
  · next e hw => exact absurd hw (hrun.2 e)
  · rfl

end Tells

section Ends

variable [Quantity α]

theorem finish_tells (t : Task α) (e : Ending) : Tells t (t.finish e) :=
  ⟨rfl, rfl, rfl, by simp [finish], [], rfl, by simp⟩

theorem shutdown_tells (t : Task α) (e : Ending) : Tells t (t.shutdown e) := by
  unfold shutdown
  simp only
  split
  · exact (finish_tells _ e).of_same rfl rfl rfl
  · exact .silent rfl rfl rfl ⟨by simp, by simp⟩ rfl

theorem failure_counting (t : Task α) (e : Effect α) (he : report? e = none) :
    Counting t.target t.config.timeout.IsNumber [e, .report (.failure t.target)] := by
  have hr : reports [e, .report (.failure t.target)] = [.failure t.target] := by
    rw [reports, List.filterMap_cons_none he]
    rfl
  exact .one hr ⟨rfl, fun _ => trivial⟩

theorem cancel_tells {t : Task α} (hrun : t.Running) : Tells t t.cancel := by
  unfold cancel
  split
  · next hw => exact absurd hw hrun.1
  · exact (shutdown_tells t _).after (.of_silent rfl)
  · next e hw => exact absurd hw (hrun.2 e)
  · exact shutdown_tells t _

end Ends

theorem not_running {t : Task α} (h : ¬ t.Running) : t.wait = .start ∨ ∃ e, t.wait = .ended e := by
  cases hw : t.wait with
  | start => exact .inl rfl
  | ended e => exact .inr ⟨e, rfl⟩
  | opening | reply | pause | closing => exact absurd ⟨by simp [hw], by simp [hw]⟩ h

/-- What a task does that has not run yet or has ended. -/
structure Rests (t : Task α) (n : Next α) : Prop where
  id : n.task.id = t.id
  node : n.task.node = t.node
  config : n.task.config = t.config
  rests : ¬ n.task.Running
  silent : reports n.effects = []

theorem rests_of_wait {t u : Task α} (h : ¬ t.Running) (hid : u.id = t.id) (hn : u.node = t.node)
    (hc : u.config = t.config) (hw : u.wait = t.wait) : Rests t ⟨u, []⟩ := by
  refine ⟨hid, hn, hc, ?_, rfl⟩
  rwa [Running, hw]

variable [Quantity α] {t : Task α}

theorem pause_tells (t : Task α) (now : α) (delay : TimeLimit α) :
    Tells t (t.pause now delay) := by
  unfold pause
  split
  · exact shutdown_tells t _
  · split
    · exact shutdown_tells t _
    · exact .silent rfl rfl rfl ⟨by simp, by simp⟩ rfl

theorem backOff_tells (t : Task α) (now : α) : Tells t (t.backOff now) :=
  (pause_tells _ now _).of_same rfl rfl rfl

theorem failConnect_tells (t : Task α) (now : α) : Tells t (t.failConnect now) := by
  have hb : Tells t (t.countFailure.backOff now) := (backOff_tells _ now).of_same rfl rfl rfl
  exact hb.after (failure_counting t .connectFailed rfl)

theorem connect_tells (t : Task α) (now : α) : Tells t (t.connect now) := by
  unfold connect
  simp only
  split
  · exact (failConnect_tells _ now).of_same rfl rfl rfl
  · split
    · exact (shutdown_tells _ _).of_same rfl rfl rfl
    · exact .silent rfl rfl rfl ⟨by simp, by simp⟩ rfl

theorem settle_tells (t : Task α) (now : α) {o : Exchange.Outcome α}
    (ho : Counting t.target t.config.timeout.IsNumber o.effects) : Tells t (t.settle now o) := by
  unfold settle
  refine Tells.after ?_ ho
  split
  · exact .silent rfl rfl rfl ⟨by simp, by simp⟩ rfl
  · exact (pause_tells _ now _).of_same rfl rfl rfl
  · split
    · exact (shutdown_tells _ _).of_same rfl rfl rfl
    · refine ⟨rfl, rfl, rfl, by simp, [.failure t.target], rfl, ?_⟩
      intro r hr
      cases List.mem_singleton.mp hr
      exact ⟨rfl, fun _ => trivial⟩

theorem turn_tells (t : Task α) (now : α) : Tells t (t.turn now) := by
  unfold turn
  split
  · exact shutdown_tells t _
  · split
    · exact connect_tells t now
    · next c _ => exact settle_tells t now (Exchange.begin_counting (s := t.setup) now c)

theorem touch_tells (hrun : t.Running) (now : α)
    (change : Link → Link) : Tells t (t.touch now change) := by
  unfold touch
  split
  · exact .silent rfl rfl rfl hrun rfl
  · simp only
    split
    · exact settle_tells t now (Exchange.resume_counting (s := t.setup) now _ _)
    · exact .silent rfl rfl rfl hrun rfl

theorem expire_tells (hrun : t.Running) (now : α) : Tells t (t.expire now) := by
  unfold expire
  split
  · split
    · exact (failConnect_tells t now).after (.of_silent rfl)
    · exact .silent rfl rfl rfl hrun rfl
  · split
    · split
      · exact settle_tells t now (Exchange.expire_counting (s := t.setup) now _ _)
      · exact .silent rfl rfl rfl hrun rfl
    · exact .silent rfl rfl rfl hrun rfl
  · split
    · exact turn_tells t now
    · exact .silent rfl rfl rfl hrun rfl
  · exact .silent rfl rfl rfl hrun rfl

theorem afterClose_tells (t : Task α) (now : α) (next : AfterClose) (f : Option FleetProbe.Fault) :
    Tells t (t.afterClose now next f) := by
  unfold afterClose
  split
  · exact backOff_tells t now
  · exact finish_tells t _
  · exact shutdown_tells t _

/-- A task that runs counts for its node only, and gives the node up when it ends. -/
theorem step_tells (hrun : t.Running) (now : α) (e : Event) : Tells t (t.step now e) := by
  have hstill : Tells t ⟨t, []⟩ := .silent rfl rfl rfl hrun rfl
  cases e with
  | run =>
    rw [step]
    split
    · next hw => exact absurd hw hrun.1
    · exact hstill
  | opened =>
    rw [step]
    split
    · exact (turn_tells { t with client := some {}, stage := .probing } now).of_same rfl rfl rfl
    · exact hstill
  | refused f =>
    rw [step]
    split
    · split
      · exact failConnect_tells t now
      · exact shutdown_tells t _
    · exact hstill
  | arrived bs => exact touch_tells hrun now (·.receive bs)
  | finished => exact touch_tells hrun now Link.finish
  | lost f => exact touch_tells hrun now (·.lose f)
  | closed f =>
    rw [step]
    split
    · exact afterClose_tells t now _ f
    · exact hstill
  | tick => exact expire_tells hrun now
  | stop =>
    rw [step]
    simp only
    split
    · exact (turn_tells { t with stopRequested := true } now).of_same rfl rfl rfl
    · exact .silent rfl rfl rfl hrun rfl
  | cancel => exact cancel_tells hrun

theorem touch_rests (h : ¬ t.Running) (now : α) (change : Link → Link) :
    Rests t (t.touch now change) := by
  unfold touch
  split
  · exact rests_of_wait h rfl rfl rfl rfl
  · simp only
    split
    · next hw =>
      obtain hs | ⟨e, hs⟩ := not_running h
      · rw [hs] at hw
        cases hw
      · rw [hs] at hw
        cases hw
    · exact rests_of_wait h rfl rfl rfl rfl

/-- Apart from its first run, nothing happens to a task that does not run. -/
theorem step_rests (h : ¬ t.Running) (now : α) (e : Event) (he : t.wait = .start → e ≠ .run) :
    Rests t (t.step now e) := by
  have hstill : Rests t ⟨t, []⟩ := rests_of_wait h rfl rfl rfl rfl
  cases e with
  | run =>
    rw [step_run_of_ne fun hw => he hw rfl]
    exact hstill
  | opened =>
    rw [step_opened_of_ne fun d hw => h ⟨by simp [hw], by simp [hw]⟩]
    exact hstill
  | refused f =>
    rw [step_refused_of_ne fun d hw => h ⟨by simp [hw], by simp [hw]⟩]
    exact hstill
  | arrived bs => exact touch_rests h now (·.receive bs)
  | finished => exact touch_rests h now Link.finish
  | lost f => exact touch_rests h now (·.lose f)
  | closed f =>
    rw [step_closed_of_ne fun next hw => h ⟨by simp [hw], by simp [hw]⟩]
    exact hstill
  | tick =>
    obtain hw | ⟨e, hw⟩ := not_running h
    · simpa only [step, expire, hw] using hstill
    · simpa only [step, expire, hw] using hstill
  | stop =>
    rw [step_stop_of_ne fun d hw => h ⟨by simp [hw], by simp [hw]⟩]
    exact rests_of_wait h rfl rfl rfl rfl
  | cancel =>
    obtain hw | ⟨e, hw⟩ := not_running h
    · simp only [step, cancel, hw]
      exact ⟨rfl, rfl, rfl, fun hr => hr.2 _ rfl, rfl⟩
    · simpa only [step, cancel, hw] using hstill

/-- The first run of a task claims its node. -/
theorem step_run (h : t.wait = .start) (now : α) :
    t.step now .run = (t.turn now).after [.started, .report (.claim t.target t.id)] := by
  simp only [step, h]

end Probe.Task

end FleetProbe
