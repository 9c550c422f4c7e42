import FleetProbe.Proofs.Probe.Loss
import FleetProbe.Proofs.Probe.Reports
import FleetProbe.Proofs.Wire.Ranges
/-!
What ends a task, and what it leaves when it ends. As long as its limits are numbers, its commands
can be written and nothing but conditions of the system meets it, a task ends by being stopped or
cancelled. However it ends, it is stopped then, has no connection, and has given its node up once.
-/

namespace FleetProbe

section Limits

variable {α : Type} [Quantity α]

theorem TimeLimit.IsNumber.deadline {l : TimeLimit α} (h : l.IsNumber) (now : α) :
    ∃ d, l.deadline now = .ok d := by
  obtain ⟨x, hx⟩ := h
  unfold TimeLimit.deadline
  split
  · exact ⟨_, rfl⟩
  · split
    · exact ⟨_, rfl⟩
    · rw [hx]
      exact ⟨_, rfl⟩

end Limits

section Releases

open Metrics

variable {α : Type}

def Metrics.Report.isRelease : Report α → Bool
  | .release _ _ => true
  | _ => false

theorem Metrics.isRelease_of_counts {target : Target} {r : Report α} (h : r.Counts target) :
    r.isRelease = false := by
  cases r with
  | request | untimed | failure => rfl
  | claim => cases h
  | release => cases h

/-- The releases among some effects. -/
def Effect.releases (es : List (Effect α)) : List (Report α) :=
  (reports es).filter Report.isRelease

@[simp]
theorem Effect.releases_append (es fs : List (Effect α)) :
    releases (es ++ fs) = releases es ++ releases fs := by
  simp [releases]

end Releases

variable {α : Type} [Quantity α]

namespace Exchange

/-- The commands of a probe can be written, and have a time limit. -/
structure Setup.Able (s : Setup α) : Prop where
  writable : s.payload.Writable
  timeout : s.timeout.IsNumber

/-- A probe that fails does so by its connection. -/
def Outcome.Mild (o : Outcome α) : Prop := ∀ f, o.progress = .failed f → ∃ g, f = .client g

variable {s : Setup α}

omit [Quantity α] in
theorem finish_mild (c : Client) : (finish c : Outcome α).Mild := by
  intro f hf
  cases hf

theorem timeOut_mild (hs : s.Able) (p : Phase) (c : Client) {next : Client → Outcome α}
    (hn : ∀ c, (next c).Mild) : (timeOut s p c next).Mild := by
  obtain ⟨x, hx⟩ := hs.timeout
  simp only [timeOut, hx]
  exact hn c

theorem answer_mild (hs : s.Able) (now : α) (w : Waiting α) (c : Client)
    {next : Client → Outcome α} (hn : ∀ c, (next c).Mild) : (answer s now w c next).Mild := by
  unfold answer
  split
  · intro f hf
    cases hf
  · next d _ => exact hn d
  · split
    · exact timeOut_mild hs _ _ hn
    · intro f hf
      cases hf
      exact ⟨_, rfl⟩
  · intro f hf
    cases hf
    exact ⟨_, rfl⟩

theorem command_mild (hs : s.Able) (now : α) (p : Phase) (c : Client)
    {next : Client → Outcome α} (hn : ∀ c, (next c).Mild) : (command s now p c next).Mild := by
  have hserial : c.takeSerial.1 < 0x100000000 := Nat.mod_lt _ (by decide)
  obtain ⟨⟨set, setBytes, hset, hsetBytes⟩, get, getBytes, hget, hgetBytes⟩ :=
    hs.writable.commands hserial
  obtain ⟨d, hd⟩ := hs.timeout.deadline now
  unfold command
  simp only [hd]
  split
  · next f hf =>
    cases p with
    | set => cases hset.symm.trans hf
    | get => cases hget.symm.trans hf
  · next built hbuilt =>
    obtain ⟨bs, hbs⟩ : ∃ bs, built.encode = .ok bs := by
      cases p with
      | set =>
        cases hset.symm.trans hbuilt
        exact ⟨_, hsetBytes⟩
      | get =>
        cases hget.symm.trans hbuilt
        exact ⟨_, hgetBytes⟩
    simp only [hbs]
    split
    · exact timeOut_mild hs p _ hn
    · split
      · split
        · exact timeOut_mild hs p _ hn
        · intro f hf
          cases hf
          exact ⟨_, rfl⟩
      · exact answer_mild hs now _ _ hn

theorem following_mild (hs : s.Able) (now : α) (p : Phase) (c : Client) :
    (following s now p c).Mild := by
  cases p with
  | set => exact command_mild hs now .get c finish_mild
  | get => exact finish_mild c

theorem begin_mild (hs : s.Able) (now : α) (c : Client) : (begin s now c).Mild :=
  command_mild hs now .set c (following_mild hs now .set)

theorem resume_mild (hs : s.Able) (now : α) (w : Waiting α) (c : Client) :
    (resume s now w c).Mild :=
  answer_mild hs now w c (following_mild hs now w.phase)

theorem expire_mild (hs : s.Able) (now : α) (w : Waiting α) (c : Client) :
    (expire s now w c).Mild :=
  timeOut_mild hs w.phase c (following_mild hs now w.phase)

end Exchange

namespace Probe

/-- The limits are numbers of seconds, as every real number is, and the commands can be written. -/
structure Config.Proper (c : Config α) : Prop where
  interval : c.interval.IsNumber
  timeout : c.timeout.IsNumber
  connectTimeout : c.connectTimeout.IsNumber
  backoff : c.backoff.IsNumber
  writable : c.payload.Writable

/-- The faults that an event brings are of some kind. -/
def Event.Brings (P : FleetProbe.Fault → Prop) : Event → Prop
  | .refused f | .lost f | .closed (some f) => P f
  | _ => True

theorem Event.brings_of_all {P : FleetProbe.Fault → Prop} (h : ∀ f, P f) (e : Event) :
    e.Brings P := by
  cases e with
  | refused f | lost f => exact h f
  | closed f =>
    cases f with
    | none => trivial
    | some f => exact h f
  | run | opened | arrived | finished | tick | stop | cancel => trivial

/-- Some events ask a task to end in this way. -/
def Ending.Asked (events : List (α × Event)) : Ending → Prop
  | .returned => ∃ x ∈ events, x.2 = .stop
  | .cancelled => ∃ x ∈ events, x.2 = .cancel
  | .crashed _ => False

namespace Task

open Exchange Effect Metrics

/-- How a task ended, or is about to end. -/
def fate? (t : Task α) : Option Ending :=
  match t.wait with
  | .closing (.ending e) | .ended e => some e
  | _ => none

/-- A task is spared all endings but some, and is stopped when one of these has come. -/
structure Spared (Q : Ending → Prop) (t : Task α) : Prop where
  asked : t.stopRequested = true → Q .returned
  fate : ∀ e, t.fate? = some e → t.stage = .stopped ∧ Q e

/-- Any crash will do; or there is nothing to crash by, for the configuration is proper and faults
are of the system. -/
def Hardy (Q : Ending → Prop) (P : FleetProbe.Fault → Prop) (c : Config α) : Prop :=
  (∀ crash, Q (.crashed crash)) ∨ c.Proper ∧ ∀ f, P f → f.isSystem = true

variable {Q : Ending → Prop} {P : FleetProbe.Fault → Prop} {t : Task α}

theorem Hardy.crashed {c : Config α} (h : Hardy Q P c)
    (hnone : c.Proper → (∀ f, P f → f.isSystem = true) → False) (crash : Crash) :
    Q (.crashed crash) := by
  obtain hany | ⟨hproper, hsystem⟩ := h
  · exact hany crash
  · exact (hnone hproper hsystem).elim

omit [Quantity α] in
theorem spared_of_none (hasked : t.stopRequested = true → Q .returned) (hfate : t.fate? = none) :
    Spared Q t := by
  refine ⟨hasked, fun e he => ?_⟩
  rw [hfate] at he
  cases he

omit [Quantity α] in
theorem shutdown_spared (hasked : t.stopRequested = true → Q .returned) {e : Ending} (he : Q e) :
    Spared Q (t.shutdown e).task := by
  unfold shutdown
  simp only
  split
  · refine ⟨hasked, fun e' he' => ?_⟩
    cases he'
    exact ⟨rfl, he⟩
  · refine ⟨hasked, fun e' he' => ?_⟩
    cases he'
    exact ⟨rfl, he⟩

theorem pause_spared (hh : Hardy Q P t.config) (hasked : t.stopRequested = true → Q .returned)
    (now : α) {delay : TimeLimit α} (hdelay : t.config.Proper → delay.IsNumber) :
    Spared Q (t.pause now delay).task := by
  unfold pause
  split
  · next f hf =>
    refine shutdown_spared hasked (hh.crashed (fun hproper _ => ?_) _)
    obtain ⟨d, hd⟩ := (hdelay hproper).deadline now
    cases hf.symm.trans hd
  · split
    · next hstop => exact shutdown_spared hasked (hasked hstop)
    · exact spared_of_none hasked rfl

theorem failConnect_spared (hh : Hardy Q P t.config)
    (hasked : t.stopRequested = true → Q .returned) (now : α) :
    Spared Q (t.failConnect now).task :=
  pause_spared (t := { t.countFailure with stage := .backoff }) hh hasked now
    fun hproper => hproper.backoff

theorem connect_spared (hh : Hardy Q P t.config) (hasked : t.stopRequested = true → Q .returned)
    (now : α) : Spared Q (t.connect now).task := by
  unfold connect
  simp only
  split
  · exact failConnect_spared (t := { t with stage := .connecting }) hh hasked now
  · split
    · next f hf =>
      refine shutdown_spared (t := { t with stage := .connecting }) hasked
        (hh.crashed (fun hproper _ => ?_) _)
      obtain ⟨d, hd⟩ := hproper.connectTimeout.deadline now
      cases hf.symm.trans hd
    · exact spared_of_none hasked rfl

theorem settle_spared (hh : Hardy Q P t.config) (hasked : t.stopRequested = true → Q .returned)
    (now : α) {o : Outcome α} {fault : Option FleetProbe.Fault} (ho : Sane t.setup fault o)
    (hfault : ∀ g, fault = some g → P g) (hmild : t.config.Proper → o.Mild) :
    Spared Q (t.settle now o).task := by
  unfold settle
  simp only [Next.after]
  split
  · exact spared_of_none hasked rfl
  · exact pause_spared (t := { t with client := some o.client, probes := t.probes + 1 }) hh hasked
      now fun hproper => hproper.interval
  · next f hf =>
    split
    · next c hc =>
      refine shutdown_spared (t := { t with client := some o.client }) hasked
        (hh.crashed (fun hproper hsystem => ?_) _)
      -- A proper probe fails by its connection, and that by a condition of the system.
      obtain ⟨g, rfl⟩ := hmild hproper f hf
      cases g with
      | link g =>
        obtain ⟨hlost, -⟩ := ho.broken g hf
        simp [crash?, hsystem g (hfault g hlost)] at hc
      | mismatch | reset | noResponse => cases hc
    · exact spared_of_none hasked rfl

theorem turn_spared (hh : Hardy Q P t.config) (hasked : t.stopRequested = true → Q .returned)
    (h : Holds P t) (now : α) : Spared Q (t.turn now).task := by
  unfold turn
  split
  · next hstop => exact shutdown_spared hasked (hasked hstop)
  · split
    · exact connect_spared hh hasked now
    · next c hc =>
      obtain ⟨fault, hs, hfault⟩ := h c hc
      exact settle_spared hh hasked now (begin_sane now hs) hfault
        fun hproper => begin_mild ⟨hproper.writable, hproper.timeout⟩ now c

theorem touch_spared (hh : Hardy Q P t.config) (hsound : Sound P t) (h : Spared Q t) (now : α)
    (change : Link → Link) (hchange : ∀ l : Link, l.Allowed P → (change l).Allowed P) :
    Spared Q (t.touch now change).task := by
  unfold touch
  split
  · exact h
  · next c hc =>
    obtain ⟨fault, hs, hfault⟩ := hchange c.link (hsound.holds c hc)
    simp only
    split
    · next w hw =>
      rw [Sound, hw] at hsound
      obtain ⟨d, -, -, -, hdeadline⟩ := hsound
      exact settle_spared hh h.asked now (resume_sane now hdeadline hs) hfault
        fun hproper => resume_mild ⟨hproper.writable, hproper.timeout⟩ now w _
    · exact ⟨h.asked, h.fate⟩

theorem expire_spared (hh : Hardy Q P t.config) (hsound : Sound P t) (h : Spared Q t) (now : α) :
    Spared Q (t.expire now).task := by
  unfold expire
  split
  · split
    · exact failConnect_spared hh h.asked now
    · exact h
  · next w _ =>
    split
    · split
      · next c hc =>
        obtain ⟨fault, hs, hfault⟩ := hsound.holds c hc
        exact settle_spared hh h.asked now (expire_sane now w hs) hfault
          fun hproper => expire_mild ⟨hproper.writable, hproper.timeout⟩ now w c
      · exact h
    · exact h
  · split
    · exact turn_spared hh h.asked hsound.holds now
    · exact h
  · exact h

theorem afterClose_spared (hh : Hardy Q P t.config) (h : Spared Q t) (now : α) {next : AfterClose}
    (hw : t.wait = .closing next) {f : Option FleetProbe.Fault} (hf : ∀ g, f = some g → P g) :
    Spared Q (t.afterClose now next f).task := by
  unfold afterClose
  split
  · exact pause_spared (t := { t with stage := .backoff }) hh h.asked now
      fun hproper => hproper.backoff
  · next e _ =>
    have he := h.fate e (by rw [fate?, hw])
    refine ⟨h.asked, fun e' he' => ?_⟩
    cases he'
    exact he
  · next g hg =>
    refine shutdown_spared h.asked (hh.crashed (fun _ hsystem => ?_) _)
    obtain ⟨hsome, hbad⟩ := Option.filter_eq_some_iff.mp hg
    simp [hsystem g (hf g hsome)] at hbad

omit [Quantity α] in
theorem cancel_spared (hbegun : t.wait ≠ .start) (h : Spared Q t) (hc : Q .cancelled) :
    Spared Q t.cancel.task := by
  unfold cancel
  split
  · next hw => exact absurd hw hbegun
  · exact shutdown_spared h.asked hc
  · exact h
  · exact shutdown_spared h.asked hc

theorem step_spared (hh : Hardy Q P t.config) (hbegun : t.wait ≠ .start) (hsound : Sound P t)
    (h : Spared Q t) (now : α) {e : Event} (hbrings : e.Brings P)
    (hstop : e = .stop → Q .returned) (hcancel : e = .cancel → Q .cancelled) :
    Spared Q (t.step now e).task := by
  cases e with
  | run =>
    rw [step_run_of_ne hbegun]
    exact h
  | opened =>
    rw [step]
    split
    · refine turn_spared (t := { t with client := some {}, stage := .probing }) hh h.asked ?_ now
      intro c hc
      cases hc
      exact ⟨none, ⟨rfl, rfl⟩, by simp⟩
    · exact h
  | refused f =>
    rw [step]
    split
    · split
      · exact failConnect_spared hh h.asked now
      · next hf =>
        exact shutdown_spared h.asked
          (hh.crashed (fun _ hsystem => absurd (hsystem f hbrings) hf) _)
    · exact h
  | arrived bs => exact touch_spared hh hsound h now (·.receive bs) fun _ hl => hl.receive bs
  | finished => exact touch_spared hh hsound h now Link.finish fun _ hl => hl.finish
  | lost f => exact touch_spared hh hsound h now (·.lose f) fun l _ => l.lose_allowed hbrings
  | closed f =>
    rw [step]
    split
    · next next hw =>
      refine afterClose_spared hh h now hw fun g hg => ?_
      subst hg
      exact hbrings
    · exact h
  | tick => exact expire_spared hh hsound h now
  | stop =>
    have hasked : ({ t with stopRequested := true } : Task α).stopRequested = true → Q .returned :=
      fun _ => hstop rfl
    rw [step]
    simp only
    split
    · exact turn_spared (t := { t with stopRequested := true }) hh hasked hsound.holds now
    · exact ⟨hasked, h.fate⟩
  | cancel => exact cancel_spared hbegun h (hcancel rfl)

/-- Before its first run and after its end a task does nothing. -/
theorem step_idle (h : ¬ t.Running) (hc : t.client = none) (now : α) {e : Event}
    (hrun : t.wait = .start → e ≠ .run) :
    t.step now e = ⟨t, []⟩ ∨
      (e = .stop ∧ t.step now e = ⟨{ t with stopRequested := true }, []⟩) ∨
      (e = .cancel ∧ t.wait = .start ∧ t.step now e = ⟨{ t with wait := .ended .cancelled }, []⟩) := by
  cases e with
  | run => exact .inl (step_run_of_ne (fun hw => hrun hw rfl) now)
  | opened => exact .inl (step_opened_of_ne (fun d hw => h ⟨by simp [hw], by simp [hw]⟩) now)
  | refused f => exact .inl (step_refused_of_ne (fun d hw => h ⟨by simp [hw], by simp [hw]⟩) now f)
  | arrived bs => exact .inl (touch_of_none hc now (·.receive bs))
  | finished => exact .inl (touch_of_none hc now Link.finish)
  | lost f => exact .inl (touch_of_none hc now (·.lose f))
  | closed f =>
    exact .inl (step_closed_of_ne (fun next hw => h ⟨by simp [hw], by simp [hw]⟩) now f)
  | tick =>
    left
    obtain hw | ⟨e, hw⟩ := not_running h
    · simp only [step, expire, hw]
    · simp only [step, expire, hw]
  | stop =>
    exact .inr (.inl ⟨rfl, step_stop_of_ne (fun d hw => h ⟨by simp [hw], by simp [hw]⟩) now⟩)
  | cancel =>
    obtain hw | ⟨e, hw⟩ := not_running h
    · exact .inr (.inr ⟨rfl, hw, by simp only [step, cancel, hw]⟩)
    · exact .inl (by simp only [step, cancel, hw])

/-- A task that has not begun, with all effects so far. -/
structure Waits (Q : Ending → Prop) (n : Next α) : Prop where
  rests : ¬ n.task.Running
  client : n.task.client = none
  unstarted : .started ∉ n.effects
  unreleased : releases n.effects = []
  asked : n.task.stopRequested = true → Q .returned
  fate : ∀ e, n.task.fate? = some e → Q e

/-- A task that has begun, with all effects so far: it gives its node up when it ends, and not
before. -/
structure Begun (Q : Ending → Prop) (P : FleetProbe.Fault → Prop) (n : Next α) : Prop where
  begun : n.task.wait ≠ .start
  sound : Sound P n.task
  spared : Spared Q n.task
  released : releases n.effects = farewell n.task

omit [Quantity α] in
theorem farewell_of_running (h : t.Running) : farewell t = [] := by
  unfold farewell
  split
  · next e hw => exact absurd hw (h.2 e)
  · rfl

theorem Tells.releases {n : Next α} (h : Tells t n) : releases n.effects = farewell n.task := by
  obtain ⟨counts, htold, hcounts⟩ := h.told
  have hnone : counts.filter Report.isRelease = [] :=
    List.filter_eq_nil_iff.mpr fun r hr => by simp [isRelease_of_counts (hcounts r hr).1]
  rw [Effect.releases, htold, List.filter_append, hnone, List.nil_append, farewell]
  split
  · rfl
  · rfl

theorem step_same (t : Task α) (now : α) (e : Event) : (t.step now e).task.id = t.id ∧
    (t.step now e).task.node = t.node ∧ (t.step now e).task.config = t.config := by
  by_cases hrun : t.Running
  · have h := step_tells hrun now e
    exact ⟨h.id, h.node, h.config⟩
  · by_cases hfirst : t.wait = .start ∧ e = .run
    · obtain ⟨hw, rfl⟩ := hfirst
      have h := turn_tells t now
      rw [step_run hw]
      exact ⟨h.id, h.node, h.config⟩
    · have h := step_rests hrun now e fun hw he => hfirst ⟨hw, he⟩
      exact ⟨h.id, h.node, h.config⟩

theorem run_same (t : Task α) (events : List (α × Event)) : (t.run events).task.id = t.id ∧
    (t.run events).task.node = t.node ∧ (t.run events).task.config = t.config := by
  induction events generalizing t with
  | nil => exact ⟨rfl, rfl, rfl⟩
  | cons y events ih =>
    obtain ⟨hid, hnode, hconfig⟩ := step_same t y.1 y.2
    obtain ⟨hid', hnode', hconfig'⟩ := ih (t.step y.1 y.2).task
    exact ⟨hid'.trans hid, hnode'.trans hnode, hconfig'.trans hconfig⟩

theorem Waits.step {es : List (Effect α)} (h : Waits Q ⟨t, es⟩) (now : α) {e : Event}
    (hrun : t.wait = .start → e ≠ .run) (hstop : e = .stop → Q .returned)
    (hcancel : e = .cancel → Q .cancelled) : Waits Q ((t.step now e).after es) := by
  obtain hstill | ⟨rfl, hask⟩ | ⟨rfl, -, hend⟩ := step_idle h.rests h.client now hrun
  · rw [hstill, Next.after, List.append_nil]
    exact h
  · rw [hask, Next.after, List.append_nil]
    exact ⟨h.rests, h.client, h.unstarted, h.unreleased, fun _ => hstop rfl, h.fate⟩
  · rw [hend, Next.after, List.append_nil]
    refine ⟨fun hr => hr.2 _ rfl, h.client, h.unstarted, h.unreleased, h.asked, fun e' he' => ?_⟩
    cases he'
    exact hcancel rfl

theorem Waits.run {es : List (Effect α)} (h : Waits Q ⟨t, es⟩) (hw : t.wait = .start)
    (hh : Hardy Q P t.config) (now : α) : Begun Q P ((t.step now .run).after es) := by
  have hholds : Holds P t := holds_of_none h.client
  have htells := turn_tells t now
  rw [step_run hw]
  refine ⟨htells.begun, turn_sound hholds now, turn_spared hh h.asked hholds now, ?_⟩
  simp only [Next.after, releases_append, h.unreleased, htells.releases]
  rfl

theorem Begun.step {es : List (Effect α)} (h : Begun Q P ⟨t, es⟩) (hh : Hardy Q P t.config)
    (now : α) {e : Event} (hbrings : e.Brings P) (hstop : e = .stop → Q .returned)
    (hcancel : e = .cancel → Q .cancelled) : Begun Q P ((t.step now e).after es) := by
  have hsound : Sound P (t.step now e).task := by
    refine step_sound h.sound now e fun g hg => ?_
    subst hg
    exact hbrings
  have hspared := step_spared hh h.begun h.sound h.spared now hbrings hstop hcancel
  by_cases hrun : t.Running
  · have htells := step_tells hrun now e
    refine ⟨htells.begun, hsound, hspared, ?_⟩
    have hnone : releases es = [] := h.released.trans (farewell_of_running hrun)
    simp only [Next.after, releases_append, hnone, htells.releases, List.nil_append]
  · -- It has ended, and nothing happens to it any more.
    obtain hw | ⟨how, hw⟩ := not_running hrun
    · exact absurd hw h.begun
    · have hc : t.client = none := by
        have hs := h.sound
        rwa [Sound, hw] at hs
      have hfirst : t.wait = .start → e ≠ .run := fun hw => absurd hw h.begun
      obtain hstill | ⟨rfl, hask⟩ | ⟨-, hw, -⟩ := step_idle hrun hc now hfirst
      · rw [hstill, Next.after, List.append_nil]
        exact h
      · rw [hask] at hsound hspared ⊢
        rw [Next.after, List.append_nil]
        exact ⟨h.begun, hsound, hspared, h.released⟩
      · exact absurd hw h.begun

/-- The life of a task, with all effects so far. -/
structure Lives (Q : Ending → Prop) (P : FleetProbe.Fault → Prop) (t : Task α) (n : Next α) :
    Prop where
  id : n.task.id = t.id
  node : n.task.node = t.node
  config : n.task.config = t.config
  life : Waits Q n ∨ Begun Q P n

variable {u : Task α}

theorem Lives.step {es : List (Effect α)} (h : Lives Q P u ⟨t, es⟩) (hh : Hardy Q P u.config)
    (now : α) {e : Event} (hbrings : e.Brings P) (hstop : e = .stop → Q .returned)
    (hcancel : e = .cancel → Q .cancelled) : Lives Q P u ((t.step now e).after es) := by
  have hconfig : t.config = u.config := h.config
  rw [← hconfig] at hh
  obtain ⟨hid, hnode, hsame⟩ := step_same t now e
  refine ⟨hid.trans h.id, hnode.trans h.node, hsame.trans h.config, ?_⟩
  obtain hwaits | hbegun := h.life
  · by_cases hfirst : t.wait = .start ∧ e = .run
    · obtain ⟨hw, rfl⟩ := hfirst
      exact .inr (hwaits.run hw hh now)
    · exact .inl (hwaits.step now (fun hw he => hfirst ⟨hw, he⟩) hstop hcancel)
  · exact .inr (hbegun.step hh now hbrings hstop hcancel)

theorem Lives.run {es : List (Effect α)} (h : Lives Q P u ⟨t, es⟩) (hh : Hardy Q P u.config)
    {events : List (α × Event)} (hbrings : ∀ x ∈ events, x.2.Brings P)
    (hstop : ∀ x ∈ events, x.2 = .stop → Q .returned)
    (hcancel : ∀ x ∈ events, x.2 = .cancel → Q .cancelled) :
    Lives Q P u ((t.run events).after es) := by
  induction events generalizing t es with
  | nil =>
    rw [Task.run, Next.after, List.append_nil]
    exact h
  | cons x events ih =>
    obtain ⟨now, e⟩ := x
    obtain ⟨he, hbrings⟩ := List.forall_mem_cons.mp hbrings
    obtain ⟨hs, hstop⟩ := List.forall_mem_cons.mp hstop
    obtain ⟨hc, hcancel⟩ := List.forall_mem_cons.mp hcancel
    have hrest := ih (h.step hh now he hs hc) hbrings hstop hcancel
    simpa only [Task.run, Next.after, List.append_assoc] using hrest

theorem fresh_lives (id : Nat) (node : Catalog.Node) {config : Config α} (hh : Hardy Q P config)
    {events : List (α × Event)} (hbrings : ∀ x ∈ events, x.2.Brings P)
    (hstop : ∀ x ∈ events, x.2 = .stop → Q .returned)
    (hcancel : ∀ x ∈ events, x.2 = .cancel → Q .cancelled) :
    Lives Q P (fresh id node config) ((fresh id node config).run events) := by
  have hwaits : Waits Q (⟨fresh id node config, []⟩ : Next α) := by
    refine ⟨fun hr => hr.1 rfl, rfl, by simp, rfl, ?_, ?_⟩
    · exact fun h => by cases h
    · exact fun e he => by cases he
  have h : Lives Q P (fresh id node config) ⟨fresh id node config, []⟩ :=
    ⟨rfl, rfl, rfl, .inl hwaits⟩
  exact h.run hh hbrings hstop hcancel

omit [Quantity α] in
theorem ending?_eq_some {e : Ending} : t.ending? = some e ↔ t.wait = .ended e := by
  unfold ending?
  split
  · next e' hw => simp [hw]
  · next hw => simpa using hw e

theorem Begun.unreleased {n : Next α} (h : Begun Q P n) (hgoes : n.task.ending? = none) :
    releases n.effects = [] := by
  rw [h.released]
  refine farewell_of_running ⟨h.begun, fun e hw => ?_⟩
  cases hgoes.symm.trans (ending?_eq_some.mpr hw)

theorem Begun.left {n : Next α} (h : Begun Q P n) (hend : n.task.ending?.isSome) :
    n.task.stage = .stopped ∧ n.task.client = none ∧
      releases n.effects = [.release n.task.target n.task.id] := by
  obtain ⟨e, he⟩ := Option.isSome_iff_exists.mp hend
  have hw := ending?_eq_some.mp he
  have hsound := h.sound
  rw [Sound, hw] at hsound
  refine ⟨(h.spared.fate e (by rw [fate?, hw])).1, hsound, ?_⟩
  rw [h.released, farewell, hw]

/-- **A task survives every node, and leaves nothing behind.** Let the limits of a task be numbers
of seconds, as a configuration declares them, and its commands such as can be written. Whatever its
node sends, when and however connections are refused, ended, lost or closed by conditions of the
system, the task returns only when asked to stop, and otherwise ends only by being cancelled.
Whatever its limits are and whatever it meets, a task that has begun is stopped when it ends, has
no connection, and has given its node up exactly once; before it ends, it has not. -/
theorem survives (id : Nat) (node : Catalog.Node) (config : Config α) (events : List (α × Event))
    {n : Next α} (hn : (fresh id node config).run events = n) :
    (config.Proper → (∀ x ∈ events, x.2.Brings fun f => f.isSystem = true) →
      ∀ e, n.task.fate? = some e → e.Asked events) ∧
    (.started ∈ n.effects →
      (n.task.ending? = none → releases n.effects = []) ∧
      (n.task.ending?.isSome → n.task.stage = .stopped ∧ n.task.client = none ∧
        releases n.effects = [.release ⟨node.service, node.socket⟩ id])) := by
  subst hn
  constructor
  · intro hproper hsystem e he
    have hlives := fresh_lives (Q := Ending.Asked events) id node
      (.inr ⟨hproper, fun _ hf => hf⟩) hsystem
      (fun x hx hstop => ⟨x, hx, hstop⟩) (fun x hx hcancel => ⟨x, hx, hcancel⟩)
    obtain hwaits | hbegun := hlives.life
    · exact hwaits.fate e he
    · exact (hbegun.spared.fate e he).2
  · intro hstarted
    have hhardy : Hardy (fun _ => True) (fun _ => True) config := .inl fun _ => trivial
    have hlives := fresh_lives id node hhardy
      (fun x (_ : x ∈ events) => x.2.brings_of_all fun _ => trivial)
      (fun _ _ _ => trivial) (fun _ _ _ => trivial)
    obtain hwaits | hbegun := hlives.life
    · exact absurd hstarted hwaits.unstarted
    · refine ⟨hbegun.unreleased, fun hend => ?_⟩
      obtain ⟨hstage, hclient, hreleases⟩ := hbegun.left hend
      refine ⟨hstage, hclient, hreleases.trans ?_⟩
      rw [target, hlives.node, hlives.id]
      rfl

/-- A node that answers with nonsense, refuses, and loses its connection; then comes the stop. -/
def buffeted : List (Rat × Event) :=
  opening ++ [(0, .arrived (List.replicate 24 0)), (0, .closed (some reset)), (1, .tick),
    (1, .refused expiry), (2, .tick), (2, .opened), (2, .lost reset), (2, .stop), (2, .closed none)]

theorem secondly_proper : Config.secondly.Proper := by
  have hlimit : (TimeLimit.within (.whole 1) : TimeLimit Rat).IsNumber := ⟨1, by decide +kernel⟩
  exact ⟨hlimit, hlimit, hlimit, hlimit, _, _, rfl, rfl⟩

theorem buffeted_survives :
    Config.secondly.Proper ∧ (∀ x ∈ buffeted, x.2.Brings fun f => f.isSystem = true) ∧
    ((fresh 0 .lone .secondly).run buffeted).task.fate? = some .returned ∧
    Ending.returned.Asked buffeted ∧
    .started ∈ ((fresh 0 .lone .secondly).run buffeted).effects ∧
    ((fresh 0 .lone .secondly).run buffeted).task.ending?.isSome ∧
    ((fresh 0 .lone .secondly).run buffeted).task.stage = .stopped ∧
    ((fresh 0 .lone .secondly).run buffeted).task.client = none ∧
    releases ((fresh 0 .lone .secondly).run buffeted).effects = [.release ⟨"c", "h:1"⟩ 0] := by
  have hsystem : ∀ x ∈ buffeted, x.2.Brings fun f => f.isSystem = true := by
    simp [buffeted, opening, Event.Brings, reset, expiry, Fault.isSystem]
  have hfate : ((fresh 0 .lone .secondly).run buffeted).task.fate? = some .returned := by
    decide +kernel
  have hstarted : .started ∈ ((fresh 0 .lone .secondly).run buffeted).effects := by
    decide +kernel
  have hend : ((fresh 0 .lone .secondly).run buffeted).task.ending?.isSome := by
    decide +kernel
  obtain ⟨hsurvives, hleaves⟩ := survives 0 .lone .secondly buffeted rfl
  exact ⟨secondly_proper, hsystem, hfate, hsurvives secondly_proper hsystem _ hfate, hstarted, hend,
    (hleaves hstarted).2 hend⟩

end Task

end Probe

end FleetProbe
