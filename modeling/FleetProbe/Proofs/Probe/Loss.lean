import Mathlib.Data.List.TakeWhile
import FleetProbe.Proofs.Probe.Timeouts
/-!
What becomes of a task whose connection is lost. A loss met by a command is a failure of the probe:
it is counted, the connection is closed, and another one is opened after the backoff. A loss that
is a deadline is taken for a command that ran out of time instead, and the task goes on with the
connection it has lost.
-/

namespace FleetProbe.Probe.Task

open Exchange

variable {α : Type} {f : FleetProbe.Fault}

/-- A task that pauses with a connection it has lost. -/
structure Lost (f : FleetProbe.Fault) (t : Task α) : Prop where
  pauses : ∃ d, t.wait = .pause d
  client : ∃ c, t.client = some c ∧ c.link.Stands (some f)

/-- A task without connection that is about to end, or has. -/
structure Over (t : Task α) : Prop where
  client : t.client = none
  ends : (∃ e, t.wait = .closing (.ending e)) ∨ ∃ e, t.wait = .ended e

/-- A task without connection that does not ask for one. -/
structure Closed (t : Task α) : Prop where
  client : t.client = none
  waits : (∃ next, t.wait = .closing next) ∨ (∃ d, t.wait = .pause d) ∨ ∃ e, t.wait = .ended e

theorem Closed.ne_start {t : Task α} (h : Closed t) : t.wait ≠ .start := by
  obtain ⟨next, hw⟩ | ⟨d, hw⟩ | ⟨e, hw⟩ := h.waits
  all_goals simp [hw]

theorem Closed.ne_opening {t : Task α} (h : Closed t) (d : Option α) : t.wait ≠ .opening d := by
  obtain ⟨next, hw⟩ | ⟨d, hw⟩ | ⟨e, hw⟩ := h.waits
  all_goals simp [hw]

theorem Over.ne_pause {t : Task α} (h : Over t) (d : Option α) : t.wait ≠ .pause d := by
  obtain ⟨e, hw⟩ | ⟨e, hw⟩ := h.ends
  all_goals simp [hw]

theorem Over.closed {t : Task α} (h : Over t) : Closed t := by
  obtain ⟨hc, ⟨e, hw⟩ | ⟨e, hw⟩⟩ := h
  · exact ⟨hc, .inl ⟨_, hw⟩⟩
  · exact ⟨hc, .inr (.inr ⟨e, hw⟩)⟩

theorem shutdown_over (t : Task α) (e : Ending) : Over (t.shutdown e).task := by
  unfold shutdown
  simp only
  split
  · next hc => exact ⟨hc, .inr ⟨e, rfl⟩⟩
  · exact ⟨rfl, .inl ⟨e, rfl⟩⟩

/-- The task goes on with the connection it has lost, or is about to end. -/
structure Carries (f : FleetProbe.Fault) (n : Next α) : Prop where
  state : Lost f n.task ∨ Over n.task
  unfailed : .probeFailed ∉ n.effects
  unopened : .connect ∉ n.effects
  unsent : f.isDeadline = false → ∀ bs, .send bs ∉ n.effects

theorem carries_of_parting {n : Next α} (h : Lost f n.task ∨ Over n.task)
    (he : ∀ x ∈ n.effects, x.Parting) : Carries f n :=
  ⟨h, fun hm => he _ hm, fun hm => he _ hm, fun _ _ hm => he _ hm⟩

theorem Carries.after {n : Next α} {es : List (Effect α)} (h : Carries f n)
    (hes : ∀ x ∈ es, x.Probing) (hsent : f.isDeadline = false → ∀ bs, .send bs ∉ es) :
    Carries f (n.after es) := by
  refine ⟨h.state, fun hm => ?_, fun hm => ?_, fun hf bs hm => ?_⟩
  · exact (List.mem_append.mp hm).elim (fun hm => hes _ hm) h.unfailed
  · exact (List.mem_append.mp hm).elim (fun hm => hes _ hm) h.unopened
  · exact (List.mem_append.mp hm).elim (hsent hf bs) (h.unsent hf bs)

variable [Quantity α]

theorem pause_closed {t : Task α} (hc : t.client = none) (now : α) (delay : TimeLimit α) :
    Closed (t.pause now delay).task := by
  unfold pause
  split
  · exact (shutdown_over t _).closed
  · split
    · exact (shutdown_over t _).closed
    · exact ⟨hc, .inr (.inl ⟨_, rfl⟩)⟩

theorem failConnect_closed {t : Task α} (hc : t.client = none) (now : α) :
    Closed (t.failConnect now).task :=
  pause_closed (t := { t.countFailure with stage := .backoff }) hc now _

theorem connect_closed {t : Task α} (hc : t.client = none) (now : α) :
    Closed (t.connect now).task ∨ .connect ∈ (t.connect now).effects := by
  unfold connect
  simp only
  split
  · exact .inl (failConnect_closed hc now)
  · split
    · exact .inl (shutdown_over _ _).closed
    · exact .inr (by simp)

theorem turn_closed {t : Task α} (hc : t.client = none) (now : α) :
    (Closed (t.turn now).task ∨ .connect ∈ (t.turn now).effects) ∧
      ∀ x ∈ (t.turn now).effects, x.Quiet := by
  unfold turn
  split
  · exact ⟨.inl (shutdown_over t _).closed, fun x hx => (shutdown_parting t _ x hx).quiet⟩
  · rw [hc]
    exact ⟨connect_closed hc now, connect_quiet t now⟩

/-- Without a connection a task writes nothing, and asks for one before it has another. -/
theorem step_closed {t : Task α} (h : Closed t) (now : α) (e : Event) :
    (Closed (t.step now e).task ∨ .connect ∈ (t.step now e).effects) ∧
      ∀ x ∈ (t.step now e).effects, x.Quiet := by
  have hstill : (Closed (⟨t, []⟩ : Next α).task ∨ .connect ∈ (⟨t, []⟩ : Next α).effects) ∧
      ∀ x ∈ (⟨t, []⟩ : Next α).effects, x.Quiet := ⟨.inl h, by simp⟩
  cases e with
  | run =>
    rw [step_run_of_ne h.ne_start]
    exact hstill
  | opened =>
    rw [step_opened_of_ne h.ne_opening]
    exact hstill
  | refused g =>
    rw [step_refused_of_ne h.ne_opening]
    exact hstill
  | arrived bs =>
    rw [step, touch_of_none h.client]
    exact hstill
  | finished =>
    rw [step, touch_of_none h.client]
    exact hstill
  | lost g =>
    rw [step, touch_of_none h.client]
    exact hstill
  | closed g =>
    rw [step]
    split
    · refine ⟨.inl ?_, fun x hx => (afterClose_parting t now _ g x hx).quiet⟩
      unfold afterClose
      split
      · exact pause_closed (t := { t with stage := .backoff }) h.client now _
      · exact ⟨h.client, .inr (.inr ⟨_, rfl⟩)⟩
      · exact (shutdown_over t _).closed
    · exact hstill
  | tick =>
    rw [step]
    unfold expire
    obtain ⟨next, hw⟩ | ⟨d, hw⟩ | ⟨e, hw⟩ := h.waits
    · simpa only [hw] using hstill
    · simp only [hw]
      split
      · exact turn_closed h.client now
      · exact hstill
    · simpa only [hw] using hstill
  | stop =>
    rw [step]
    simp only
    split
    · exact turn_closed (t := { t with stopRequested := true }) h.client now
    · exact ⟨.inl ⟨h.client, h.waits⟩, by simp⟩
  | cancel =>
    refine ⟨.inl ?_, fun x hx => (cancel_parting t x hx).quiet⟩
    rw [step, cancel]
    obtain ⟨next, hw⟩ | ⟨d, hw⟩ | ⟨e, hw⟩ := h.waits
    · simp only [hw]
      exact (shutdown_over t _).closed
    · simp only [hw]
      exact (shutdown_over t _).closed
    · simp only [hw]
      exact h

/-- Whatever happens to a task without a connection, it asks for a new one before it writes. -/
theorem run_closed {t : Task α} (h : Closed t) (events : List (α × Event)) (bs : Bytes) :
    .send bs ∉ (t.run events).effects.takeWhile (!·.opens) := by
  induction events generalizing t with
  | nil => simp [run]
  | cons e events ih =>
    obtain ⟨hnext, hquiet⟩ := step_closed h e.1 e.2
    have hunsent : .send bs ∉ (t.step e.1 e.2).effects := fun hm => hquiet _ hm
    rw [run]
    simp only [Next.after, List.takeWhile_append]
    -- If this step opens a connection, nothing later counts.
    split
    · next hall =>
      intro hm
      obtain hm | hm := List.mem_append.mp hm
      · exact hunsent hm
      · obtain hclosed | hopen := hnext
        · exact ih hclosed hm
        · have hself := List.takeWhile_eq_self_iff.mp
            ((List.takeWhile_prefix _).eq_of_length hall)
          exact absurd (hself _ hopen) (by simp [Effect.opens])
    · exact fun hm => hunsent ((List.takeWhile_prefix _).subset hm)

/-- The probe fails: the failure is counted by the task and reported, and the connection is
closed. Once it is, the task pauses for the backoff and connects again, and before that nothing
more is written. -/
structure Fails (t : Task α) (n : Next α) : Prop where
  counted : n.task.failures = t.failures + 1
  effects : ∃ sent, (sent = [] ∨ ∃ bs, sent = [.send bs]) ∧
    n.effects = sent ++ [.probeFailed, .report (.failure t.target), .close]
  dropped : n.task.client = none
  reconnects : ∀ now g d, n.task.stopRequested = false → (∀ x, g = some x → x.isSystem = true) →
    t.config.backoff.deadline now = .ok d →
    ∃ u, n.task.step now (.closed g) = ⟨u, []⟩ ∧ u.wait = .pause d ∧
      ∀ later, d.any (· ≤ later) = true → u.step later .tick = u.connect later
  reopens : ∀ events bs, .send bs ∉ (n.task.run events).effects.takeWhile (!·.opens)

theorem pause_carries {t : Task α} {c : Client} (hc : t.client = some c)
    (hs : c.link.Stands (some f)) (now : α) (delay : TimeLimit α) :
    Carries f (t.pause now delay) := by
  refine carries_of_parting ?_ (pause_parting t now delay)
  unfold pause
  split
  · exact .inr (shutdown_over t _)
  · split
    · exact .inr (shutdown_over t _)
    · exact .inl ⟨⟨_, rfl⟩, c, hc, hs⟩

/-- A probe that passes leaves the task with the connection it has lost. -/
theorem settle_passes (t : Task α) (now : α) {o : Outcome α} (ho : Passes f o)
    (hs : Sane t.setup (some f) o) : Carries f (t.settle now o) := by
  unfold settle
  refine Carries.after ?_ hs.calm ho.quiet
  obtain hp | ⟨g, hp⟩ | ⟨g, hp⟩ := ho.progress
  · rw [hp]
    exact pause_carries rfl hs.stands now _
  · rw [hp]
    exact carries_of_parting (.inr (shutdown_over _ _)) (shutdown_parting _ _)
  · rw [hp]
    exact carries_of_parting (.inr (shutdown_over _ _)) (shutdown_parting _ _)

/-- Once its connection is closed a task pauses, whatever condition closing met with. -/
theorem step_closed_pauses {t : Task α} (hw : t.wait = .closing .backoff)
    (hstop : t.stopRequested = false) {g : Option FleetProbe.Fault}
    (hg : ∀ x, g = some x → x.isSystem = true) {now : α} {d : Option α}
    (hd : t.config.backoff.deadline now = .ok d) :
    t.step now (.closed g) = ⟨{ t with stage := .backoff, wait := .pause d }, []⟩ := by
  have hfilter : g.filter (fun x => !x.isSystem) = none := by
    cases g with
    | none => rfl
    | some x => simp [hg x rfl]
  simp only [step, hw, afterClose, hfilter, backOff, pause, hd, hstop, Bool.false_eq_true,
    if_false]

/-- When its pause is over, a task without a connection opens one. -/
theorem step_tick_connects {t : Task α} {d : Option α} (hw : t.wait = .pause d)
    (hc : t.client = none) (hstop : t.stopRequested = false) {later : α}
    (hlater : d.any (· ≤ later) = true) : t.step later .tick = t.connect later := by
  simp only [step, expire, hw, hlater, if_true, turn, hstop, hc, Bool.false_eq_true, if_false]

/-- A probe that breaks makes the task give up its connection. -/
theorem settle_fails (t : Task α) (now : α) {o : Outcome α} (ho : Breaks f o)
    (hf : f.isSystem = true) : Fails t (t.settle now o) := by
  have hn : t.settle now o =
      ⟨{ t with failures := t.failures + 1, client := none, wait := .closing .backoff },
        o.effects ++ [.probeFailed, .report (.failure t.target), .close]⟩ := by
    have hcrash : crash? (.client (.link f)) = none := by rw [crash?, if_pos hf]
    simp only [settle, ho.progress, hcrash]
    rfl
  rw [hn]
  refine ⟨rfl, ⟨o.effects, ho.effects, rfl⟩, rfl, ?_, run_closed ⟨rfl, .inl ⟨_, rfl⟩⟩⟩
  intro at_ g d hstop hg hd
  refine ⟨_, step_closed_pauses rfl hstop hg hd, rfl, fun later hlater => ?_⟩
  refine step_tick_connects rfl rfl ?_ hlater
  exact hstop

theorem turn_lost {t : Task α} {c : Client} (hc : t.client = some c)
    (hs : c.link.Stands (some f)) (hf : f.isSystem = true) (now : α) :
    (f.isDeadline = false ∧ Fails t (t.turn now)) ∨ Carries f (t.turn now) := by
  unfold turn
  split
  · exact .inr (carries_of_parting (.inr (shutdown_over t _)) (shutdown_parting t _))
  · rw [hc]
    obtain hp | hb := begin_lost (s := t.setup) now hs
    · exact .inr (settle_passes t now hp (begin_sane now hs))
    · exact .inl ⟨hb.kind, settle_fails t now hb hf⟩

/-- A task that is about to end does nothing but end. -/
theorem step_over {t : Task α} (h : Over t) (now : α) (e : Event) :
    Carries f (t.step now e) := by
  have hstill : Carries f (⟨t, []⟩ : Next α) := carries_of_parting (.inr h) (by simp)
  cases e with
  | run =>
    rw [step_run_of_ne h.closed.ne_start]
    exact hstill
  | opened =>
    rw [step_opened_of_ne h.closed.ne_opening]
    exact hstill
  | refused g =>
    rw [step_refused_of_ne h.closed.ne_opening]
    exact hstill
  | arrived bs =>
    rw [step, touch_of_none h.client]
    exact hstill
  | finished =>
    rw [step, touch_of_none h.client]
    exact hstill
  | lost g =>
    rw [step, touch_of_none h.client]
    exact hstill
  | closed g =>
    obtain ⟨e, hw⟩ | ⟨e, hw⟩ := h.ends
    · simp only [step, hw]
      refine carries_of_parting (.inr ?_) (afterClose_parting t now _ g)
      unfold afterClose
      split
      · next hnext => cases hnext
      · exact ⟨h.client, .inr ⟨_, rfl⟩⟩
      · exact shutdown_over t _
    · simpa only [step, hw] using hstill
  | tick =>
    obtain ⟨e, hw⟩ | ⟨e, hw⟩ := h.ends
    all_goals simpa only [step, expire, hw] using hstill
  | stop =>
    rw [step_stop_of_ne h.ne_pause]
    exact carries_of_parting (.inr ⟨h.client, h.ends⟩) (by simp)
  | cancel =>
    refine carries_of_parting (.inr ?_) (cancel_parting t)
    rw [step, cancel]
    obtain ⟨e, hw⟩ | ⟨e, hw⟩ := h.ends
    · simp only [hw]
      exact shutdown_over t _
    · simp only [hw]
      exact h

/-- A change that leaves a lost connection lost is nothing to a task that pauses. -/
theorem touch_lost {t : Task α} (h : Lost f t) (now : α) (change : Link → Link)
    (hchange : ∀ l : Link, l.Stands (some f) → (change l).Stands (some f)) :
    Carries f (t.touch now change) := by
  obtain ⟨⟨d, hw⟩, c, hc, hs⟩ := h
  simp only [touch, hc, hw]
  exact carries_of_parting (.inl ⟨⟨d, rfl⟩, _, rfl, hchange _ hs⟩) (by simp)

/-- A task with a lost connection fails when it meets the loss, and carries on until then. -/
theorem step_carries {t : Task α} (h : Lost f t ∨ Over t) (hf : f.isSystem = true) (now : α)
    {e : Event} (he : ∀ g, e ≠ .lost g) :
    (f.isDeadline = false ∧ Fails t (t.step now e)) ∨ Carries f (t.step now e) := by
  obtain h | h := h
  · obtain ⟨⟨d, hw⟩, c, hc, hs⟩ := h
    have hstill : Carries f (⟨t, []⟩ : Next α) :=
      carries_of_parting (.inl ⟨⟨d, hw⟩, c, hc, hs⟩) (by simp)
    cases e with
    | run =>
      rw [step_run_of_ne (by simp [hw])]
      exact .inr hstill
    | opened =>
      rw [step_opened_of_ne (by simp [hw])]
      exact .inr hstill
    | refused g =>
      rw [step_refused_of_ne (by simp [hw])]
      exact .inr hstill
    | arrived bs =>
      exact .inr (touch_lost ⟨⟨d, hw⟩, c, hc, hs⟩ now (·.receive bs) fun _ hl => hl.receive bs)
    | finished =>
      exact .inr (touch_lost ⟨⟨d, hw⟩, c, hc, hs⟩ now Link.finish fun _ hl => hl.finish)
    | lost g => exact absurd rfl (he g)
    | closed g =>
      rw [step_closed_of_ne (by simp [hw])]
      exact .inr hstill
    | tick =>
      simp only [step, expire, hw]
      split
      · exact turn_lost hc hs hf now
      · exact .inr hstill
    | stop =>
      simp only [step, hw]
      refine .inr ?_
      rw [turn, if_pos rfl]
      exact carries_of_parting (.inr (shutdown_over _ _)) (shutdown_parting _ _)
    | cancel =>
      refine .inr (carries_of_parting (.inr ?_) (cancel_parting t))
      simp only [step, cancel, hw]
      exact shutdown_over t _
  · exact .inr (step_over h now e)

/-- At the loss a command that waits fails, or is taken for timed out; a pause goes on. -/
theorem step_loss {t : Task α} {c : Client} (h : Sound (fun _ => True) t) (hc : t.client = some c)
    (hf : f.isSystem = true) (now : α) :
    (f.isDeadline = false ∧ Fails t (t.step now (.lost f))) ∨
      (Carries f (t.step now (.lost f)) ∧
        ((∃ w, t.wait = .reply w) → f.isDeadline = true)) := by
  have hs := c.link.lose_stands f
  unfold Sound at h
  split at h
  · next w hw =>
    obtain ⟨d, hd, -, hpop, hdeadline⟩ := h
    cases hc.symm.trans hd
    simp only [step, touch, hc, hw]
    obtain ⟨hkind, hp⟩ | hb :=
      resume_lost (s := t.setup) now w (c := { c with link := c.link.lose f }) hs hpop
    · exact .inr ⟨settle_passes t now hp (resume_sane now hdeadline hs), fun _ => hkind⟩
    · exact .inl ⟨hb.kind, settle_fails t now hb hf⟩
  · next d hw =>
    simp only [step, touch, hc, hw]
    refine .inr ⟨carries_of_parting (.inl ⟨⟨d, rfl⟩, _, rfl, hs⟩) (by simp), ?_⟩
    rintro ⟨w, hr⟩
    cases hr
  · rw [h] at hc
    cases hc

/-- A connection is lost once: before another loss, a new connection is asked for. -/
def LostOnce (t : Task α) (events : List (α × Event)) : Prop :=
  ∀ mid now g rest, events = mid ++ (now, .lost g) :: rest → .connect ∈ (t.run mid).effects

/-- The first command of a run that meets the loss makes the probe fail. -/
def Replaced (t : Task α) (events : List (α × Event)) : Prop :=
  ∃ mid now e rest, events = mid ++ (now, e) :: rest ∧
    (∀ bs, .send bs ∉ (t.run mid).effects) ∧
    Fails (t.run mid).task ((t.run mid).task.step now e)

theorem LostOnce.head {t : Task α} {now : α} {e : Event} {events : List (α × Event)}
    (h : LostOnce t ((now, e) :: events)) : ∀ g, e ≠ .lost g := by
  rintro g rfl
  have hm := h [] now g events rfl
  cases hm

theorem LostOnce.tail {t : Task α} {now : α} {e : Event} {events : List (α × Event)}
    (h : LostOnce t ((now, e) :: events)) (hn : .connect ∉ (t.step now e).effects) :
    LostOnce (t.step now e).task events := by
  intro mid at_ g rest hevents
  have hm := h ((now, e) :: mid) at_ g rest (by rw [hevents, List.cons_append])
  rw [run] at hm
  exact (List.mem_append.mp hm).resolve_left hn

theorem LostOnce.take {t : Task α} {es fs : List (α × Event)} (h : LostOnce t (es ++ fs)) :
    LostOnce t es := by
  intro mid now g rest hes
  exact h mid now g (rest ++ fs) (by rw [hes]; simp)

/-- After a loss that is a deadline, a run carries on for ever. -/
theorem run_carries {t : Task α} (h : Lost f t ∨ Over t) (hf : f.isSystem = true)
    (hd : f.isDeadline = true) (events : List (α × Event)) (honce : LostOnce t events) :
    Carries f (t.run events) := by
  induction events generalizing t with
  | nil => exact carries_of_parting h (by simp [run])
  | cons x events ih =>
    obtain ⟨now, e⟩ := x
    obtain ⟨hnot, -⟩ | hstep := step_carries h hf now honce.head
    · rw [hd] at hnot
      cases hnot
    · have hrest := ih hstep.state (honce.tail hstep.unopened)
      refine ⟨hrest.state, fun hm => ?_, fun hm => ?_, fun hnot => ?_⟩
      · exact (List.mem_append.mp hm).elim hstep.unfailed hrest.unfailed
      · exact (List.mem_append.mp hm).elim hstep.unopened hrest.unopened
      · rw [hd] at hnot
        cases hnot

/-- After any other loss, the first command that is written makes the probe fail. -/
theorem run_meets {t : Task α} (h : Lost f t ∨ Over t) (hf : f.isSystem = true)
    (hd : f.isDeadline = false) {events : List (α × Event)} (honce : LostOnce t events)
    {bs : Bytes} (hsent : .send bs ∈ (t.run events).effects) : Replaced t events := by
  induction events generalizing t with
  | nil => cases hsent
  | cons x events ih =>
    obtain ⟨now, e⟩ := x
    obtain ⟨-, hfails⟩ | hstep := step_carries h hf now honce.head
    · exact ⟨[], now, e, events, rfl, by simp [run], hfails⟩
    · rw [run] at hsent
      have hrest := (List.mem_append.mp hsent).resolve_left (hstep.unsent hd bs)
      obtain ⟨mid, at_, e', rest, hevents, hquiet, hfails⟩ :=
        ih hstep.state (honce.tail hstep.unopened) hrest
      refine ⟨(now, e) :: mid, at_, e', rest, by rw [hevents, List.cons_append], ?_, hfails⟩
      intro bs' hm
      rw [run] at hm
      exact (List.mem_append.mp hm).elim (hstep.unsent hd bs') (hquiet bs')

/-- A loss that a command meets is followed by a new connection, unless it is a deadline. -/
theorem replaced_iff_of_sound {t : Task α} {c : Client} (h : Sound (fun _ => True) t)
    (hc : t.client = some c) (hf : f.isSystem = true) (now : α) {events : List (α × Event)}
    (honce : LostOnce (t.step now (.lost f)).task events)
    (hmet : (∃ w, t.wait = .reply w) ∨
      ∃ bs, .send bs ∈ (t.run ((now, .lost f) :: events)).effects) :
    Replaced t ((now, .lost f) :: events) ↔ f.isDeadline = false := by
  obtain ⟨hd, hfails⟩ | ⟨hcarries, hreply⟩ := step_loss h hc hf now
  · exact ⟨fun _ => hd, fun _ => ⟨[], now, .lost f, events, rfl, by simp [run], hfails⟩⟩
  · constructor
    · rintro ⟨mid, at_, e, rest, hevents, -, hfails⟩
      by_contra hd
      have hdl : f.isDeadline = true := by simpa using hd
      have hunfailed : .probeFailed ∉ ((t.run mid).task.step at_ e).effects := by
        cases mid with
        | nil =>
          cases hevents
          exact hcarries.unfailed
        | cons x mid =>
          cases hevents
          -- A deadline is never noticed, so no later step fails either.
          have hmid := run_carries hcarries.state hf hdl mid honce.take
          have hne : ∀ g, e ≠ .lost g := by
            rintro g rfl
            exact hmid.unopened (honce mid at_ g rest rfl)
          obtain ⟨hnot, -⟩ | hstep := step_carries hmid.state hf at_ hne
          · exact absurd hdl (by simp [hnot])
          · exact hstep.unfailed
      obtain ⟨sent, -, heffects⟩ := hfails.effects
      rw [heffects] at hunfailed
      simp at hunfailed
    · intro hd
      obtain hw | ⟨bs, hsent⟩ := hmet
      · exact absurd (hreply hw) (by simp [hd])
      · rw [run] at hsent
        have hrest := (List.mem_append.mp hsent).resolve_left (hcarries.unsent hd bs)
        obtain ⟨mid, at_, e, rest, hevents, hquiet, hfails⟩ :=
          run_meets hcarries.state hf hd honce hrest
        refine ⟨(now, .lost f) :: mid, at_, e, rest, by rw [hevents, List.cons_append], ?_, hfails⟩
        intro bs' hm
        rw [run] at hm
        exact (List.mem_append.mp hm).elim (hcarries.unsent hd bs') (hquiet bs')

/-- A task that has not run yet. -/
def fresh (id : Nat) (node : Catalog.Node) (config : Config α) : Task α := { id, node, config }

theorem fresh_sound (P : FleetProbe.Fault → Prop) (id : Nat) (node : Catalog.Node)
    (config : Config α) : Sound P (fresh id node config) :=
  sound_of_none rfl (by simp [fresh])

/-- **A lost connection is replaced, unless it is lost by a deadline.** In every run of a task, the
first command that meets the loss of the connection makes the probe fail, and the task gives the
connection up and connects again after the backoff, exactly when the loss is no deadline. And where
no connection is lost by a deadline, a command is recorded as timed out only after all of its
time. -/
theorem replaced_iff (id : Nat) (node : Catalog.Node) (config : Config α) :
    (∀ (before after : List (α × Event)) (now : α) (f : FleetProbe.Fault) (t : Task α),
      t = ((fresh id node config).run before).task → t.client.isSome → f.isSystem = true →
      LostOnce (t.step now (.lost f)).task after →
      ((∃ w, t.wait = .reply w) ∨ ∃ bs, .send bs ∈ (t.run ((now, .lost f) :: after)).effects) →
      (Replaced t ((now, .lost f) :: after) ↔ f.isDeadline = false)) ∧
    (∀ (before : List (α × Event)) (now : α) (e : Event) (t : Task α),
      t = ((fresh id node config).run before).task →
      (∀ x ∈ before ++ [(now, e)], ∀ g, x.2 = .lost g → g.isDeadline = false) →
      ∀ target command x,
        .report (.request target command timeoutStatus x) ∈ (t.step now e).effects →
        t.config.timeout.isOver = true ∨
          ∃ w limit, t.wait = .reply w ∧ t.config.timeout.seconds = .ok limit ∧
            w.started + limit ≤ now) := by
  constructor
  · rintro before after now f t rfl hsome hf honce hmet
    obtain ⟨c, hc⟩ := Option.isSome_iff_exists.mp hsome
    have hsound := run_sound (fresh_sound (fun _ => True) id node config) before
      fun _ _ _ _ => trivial
    exact replaced_iff_of_sound hsound hc hf now honce hmet
  · rintro before now e t rfl hplain target command x hm
    have hsound := run_sound (fresh_sound Plain id node config) before
      fun y hy => hplain y (List.mem_append_left _ hy)
    have he : ∀ g, e = .lost g → Plain g := hplain (now, e) (by simp)
    exact timeout_elapsed hsound now he hm

/-- A task up to its first command. -/
def opening : List (Rat × Event) := [(0, .run), (0, .opened)]

def reset : FleetProbe.Fault := ⟨.system, "reset", ""⟩

/-- A loss that comes as a deadline. -/
def expiry : FleetProbe.Fault := ⟨.deadline, "expiry", ""⟩

theorem lostOnce_nil {t : Task α} : LostOnce t [] := by
  intro mid now g rest h
  cases mid with
  | nil => cases h
  | cons => cases h

theorem opening_waits :
    ((fresh 0 .lone .secondly).run opening).task.wait = .reply ⟨.set, 1, 0, some 1⟩ := by
  decide +kernel

theorem opening_replaced :
    Replaced ((fresh 0 .lone .secondly).run opening).task [(0, .lost reset)] ∧
    (((fresh 0 .lone .secondly).run opening).task.config.timeout.isOver = true ∨
      ∃ w limit, ((fresh 0 .lone .secondly).run opening).task.wait = .reply w ∧
        ((fresh 0 .lone .secondly).run opening).task.config.timeout.seconds = .ok limit ∧
        w.started + limit ≤ (1 : Rat)) := by
  obtain ⟨hreplaced, helapsed⟩ := replaced_iff 0 .lone .secondly
  constructor
  · exact (hreplaced opening [] 0 reset _ rfl (by decide +kernel) rfl lostOnce_nil
      (.inl ⟨_, opening_waits⟩)).mpr rfl
  · refine helapsed opening 1 .tick _ rfl (by simp [opening]) ⟨"c", "h:1"⟩ "set" 1 ?_
    decide +kernel

/-- A loss that is a deadline goes unnoticed. -/
theorem expiry_not_replaced :
    ¬ ∀ (before after : List (Rat × Event)) (now : Rat) (f : FleetProbe.Fault) (t : Task Rat),
      t = ((fresh 0 .lone .secondly).run before).task → t.client.isSome → f.isSystem = true →
      LostOnce (t.step now (.lost f)).task after →
      ((∃ w, t.wait = .reply w) ∨ ∃ bs, .send bs ∈ (t.run ((now, .lost f) :: after)).effects) →
      Replaced t ((now, .lost f) :: after) := by
  intro h
  obtain ⟨mid, now, e, rest, hevents, -, hfails⟩ :=
    h opening [] 0 expiry _ rfl (by decide +kernel) rfl lostOnce_nil (.inl ⟨_, opening_waits⟩)
  cases mid with
  | nil =>
    cases hevents
    have hcounted := hfails.counted
    revert hcounted
    decide +kernel
  | cons x mid =>
    obtain ⟨-, hnil⟩ := List.cons.inj hevents
    cases mid with
    | nil => cases hnil
    | cons => cases hnil

end FleetProbe.Probe.Task
