import FleetProbe.Proofs.Probe.Loss
import FleetProbe.Proofs.Probe.Steps
/-!
What a task still does once it is asked to stop. The request is looked at between rounds only, so
what is under way goes on, but the round after it is the last: nothing is begun any more, a pause
ends at once, and a connection that opens is closed before anything is written on it.
-/

namespace FleetProbe.Probe.Task

open Effect Exchange

variable {α : Type}

/-- How many probes and connections have come to an end, the one under way as if it had. -/
def tally (t : Task α) : Nat :=
  t.probes + t.failures + if t.wait.underWay?.isSome then 1 else 0

theorem tally_of_idle {t : Task α} (h : t.wait.underWay? = none) :
    t.tally = t.probes + t.failures := by
  rw [tally, h]
  rfl

theorem tally_of_busy {t : Task α} {s : Start} (h : t.wait.underWay? = some s) :
    t.tally = t.probes + t.failures + 1 := by
  rw [tally, h]
  rfl

/-- How many requests the probe under way has still to write. -/
def owed (t : Task α) : Nat :=
  match t.wait with
  | .reply w => w.phase.owed
  | _ => 0

theorem owed_of_connecting {t : Task α} (h : t.wait.underWay? = some .connect) : t.owed = 0 := by
  unfold owed
  split
  · next w hw =>
    rw [hw] at h
    cases h
  · rfl

/-- What is next for a task that is asked to stop: it goes on with what is under way or ends, and
writes so many requests at most. -/
structure Winds (t : Task α) (k : Nat) (n : Next α) : Prop where
  asked : n.task.stopRequested = true
  unpaused : ∀ d, n.task.wait ≠ .pause d
  onward : n.task.wait.underWay? = none ∨ n.task.wait.underWay? = t.wait.underWay?
  counted : n.task.tally ≤ t.tally
  unopened : .connect ∉ n.effects
  quiet : t.wait.underWay? ≠ some .probe → ∀ x ∈ n.effects, x.Quiet
  written : (sends n.effects).length + n.task.owed ≤ k

namespace Winds

variable {t u : Task α} {k m : Nat} {n : Next α} {es : List (Effect α)}

theorem still (hstop : u.stopRequested = true) (hpause : ∀ d, u.wait ≠ .pause d)
    (hwait : u.wait = t.wait) (hcount : u.probes + u.failures = t.probes + t.failures) :
    Winds t t.owed ⟨u, []⟩ := by
  refine ⟨hstop, hpause, .inr (by rw [hwait]), ?_, by simp, by simp, ?_⟩
  · simp only [tally, hwait, hcount, Nat.le_refl]
  · simp only [owed, hwait, sends_nil, List.length_nil, Nat.zero_add, Nat.le_refl]

theorem mono (h : Winds t m n) (hk : m ≤ k) : Winds t k n :=
  { h with written := h.written.trans hk }

theorem after (h : Winds t m n) (hopen : .connect ∉ es)
    (hquiet : t.wait.underWay? ≠ some .probe → ∀ x ∈ es, x.Quiet)
    (hes : (sends es).length + m ≤ k) : Winds t k (n.after es) := by
  refine ⟨h.asked, h.unpaused, h.onward, h.counted, ?_, ?_, ?_⟩
  · intro hm
    exact (List.mem_append.mp hm).elim hopen h.unopened
  · intro hidle
    exact List.forall_mem_append.mpr ⟨hquiet hidle, h.quiet hidle⟩
  · have hwritten := h.written
    simp only [Next.after, sends_append, List.length_append]
    omega

theorem afterQuiet (h : Winds t k n) (hopen : .connect ∉ es) (hquiet : ∀ x ∈ es, x.Quiet) :
    Winds t k (n.after es) := by
  refine h.after hopen (fun _ => hquiet) ?_
  rw [sends_of_quiet hquiet]
  exact Nat.le_of_eq (Nat.zero_add k)

theorem trans (h : Winds t k n) {n' : Next α} (hn : Winds n.task n.task.owed n') :
    Winds t k (n'.after n.effects) := by
  refine ⟨hn.asked, hn.unpaused, ?_, hn.counted.trans h.counted, ?_, fun hidle => ?_, ?_⟩
  · obtain hnone | hsame := hn.onward
    · exact .inl hnone
    · obtain hnone | hsame' := h.onward
      · exact .inl (hsame.trans hnone)
      · exact .inr (hsame.trans hsame')
  · intro hm
    exact (List.mem_append.mp hm).elim h.unopened hn.unopened
  · have hstill : n.task.wait.underWay? ≠ some .probe := by
      obtain hnone | hsame := h.onward
      · simp [hnone]
      · rwa [hsame]
    exact List.forall_mem_append.mpr ⟨h.quiet hidle, hn.quiet hstill⟩
  · have hfirst := h.written
    have hrest := hn.written
    simp only [Next.after, sends_append, List.length_append]
    omega

end Winds

theorem shutdown_winds {s t : Task α} (hstop : t.stopRequested = true)
    (hcount : t.probes + t.failures ≤ s.tally) (how : Ending) : Winds s 0 (t.shutdown how) := by
  obtain ⟨hprobes, hfailures, hasked⟩ := t.shutdown_counts how
  have hparting := t.shutdown_parting how
  obtain ⟨-, hends⟩ := t.shutdown_over how
  have hquiet : sends (t.shutdown how).effects = [] :=
    sends_of_quiet fun x hx => (hparting x hx).quiet
  have hwait : (∀ d, (t.shutdown how).task.wait ≠ .pause d) ∧
      (t.shutdown how).task.wait.underWay? = none ∧ (t.shutdown how).task.owed = 0 := by
    obtain ⟨e, hw⟩ | ⟨e, hw⟩ := hends
    · exact ⟨by simp [hw], by rw [hw]; rfl, by rw [owed, hw]⟩
    · exact ⟨by simp [hw], by rw [hw]; rfl, by rw [owed, hw]⟩
  obtain ⟨hpause, hunder, howed⟩ := hwait
  refine ⟨hasked.trans hstop, hpause, .inl hunder, ?_, fun hm => hparting _ hm,
    fun _ x hx => (hparting x hx).quiet, ?_⟩
  · rw [tally_of_idle hunder, hprobes, hfailures]
    exact hcount
  · rw [hquiet, howed]
    exact Nat.le_refl 0

variable [Quantity α] {s t : Task α}

/-- A task that is asked to stop ends instead of pausing. -/
theorem pause_winds (hstop : t.stopRequested = true) (hcount : t.probes + t.failures ≤ s.tally)
    (now : α) (delay : TimeLimit α) : Winds s 0 (t.pause now delay) := by
  obtain ⟨how, hshut⟩ | ⟨hgo, -⟩ := t.pause_cases now delay
  · rw [hshut]
    exact shutdown_winds hstop hcount how
  · exact absurd (hstop.symm.trans hgo) (by simp)

theorem settle_winds (hstop : t.stopRequested = true) {w : Waiting α} (hw : t.wait = .reply w)
    (now : α) {o : Outcome α} (ho : o.Within w.phase.owed) : Winds t t.owed (t.settle now o) := by
  have hopen : .connect ∉ o.effects := fun hm => ho.calm _ hm
  have hwritten : (sends o.effects).length + o.owed ≤ t.owed := by
    rw [owed, hw]
    exact ho.written
  have htally : t.tally = t.probes + t.failures + 1 := tally_of_busy (s := .probe) (by rw [hw]; rfl)
  have hbusy (es : List (Effect α)) : t.wait.underWay? ≠ some .probe → ∀ x ∈ es, x.Quiet := by
    rw [hw]
    exact fun hidle => absurd rfl hidle
  have hends : (sends o.effects).length + 0 ≤ t.owed :=
    Nat.le_trans (Nat.add_le_add_left (Nat.zero_le _) _) hwritten
  unfold settle
  dsimp only
  cases hp : o.progress with
  | waiting v =>
    rw [Outcome.owed, hp] at hwritten
    refine Winds.after (m := v.phase.owed) ⟨hstop, by simp, ?_, ?_, by simp, by simp, ?_⟩
      hopen (hbusy _) hwritten
    · rw [hw]
      exact .inr rfl
    · rw [htally]
      exact Nat.le_refl _
    · exact Nat.le_of_eq (Nat.zero_add _)
  | finished =>
    refine (pause_winds (t := { t with client := some o.client, probes := t.probes + 1 })
      hstop ?_ now _).after hopen (hbusy _) hends
    rw [htally, Nat.add_right_comm]
  | failed f =>
    dsimp only
    split
    · refine (shutdown_winds (t := { t with client := some o.client }) hstop ?_ _).after
        hopen (hbusy _) hends
      rw [htally]
      exact Nat.le_succ _
    · refine Winds.after (m := 0)
        ⟨hstop, by simp, .inl rfl, ?_, by simp, hbusy _, Nat.le_refl 0⟩
        hopen (hbusy _) hends
      rw [htally, tally_of_idle rfl]
      exact Nat.le_refl _

theorem failConnect_winds (hstop : t.stopRequested = true) {d : Option α}
    (hw : t.wait = .opening d) (now : α) : Winds t 0 (t.failConnect now) := by
  refine (pause_winds (t := { t.countFailure with stage := .backoff }) hstop ?_ now _).afterQuiet
    (by simp) (by simp [Effect.Quiet])
  rw [tally_of_busy (s := .connect) (by rw [hw]; rfl)]
  exact Nat.le_refl _

theorem afterClose_winds (hstop : t.stopRequested = true) (now : α) (next : AfterClose)
    (f : Option FleetProbe.Fault) : Winds t 0 (t.afterClose now next f) := by
  have hcount : t.probes + t.failures ≤ t.tally := Nat.le_add_right _ _
  unfold afterClose
  split
  · exact pause_winds (t := { t with stage := .backoff }) hstop hcount now _
  · exact ⟨hstop, by simp [finish], .inl rfl, hcount, by simp [finish],
      fun _ x hx => (finish_parting t _ x hx).quiet, Nat.le_refl 0⟩
  · exact shutdown_winds hstop hcount _

theorem course_winds (hstop : t.stopRequested = true) (hpause : ∀ d, t.wait ≠ .pause d) {now : α}
    {e : Event} {n : Next α} (hn : Course t now e n) : Winds t t.owed n := by
  have hcount : t.probes + t.failures ≤ t.tally := Nat.le_add_right _ _
  cases hn with
  | idle => exact .still hstop hpause rfl rfl
  | asked => exact .still rfl hpause rfl rfl
  | noted => exact .still hstop hpause rfl rfl
  | resumes e change hw => exact settle_winds hstop hw now (resume_within now _ _)
  | expires hw => exact settle_winds hstop hw now (expire_within now _ _)
  | refused e es hw hes =>
    exact ((failConnect_winds hstop hw now).mono (Nat.zero_le _)).afterQuiet
      (fun hm => hes _ hm) fun x hx => (hes x hx).quiet
  | closed f hw => exact (afterClose_winds hstop now _ f).mono (Nat.zero_le _)
  | shut e how es hes =>
    exact ((shutdown_winds hstop hcount how).mono (Nat.zero_le _)).afterQuiet
      (fun hm => hes _ hm) fun x hx => (hes x hx).quiet
  | unbegun hw => exact ⟨hstop, by simp, .inl rfl, hcount, by simp, by simp, Nat.zero_le _⟩

theorem step_winds (hstop : t.stopRequested = true) (hpause : ∀ d, t.wait ≠ .pause d) (now : α)
    (e : Event) : Winds t t.owed (t.step now e) := by
  cases hu : t.round? now e with
  | none => exact course_winds hstop hpause (step_course hu)
  | some u =>
    obtain ⟨es, hquiet, hopen, hstep⟩ := step_of_round? hu
    obtain ⟨hprobes, hfailures⟩ := counts_of_round? hu
    have hasked := stopRequested_of_round? hu (.inl hstop)
    have hcount : u.probes + u.failures ≤ t.tally := by
      rw [hprobes, hfailures]
      exact Nat.le_add_right _ _
    rw [hstep, turn, if_pos hasked]
    exact ((shutdown_winds hasked hcount .returned).mono (Nat.zero_le _)).afterQuiet hopen hquiet

/-- A pause is broken off by the request to stop. -/
theorem step_stop_pause {d : Option α} (hw : t.wait = .pause d) (now : α) :
    t.step now .stop = { t with stopRequested := true }.shutdown .returned := by
  simp only [step, hw, turn, if_true]

theorem stop_winds (t : Task α) (now : α) : Winds t t.owed (t.step now .stop) := by
  by_cases hpause : ∃ d, t.wait = .pause d
  · obtain ⟨d, hw⟩ := hpause
    rw [step_stop_pause hw]
    have hcount : t.probes + t.failures ≤ t.tally := Nat.le_add_right _ _
    exact (shutdown_winds (t := { t with stopRequested := true }) rfl hcount .returned).mono
      (Nat.zero_le _)
  · have hne (d : Option α) : t.wait ≠ .pause d := fun hw => hpause ⟨d, hw⟩
    rw [step_stop_of_ne hne]
    exact .still rfl hne rfl rfl

theorem run_winds (hstop : t.stopRequested = true) (hpause : ∀ d, t.wait ≠ .pause d)
    (events : List (α × Event)) : Winds t t.owed (t.run events) := by
  induction events generalizing t with
  | nil => exact .still hstop hpause rfl rfl
  | cons y events ih =>
    have hstep := step_winds hstop hpause y.1 y.2
    exact hstep.trans (ih hstep.asked hstep.unpaused)

theorem stop_run_winds (t : Task α) (now : α) (events : List (α × Event)) :
    Winds t t.owed (t.run ((now, .stop) :: events)) := by
  have hstop := stop_winds t now
  exact hstop.trans (run_winds hstop.asked hstop.unpaused events)

/-- The rest of a run, from any moment since the request. -/
theorem rest_winds {now : α} {after past rest : List (α × Event)}
    (h : (now, .stop) :: after = past ++ rest) :
    Winds (t.run past).task (t.run past).task.owed ((t.run past).task.run rest) := by
  cases past with
  | nil =>
    obtain rfl : (now, .stop) :: after = rest := h
    exact stop_run_winds t now after
  | cons y past =>
    obtain ⟨rfl, -⟩ := List.cons.inj h
    have hpast := stop_run_winds t now past
    exact run_winds hpast.asked hpast.unpaused rest

/-- What a task does from a request to stop on. -/
structure WindsUp (t : Task α) (now : α) (after : List (α × Event)) : Prop where
  /-- Neither a connection nor a probe is begun. -/
  begins : ∀ past at_ e rest, (now, .stop) :: after = past ++ (at_, e) :: rest →
    (t.run past).task.starts? at_ e = none
  unopened : .connect ∉ (t.run ((now, .stop) :: after)).effects
  /-- What is under way has been so since the request. -/
  onward : ∀ past, past <+: (now, .stop) :: after →
    (t.run ((now, .stop) :: after)).task.wait.underWay? = none ∨
      (t.run ((now, .stop) :: after)).task.wait.underWay? = (t.run past).task.wait.underWay?
  /-- It alone may come to an end. -/
  counted : ∀ past, past <+: (now, .stop) :: after →
    (t.run ((now, .stop) :: after)).task.tally ≤ (t.run past).task.tally
  /-- As long as no probe is under way, nothing of a probe happens. -/
  quiet : ∀ past rest, (now, .stop) :: after = past ++ rest →
    (t.run past).task.wait.underWay? ≠ some .probe →
    ∀ x ∈ ((t.run past).task.run rest).effects, x.Quiet
  unpaused : ∀ d, (t.run ((now, .stop) :: after)).task.wait ≠ .pause d
  /-- A pause ends at once. -/
  broken : ∀ d, t.wait = .pause d →
    t.step now .stop = { t with stopRequested := true }.shutdown .returned
  /-- No request is written but those of the probe under way. -/
  written : (sends (t.run ((now, .stop) :: after)).effects).length ≤ t.owed
  /-- A connection that opens is closed, and nothing is written on it. -/
  unused : ∀ past at_ rest, (now, .stop) :: after = past ++ (at_, .opened) :: rest →
    (∃ d, (t.run past).task.wait = .opening d) →
    ((t.run past).task.step at_ .opened).effects = [.close] ∧
      ((t.run past).task.step at_ .opened).task.wait = .closing (.ending .returned) ∧
      sends (t.run ((now, .stop) :: after)).effects = []

/-- **A task that is asked to stop begins nothing.** Whatever has happened to a task and happens to
it after the request, it opens no connection and starts no probe; at most what is under way comes to
an end, pauses end at once, and a connection that still opens is closed unused. -/
theorem run_windsUp (id : Nat) (node : Catalog.Node) (config : Config α)
    (before : List (α × Event)) (now : α) (after : List (α × Event)) :
    WindsUp ((fresh id node config).run before).task now after := by
  generalize ((fresh id node config).run before).task = t
  have hrun := stop_run_winds t now
  have hsplit (past rest : List (α × Event)) (h : past ++ rest = (now, .stop) :: after) :
      (t.run ((now, .stop) :: after)).task = ((t.run past).task.run rest).task := by
    rw [← h, run_append]
    rfl
  refine ⟨?_, (hrun after).unopened, ?_, ?_, fun past rest h => (rest_winds h).quiet,
    (hrun after).unpaused, ?_, ?_, ?_⟩
  · intro past at_ e rest h
    cases past with
    | nil =>
      cases h
      exact starts?_eq_none (.inr rfl)
    | cons y past =>
      obtain ⟨rfl, -⟩ := List.cons.inj h
      exact starts?_eq_none (.inl (hrun past).asked)
  · rintro past ⟨rest, h⟩
    rw [hsplit past rest h]
    exact (rest_winds h.symm).onward
  · rintro past ⟨rest, h⟩
    rw [hsplit past rest h]
    exact (rest_winds h.symm).counted
  · exact fun d hw => step_stop_pause hw now
  · exact Nat.le_trans (Nat.le_add_right _ _) (hrun after).written
  · rintro past at_ rest h ⟨d, hw⟩
    cases past with
    | nil => cases h
    | cons y past =>
      obtain ⟨rfl, -⟩ := List.cons.inj h
      have hasked := (hrun past).asked
      have hconnecting : t.wait.underWay? = some .connect := by
        have honward := (hrun past).onward
        rw [hw] at honward
        obtain h | h := honward
        · cases h
        · exact h.symm
      have hwritten := (hrun after).written
      rw [owed_of_connecting hconnecting] at hwritten
      simp only [step, hw, turn, hasked, if_true]
      exact ⟨rfl, rfl, List.eq_nil_of_length_eq_zero (by omega)⟩

/-- The connection was being opened when the stop came. -/
example : ((fresh 0 .lone .secondly).run [(0, .run), (0, .stop), (0, .opened)]).effects =
    [.started, .report (.claim ⟨"c", "h:1"⟩ 0), .connect, .close] := by decide +kernel

end FleetProbe.Probe.Task
