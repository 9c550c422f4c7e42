import FleetProbe.Proofs.Probe.Steps
/-!
The stages of a task. A task seeks a connection, probes, and rests after a failure; what it waits
for tells its stage, and from one moment to the next the stage changes in a few ways only.
-/

namespace FleetProbe

namespace Probe

/-- The stage that may be seen after a stage. -/
inductive Stage.Moves : Stage → Stage → Prop where
  | stay (s : Stage) : Moves s s
  | connected : Moves .connecting .probing
  | refused : Moves .connecting .backoff
  | failed : Moves .probing .backoff
  | again : Moves .backoff .connecting
  | stopped (s : Stage) : Moves s .stopped

theorem Stage.Moves.of_stopped {s : Stage} (h : Moves .stopped s) : s = .stopped := by
  cases h with
  | stay => rfl
  | stopped => rfl

namespace Task

open Exchange

section Stages

variable {α : Type}

/-- The stage of a task that waits. It tells a pause between two probes from one before a new
connection. -/
def Staged (t : Task α) : Prop :=
  match t.wait with
  | .start | .opening _ => t.stage = .connecting
  | .reply _ | .closing .backoff => t.stage = .probing
  | .pause _ => t.stage = if t.client.isSome then .probing else .backoff
  | .closing (.ending _) => t.stage = .stopped
  | .ended _ => t.stage = .stopped ∨ t.stage = .connecting

/-- The stage that is seen next, if it is not the end. -/
structure Reaches (s : Stage) (n : Next α) : Prop where
  stage : n.task.stage = s ∨ n.task.stage = .stopped
  staged : Staged n.task

theorem Reaches.after {s : Stage} {n : Next α} (h : Reaches s n) (es : List (Effect α)) :
    Reaches s (n.after es) := ⟨h.stage, h.staged⟩

theorem Reaches.moves {r s : Stage} {n : Next α} (h : Reaches s n) (hmoves : r.Moves s) :
    r.Moves n.task.stage := by
  obtain hs | hs := h.stage
  · rw [hs]
    exact hmoves
  · rw [hs]
    exact .stopped r

theorem shutdown_reaches (t : Task α) (e : Ending) (s : Stage) : Reaches s (t.shutdown e) := by
  unfold shutdown
  dsimp only
  split
  · exact ⟨.inr rfl, .inl rfl⟩
  · exact ⟨.inr rfl, rfl⟩

variable [Quantity α]

theorem pause_reaches {t : Task α} (h : t.stage = if t.client.isSome then .probing else .backoff)
    (now : α) (delay : TimeLimit α) : Reaches t.stage (t.pause now delay) := by
  obtain ⟨how, hshut⟩ | ⟨-, d, hpause⟩ := t.pause_cases now delay
  · rw [hshut]
    exact shutdown_reaches t how _
  · rw [hpause]
    exact ⟨.inl rfl, h⟩

theorem failConnect_reaches {t : Task α} (hc : t.client = none) (now : α) :
    Reaches .backoff (t.failConnect now) := by
  have hstage : (Stage.backoff : Stage) = if t.client.isSome then .probing else .backoff := by
    rw [hc]
    rfl
  exact (pause_reaches (t := { t.countFailure with stage := .backoff }) hstage now _).after _

theorem connect_reaches {t : Task α} (hc : t.client = none) (now : α) :
    Reaches .connecting (t.connect now) ∨ Reaches .backoff (t.connect now) := by
  unfold connect
  dsimp only
  split
  · exact .inr (failConnect_reaches hc now)
  · split
    · exact .inl (shutdown_reaches _ _ _)
    · exact .inl ⟨.inl rfl, rfl⟩

theorem settle_reaches {t : Task α} (h : t.stage = .probing) (now : α) (o : Outcome α) :
    Reaches .probing (t.settle now o) := by
  unfold settle
  dsimp only
  refine Reaches.after ?_ _
  split
  · exact ⟨.inl h, h⟩
  · have hpause := pause_reaches (t := { t with client := some o.client, probes := t.probes + 1 })
      h now t.config.interval
    exact h ▸ hpause
  · split
    · exact shutdown_reaches _ _ _
    · exact ⟨.inl h, h⟩

theorem turn_reaches {t : Task α} (h : t.client.isSome → t.stage = .probing) (now : α) :
    Reaches .probing (t.turn now) ∧ t.client.isSome ∨
      (Reaches .connecting (t.turn now) ∨ Reaches .backoff (t.turn now)) ∧ t.client = none := by
  unfold turn
  cases hc : t.client with
  | none =>
    refine .inr ⟨?_, rfl⟩
    split
    · exact .inl (shutdown_reaches _ _ _)
    · exact connect_reaches hc now
  | some c =>
    refine .inl ⟨?_, rfl⟩
    split
    · exact shutdown_reaches _ _ _
    · exact settle_reaches (h (by rw [hc]; rfl)) now _

/-- The stage of a task that begins a round. -/
theorem stage_of_round? {t u : Task α} (hs : Sound (fun _ => True) t) (h : Staged t) {now : α}
    {e : Event} (hu : t.round? now e = some u) :
    (u.client.isSome → u.stage = .probing ∧ t.stage.Moves .probing) ∧
      (u.client = none → t.stage = .connecting ∨ t.stage = .backoff) := by
  have hpause {d : Option α} (hw : t.wait = .pause d) :
      (t.client.isSome → t.stage = .probing ∧ t.stage.Moves .probing) ∧
        (t.client = none → t.stage = .connecting ∨ t.stage = .backoff) := by
    rw [Staged, hw] at h
    refine ⟨fun hc => ?_, fun hc => .inr ?_⟩
    · have hprobing : t.stage = .probing := h.trans (if_pos hc)
      exact ⟨hprobing, hprobing ▸ .stay _⟩
    · rw [hc] at h
      exact h
  obtain ⟨rfl, hw, rfl⟩ | ⟨rfl, ⟨d, hw⟩, rfl⟩ | ⟨rfl, ⟨d, hw, -⟩, rfl⟩ | ⟨rfl, ⟨d, hw⟩, rfl⟩ :=
    round?_eq_some hu
  · rw [Sound, hw] at hs
    rw [Staged, hw] at h
    exact ⟨fun hc => absurd hc (by simp [hs]), fun _ => .inl h⟩
  · rw [Staged, hw] at h
    exact ⟨fun _ => ⟨rfl, h ▸ .connected⟩, by simp⟩
  · exact hpause hw
  · exact hpause hw

theorem course_moves {t : Task α} (hs : Sound (fun _ => True) t) (h : Staged t) {now : α}
    {e : Event} {n : Next α} (hn : Course t now e n) :
    t.stage.Moves n.task.stage ∧ Staged n.task := by
  cases hn with
  | idle => exact ⟨.stay _, h⟩
  | asked => exact ⟨.stay _, h⟩
  | @noted e c change hc hw =>
    refine ⟨.stay _, ?_⟩
    unfold Staged at h ⊢
    rw [hc] at h
    exact h
  | resumes e change hw =>
    rw [Staged, hw] at h
    exact ⟨(settle_reaches h now _).moves (h ▸ .stay _), (settle_reaches h now _).staged⟩
  | expires hw =>
    rw [Staged, hw] at h
    exact ⟨(settle_reaches h now _).moves (h ▸ .stay _), (settle_reaches h now _).staged⟩
  | refused e es hw =>
    rw [Staged, hw] at h
    rw [Sound, hw] at hs
    have hreaches := (failConnect_reaches hs now).after es
    exact ⟨hreaches.moves (h ▸ .refused), hreaches.staged⟩
  | @closed next f hw =>
    rw [Sound, hw] at hs
    rw [Staged, hw] at h
    unfold afterClose
    split
    · have hstage : (Stage.backoff : Stage) = if t.client.isSome then .probing else .backoff := by
        rw [show t.client = none from hs]
        rfl
      have hreaches := pause_reaches (t := { t with stage := .backoff }) hstage now t.config.backoff
      exact ⟨hreaches.moves (h ▸ .failed), hreaches.staged⟩
    · exact ⟨.stay _, .inl h⟩
    · exact ⟨(shutdown_reaches t _ .stopped).moves (.stopped _),
        (shutdown_reaches t _ .stopped).staged⟩
  | shut e how es =>
    have hreaches := (shutdown_reaches t how .stopped).after es
    exact ⟨hreaches.moves (.stopped _), hreaches.staged⟩
  | unbegun hw =>
    rw [Staged, hw] at h
    exact ⟨.stay _, .inr h⟩

theorem step_moves {t : Task α} (hs : Sound (fun _ => True) t) (h : Staged t) (now : α)
    (e : Event) : t.stage.Moves (t.step now e).task.stage ∧ Staged (t.step now e).task := by
  cases hu : t.round? now e with
  | none => exact course_moves hs h (step_course hu)
  | some u =>
    obtain ⟨hprobing, hseeking⟩ := stage_of_round? hs h hu
    obtain ⟨es, -, hstep⟩ := step_eq_turn hu
    rw [hstep]
    obtain ⟨hreaches, hc⟩ | ⟨hreaches | hreaches, hc⟩ :=
      turn_reaches (fun hc => (hprobing hc).1) now
    · exact ⟨(hreaches.after es).moves (hprobing hc).2, hreaches.staged⟩
    · refine ⟨(hreaches.after es).moves ?_, hreaches.staged⟩
      obtain h | h := hseeking hc
      · exact h ▸ .stay _
      · exact h ▸ .again
    · refine ⟨(hreaches.after es).moves ?_, hreaches.staged⟩
      obtain h | h := hseeking hc
      · exact h ▸ .refused
      · exact h ▸ .stay _

theorem run_staged {t : Task α} (hs : Sound (fun _ => True) t) (h : Staged t)
    (events : List (α × Event)) : Staged (t.run events).task := by
  induction events generalizing t with
  | nil => exact h
  | cons y events ih =>
    exact ih (step_sound hs y.1 y.2 fun _ _ => trivial) (step_moves hs h y.1 y.2).2

end Stages

end Task

end Probe

end FleetProbe
