import FleetProbe.Proofs.Probe.Connection
/-!
When a command is recorded as timed out. As long as no connection is lost by a deadline, this takes
as long as the limit of a command says.
-/

namespace FleetProbe.Probe.Task

open Exchange

variable {α : Type} [Quantity α]

/-- A loss that is not taken for a command that ran out of time. -/
def Plain (f : FleetProbe.Fault) : Prop := f.isDeadline = false

theorem prompt_of_quiet {s : Setup α} {es : List (Effect α)} (h : ∀ x ∈ es, x.Quiet) :
    Prompt s es :=
  fun _ _ _ hm => (h _ hm).elim

theorem prompt_of_parting {s : Setup α} {es : List (Effect α)} (h : ∀ x ∈ es, x.Parting) :
    Prompt s es :=
  prompt_of_quiet fun x hx => (h x hx).quiet

theorem settle_prompt (t : Task α) (now : α) {o : Outcome α} (ho : Prompt t.setup o.effects) :
    Prompt t.setup (t.settle now o).effects := by
  unfold settle
  refine ho.append ?_
  split
  · exact .nil
  · exact prompt_of_parting (pause_parting _ now _)
  · split
    · exact prompt_of_parting (shutdown_parting _ _)
    · intro target command x hm
      simp at hm

theorem turn_prompt {t : Task α} (h : Holds Plain t) (now : α) :
    Prompt t.setup (t.turn now).effects := by
  unfold turn
  split
  · exact prompt_of_parting (shutdown_parting t _)
  · split
    · exact prompt_of_quiet (connect_quiet t now)
    · next c hc =>
      obtain ⟨fault, hs, hf⟩ := h c hc
      exact settle_prompt t now (begin_prompt hf now hs)

theorem touch_prompt {t : Task α} (h : Sound Plain t) (now : α) (change : Link → Link)
    (hchange : ∀ l : Link, l.Allowed Plain → (change l).Allowed Plain) :
    Prompt t.setup (t.touch now change).effects := by
  unfold touch
  split
  · exact .nil
  · next c hc =>
    have hlink := hchange c.link (h.holds c hc)
    obtain ⟨fault, hs, hf⟩ := hlink
    simp only
    split
    · exact settle_prompt t now (resume_prompt hf now _ hs)
    · exact .nil

/-- Apart from a deadline that has passed, nothing makes a command time out. -/
theorem step_prompt {t : Task α} (h : Sound Plain t) (now : α) {e : Event}
    (he : ∀ g, e = .lost g → Plain g) :
    Prompt t.setup (t.step now e).effects ∨
      ∃ w d, t.wait = .reply w ∧ w.deadline = some d ∧ d ≤ now := by
  cases e with
  | run =>
    left
    rw [step]
    split
    · refine Prompt.append (fun target command x hm => ?_) (turn_prompt h.holds now)
      simp at hm
    · exact .nil
  | opened =>
    left
    rw [step]
    split
    · refine turn_prompt (t := { t with client := some {}, stage := .probing }) (fun c hc => ?_) now
      cases hc
      exact ⟨none, ⟨rfl, rfl⟩, by simp⟩
    · exact .nil
  | refused g =>
    left
    rw [step]
    split
    · split
      · exact prompt_of_quiet (failConnect_quiet t now)
      · exact prompt_of_parting (shutdown_parting t _)
    · exact .nil
  | arrived bs => exact .inl (touch_prompt h now (·.receive bs) fun _ hl => hl.receive bs)
  | finished => exact .inl (touch_prompt h now Link.finish fun _ hl => hl.finish)
  | lost g => exact .inl (touch_prompt h now (·.lose g) fun l _ => l.lose_allowed (he g rfl))
  | closed g =>
    left
    rw [step]
    split
    · exact prompt_of_parting (afterClose_parting t now _ g)
    · exact .nil
  | tick =>
    rw [step]
    unfold expire
    split
    · left
      split
      · refine Prompt.append (fun target command x hm => ?_)
          (prompt_of_quiet (failConnect_quiet t now))
        simp at hm
      · exact .nil
    · next w hw =>
      split
      · next hdue =>
        cases hd : w.deadline with
        | none =>
          rw [hd] at hdue
          cases hdue
        | some d =>
          rw [hd] at hdue
          exact .inr ⟨w, d, hw, hd, by simpa using hdue⟩
      · exact .inl .nil
    · left
      split
      · exact turn_prompt h.holds now
      · exact .nil
    · exact .inl .nil
  | stop =>
    left
    rw [step]
    simp only
    split
    · exact turn_prompt (t := { t with stopRequested := true }) h.holds now
    · exact .nil
  | cancel => exact .inl (prompt_of_parting (cancel_parting t))

/-- A command is recorded as timed out only after all of its time, if there was any. -/
theorem timeout_elapsed {t : Task α} (h : Sound Plain t) (now : α) {e : Event}
    (he : ∀ g, e = .lost g → Plain g) {target : Metrics.Target} {command : Text} {x : α}
    (hm : .report (.request target command timeoutStatus x) ∈ (t.step now e).effects) :
    t.config.timeout.isOver = true ∨
      ∃ w limit, t.wait = .reply w ∧ t.config.timeout.seconds = .ok limit ∧
        w.started + limit ≤ now := by
  obtain hp | ⟨w, d, hw, hd, hle⟩ := step_prompt h now he
  · exact .inl (hp target command x hm)
  · rw [Sound, hw] at h
    obtain ⟨-, -, -, -, hdeadline⟩ := h
    rw [hd] at hdeadline
    obtain hover | ⟨limit, hlimit, rfl⟩ := TimeLimit.deadline_eq_some hdeadline
    · exact .inl hover
    · exact .inr ⟨w, limit, hw, hlimit, hle⟩

end FleetProbe.Probe.Task
