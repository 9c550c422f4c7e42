import FleetProbe.Probe.Task
import FleetProbe.Proofs.Client.Exchange
/-!
How a task stands with its connection. It has one only while it probes or pauses, and a command
waits for its answer only on a connection that is not lost. Every step keeps this, whatever the
connection is lost by.
-/

namespace FleetProbe

namespace Effect

variable {α : Type}

/-- Whether an effect asks for a new connection. -/
def opens : Effect α → Bool
  | .connect => true
  | _ => false

/-- Whether an effect is one of letting go. -/
def Parting : Effect α → Prop
  | .abandon | .close | .stopped | .report (.release _ _) => True
  | _ => False

/-- Whether an effect is none of a probe. -/
def Quiet : Effect α → Prop
  | .send _ | .probeFailed | .timedOut _ _ => False
  | .report (.request _ _ _ _) | .report (.untimed _ _ _) => False
  | _ => True

theorem Parting.quiet {e : Effect α} (h : e.Parting) : e.Quiet := by
  cases e with
  | report r =>
    cases r with
    | release => trivial
    | request | untimed | failure | claim => cases h
  | send | probeFailed | timedOut => cases h
  | connect | abandon | close | started | stopped | connectFailed => trivial

end Effect

theorem TimeLimit.deadline_eq_some {α : Type} [Quantity α] {l : TimeLimit α} {start d : α}
    (h : l.deadline start = .ok (some d)) :
    l.isOver = true ∨ ∃ x, l.seconds = .ok x ∧ d = start + x := by
  unfold deadline at h
  split at h
  · next hover => exact .inl hover
  · split at h
    · cases h
    · cases hs : l.seconds with
      | error e =>
        rw [hs] at h
        cases h
      | ok x =>
        rw [hs] at h
        cases h
        exact .inr ⟨x, rfl, rfl⟩

/-- A node to try things on. -/
def Catalog.Node.lone : Catalog.Node := ⟨"c", "h", 1⟩

/-- Every limit is a second. -/
def Probe.Config.secondly : Probe.Config Rat where
  interval := .within (.whole 1)
  timeout := .within (.whole 1)
  connectTimeout := .within (.whole 1)
  backoff := .within (.whole 1)
  payload := { key := .bytes [], value := .bytes [], ttl := some 0 }

namespace Probe.Task

variable {α : Type} {P : FleetProbe.Fault → Prop}

theorem finish_parting (t : Task α) (e : Ending) : ∀ x ∈ (t.finish e).effects, x.Parting := by
  simp [finish, Effect.Parting]

theorem shutdown_parting (t : Task α) (e : Ending) :
    ∀ x ∈ (t.shutdown e).effects, x.Parting := by
  unfold shutdown
  simp only
  split
  · exact finish_parting _ e
  · simp [Effect.Parting]

theorem cancel_parting (t : Task α) : ∀ x ∈ t.cancel.effects, x.Parting := by
  unfold cancel
  split
  · simp
  · intro x hx
    obtain hx | hx := List.mem_append.mp hx
    · rw [List.mem_singleton.mp hx]
      trivial
    · exact shutdown_parting t _ x hx
  · simp
  · exact shutdown_parting t _

section Quiet

variable [Quantity α]

theorem pause_parting (t : Task α) (now : α) (delay : TimeLimit α) :
    ∀ x ∈ (t.pause now delay).effects, x.Parting := by
  unfold pause
  split
  · exact shutdown_parting t _
  · split
    · exact shutdown_parting t _
    · simp

theorem afterClose_parting (t : Task α) (now : α) (next : AfterClose)
    (g : Option FleetProbe.Fault) : ∀ x ∈ (t.afterClose now next g).effects, x.Parting := by
  unfold afterClose
  split
  · exact pause_parting _ now _
  · exact finish_parting t _
  · exact shutdown_parting t _

theorem failConnect_quiet (t : Task α) (now : α) :
    ∀ x ∈ (t.failConnect now).effects, x.Quiet := by
  intro x hx
  obtain hx | hx := List.mem_append.mp hx
  · simp only [List.mem_cons, List.not_mem_nil, or_false] at hx
    obtain rfl | rfl := hx
    · trivial
    · trivial
  · exact (pause_parting _ now _ x hx).quiet

theorem connect_quiet (t : Task α) (now : α) : ∀ x ∈ (t.connect now).effects, x.Quiet := by
  unfold connect
  simp only
  split
  · exact failConnect_quiet _ now
  · split
    · exact fun x hx => (shutdown_parting _ _ x hx).quiet
    · simp [Effect.Quiet]

end Quiet

section Runs

variable [Quantity α]

/-- A run of events, each at its own time. -/
def run (t : Task α) : List (α × Event) → Next α
  | [] => ⟨t, []⟩
  | (now, e) :: events => ((t.step now e).task.run events).after (t.step now e).effects

end Runs

/-! Events that a task takes no notice of. -/

section Idle

variable [Quantity α] {t : Task α}

theorem step_run_of_ne (h : t.wait ≠ .start) (now : α) : t.step now .run = ⟨t, []⟩ := by
  rw [step]
  split
  · next hw => exact absurd hw h
  · rfl

theorem step_opened_of_ne (h : ∀ d, t.wait ≠ .opening d) (now : α) :
    t.step now .opened = ⟨t, []⟩ := by
  rw [step]
  split
  · next d hw => exact absurd hw (h d)
  · rfl

theorem step_refused_of_ne (h : ∀ d, t.wait ≠ .opening d) (now : α) (g : FleetProbe.Fault) :
    t.step now (.refused g) = ⟨t, []⟩ := by
  rw [step]
  split
  · next d hw => exact absurd hw (h d)
  · rfl

theorem step_closed_of_ne (h : ∀ next, t.wait ≠ .closing next) (now : α)
    (g : Option FleetProbe.Fault) : t.step now (.closed g) = ⟨t, []⟩ := by
  rw [step]
  split
  · next next hw => exact absurd hw (h next)
  · rfl

theorem step_stop_of_ne (h : ∀ d, t.wait ≠ .pause d) (now : α) :
    t.step now .stop = ⟨{ t with stopRequested := true }, []⟩ := by
  rw [step]
  dsimp only
  split
  · next d hw => exact absurd hw (h d)
  · rfl

theorem touch_of_none (hc : t.client = none) (now : α) (change : Link → Link) :
    t.touch now change = ⟨t, []⟩ := by
  simp only [touch, hc]

end Idle

/-- The connection that a task has, if any, is not lost or is lost by a fault of some kind. -/
def Holds (P : FleetProbe.Fault → Prop) (t : Task α) : Prop :=
  ∀ c, t.client = some c → c.link.Allowed P

theorem holds_of_none {t : Task α} (hc : t.client = none) : Holds P t := by
  intro c h
  rw [hc] at h
  cases h

/-- How a task stands with its connection: it has one only while it probes or pauses, and a command
that waits for its answer waits on a connection that is not lost. -/
def Sound [Quantity α] (P : FleetProbe.Fault → Prop) (t : Task α) : Prop :=
  match t.wait with
  | .reply w => ∃ c, t.client = some c ∧ c.link.Stands none ∧
      Client.popFrame c.buffer = .ok none ∧ t.config.timeout.deadline w.started = .ok w.deadline
  | .pause _ => Holds P t
  | _ => t.client = none

section Sound

variable [Quantity α]

theorem sound_of_none {t : Task α} (hc : t.client = none) (hw : ∀ w, t.wait ≠ .reply w) :
    Sound P t := by
  unfold Sound
  split
  · next w h => exact absurd h (hw w)
  · exact holds_of_none hc
  · exact hc

theorem Sound.holds {t : Task α} (h : Sound P t) : Holds P t := by
  unfold Sound at h
  intro c hc
  split at h
  · obtain ⟨d, hd, hs, -⟩ := h
    cases hc.symm.trans hd
    exact ⟨none, hs, by simp⟩
  · exact h c hc
  · rw [h] at hc
    cases hc

theorem shutdown_sound (t : Task α) (e : Ending) : Sound P (t.shutdown e).task := by
  unfold shutdown
  simp only
  split
  · next hc => exact sound_of_none hc (by simp [finish])
  · exact sound_of_none rfl (by simp)

theorem pause_sound {t : Task α} (h : Holds P t) (now : α) (delay : TimeLimit α) :
    Sound P (t.pause now delay).task := by
  unfold pause
  split
  · exact shutdown_sound t _
  · split
    · exact shutdown_sound t _
    · exact h

theorem failConnect_sound {t : Task α} (hc : t.client = none) (now : α) :
    Sound P (t.failConnect now).task :=
  pause_sound (t := { t.countFailure with stage := .backoff }) (holds_of_none hc) now _

theorem connect_sound {t : Task α} (hc : t.client = none) (now : α) :
    Sound P (t.connect now).task := by
  unfold connect
  simp only
  split
  · exact failConnect_sound hc now
  · split
    · exact shutdown_sound _ _
    · exact sound_of_none hc (by simp)

theorem settle_sound (t : Task α) (now : α) {o : Exchange.Outcome α}
    {fault : Option FleetProbe.Fault} (ho : Exchange.Sane t.setup fault o)
    (hP : ∀ g, fault = some g → P g) : Sound P (t.settle now o).task := by
  unfold settle
  simp only [Next.after]
  split
  · next w hw =>
    obtain ⟨hf, hpop, hdeadline⟩ := ho.parked w hw
    exact ⟨o.client, rfl, hf ▸ ho.stands, hpop, hdeadline⟩
  · refine pause_sound (fun c hc => ?_) now _
    cases hc
    exact ⟨fault, ho.stands, hP⟩
  · split
    · exact shutdown_sound _ _
    · exact sound_of_none rfl (by simp)

theorem turn_sound {t : Task α} (h : Holds P t) (now : α) : Sound P (t.turn now).task := by
  unfold turn
  split
  · exact shutdown_sound t _
  · split
    · next hc => exact connect_sound hc now
    · next c hc =>
      obtain ⟨fault, hs, hP⟩ := h c hc
      exact settle_sound t now (Exchange.begin_sane now hs) hP

/-- A change of the connection by which it stays as it stands, or is lost. -/
theorem touch_sound {t : Task α} (h : Sound P t) (now : α) (change : Link → Link)
    (hchange : ∀ l : Link, l.Allowed P → (change l).Allowed P) :
    Sound P (t.touch now change).task := by
  unfold touch
  split
  · exact h
  · next c hc =>
    have hlink := hchange c.link (h.holds c hc)
    obtain ⟨fault, hs, hP⟩ := hlink
    simp only
    split
    · next w hw =>
      rw [Sound, hw] at h
      obtain ⟨d, hd, -, -, hdeadline⟩ := h
      exact settle_sound t now (Exchange.resume_sane now hdeadline hs) hP
    · next hw =>
      unfold Sound at h
      split at h
      · next w hr => exact absurd hr (hw w)
      · next d hp =>
        simp only [Sound, hp]
        intro c' hc'
        cases hc'
        exact ⟨fault, hs, hP⟩
      · rw [h] at hc
        cases hc

theorem expire_sound {t : Task α} (h : Sound P t) (now : α) : Sound P (t.expire now).task := by
  unfold expire
  split
  · next d hw =>
    have hc : t.client = none := by
      rw [Sound, hw] at h
      exact h
    split
    · exact failConnect_sound hc now
    · exact h
  · next w hw =>
    split
    · split
      · next c hc =>
        obtain ⟨fault, hs, hP⟩ := h.holds c hc
        exact settle_sound t now (Exchange.expire_sane now w hs) hP
      · exact h
    · exact h
  · split
    · exact turn_sound h.holds now
    · exact h
  · exact h

theorem afterClose_sound {t : Task α} (hc : t.client = none) (now : α) (next : AfterClose)
    (g : Option FleetProbe.Fault) : Sound P (t.afterClose now next g).task := by
  unfold afterClose
  split
  · exact pause_sound (t := { t with stage := .backoff }) (holds_of_none hc) now _
  · exact sound_of_none hc (by simp [finish])
  · exact shutdown_sound t _

theorem cancel_sound {t : Task α} (h : Sound P t) : Sound P t.cancel.task := by
  unfold cancel
  split
  · next hw =>
    rw [Sound, hw] at h
    exact sound_of_none h (by simp)
  · exact shutdown_sound t _
  · exact h
  · exact shutdown_sound t _

/-- A task stays sound whatever happens, as long as losses are of the kind in question. -/
theorem step_sound {t : Task α} (h : Sound P t) (now : α) (e : Event)
    (he : ∀ g, e = .lost g → P g) : Sound P (t.step now e).task := by
  cases e with
  | run =>
    rw [step]
    split
    · exact turn_sound h.holds now
    · exact h
  | opened =>
    rw [step]
    split
    · refine turn_sound (fun c hc => ?_) now
      cases hc
      exact ⟨none, ⟨rfl, rfl⟩, by simp⟩
    · exact h
  | refused g =>
    rw [step]
    split
    · next d hw =>
      have hc : t.client = none := by
        rw [Sound, hw] at h
        exact h
      split
      · exact failConnect_sound hc now
      · exact shutdown_sound t _
    · exact h
  | arrived bs => exact touch_sound h now (·.receive bs) fun _ hl => hl.receive bs
  | finished => exact touch_sound h now Link.finish fun _ hl => hl.finish
  | lost g => exact touch_sound h now (·.lose g) fun l _ => l.lose_allowed (he g rfl)
  | closed g =>
    rw [step]
    split
    · next next hw =>
      rw [Sound, hw] at h
      exact afterClose_sound h now next g
    · exact h
  | tick => exact expire_sound h now
  | stop =>
    rw [step]
    simp only
    split
    · exact turn_sound (t := { t with stopRequested := true }) h.holds now
    · exact h
  | cancel => exact cancel_sound h

theorem run_sound {t : Task α} (h : Sound P t) (events : List (α × Event))
    (he : ∀ x ∈ events, ∀ g, x.2 = .lost g → P g) : Sound P (t.run events).task := by
  induction events generalizing t with
  | nil => exact h
  | cons e events ih =>
    have hstep := step_sound h e.1 e.2 (he e List.mem_cons_self)
    exact ih hstep fun x hx => he x (List.mem_cons_of_mem _ hx)

end Sound

end Probe.Task

end FleetProbe
