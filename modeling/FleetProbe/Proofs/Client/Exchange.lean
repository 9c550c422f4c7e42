import FleetProbe.Client.Exchange
/-!
Probes over a connection that stands or is lost. A probe changes neither: what it comes to tells
whether its connection was lost. A command meets the loss when it is written, or when the read that
waits for its answer is broken off. By a fault that is no deadline the probe then fails; one that
is a deadline passes for a command that ran out of time.
-/

namespace FleetProbe

namespace Link

/-- How a connection stands: lost by a fault, or not lost. -/
structure Stands (l : Link) (fault : Option Fault) : Prop where
  read : l.readFault = fault
  write : l.writeFault = fault

theorem lose_stands (l : Link) (f : Fault) : (l.lose f).Stands (some f) := ⟨rfl, rfl⟩

theorem Stands.receive {l : Link} {fault : Option Fault} (h : l.Stands fault) (bs : Bytes) :
    (l.receive bs).Stands fault := ⟨h.read, h.write⟩

theorem Stands.finish {l : Link} {fault : Option Fault} (h : l.Stands fault) :
    l.finish.Stands fault := ⟨h.read, h.write⟩

/-- A connection that is not lost, or is lost by a fault of some kind. -/
def Allowed (P : Fault → Prop) (l : Link) : Prop :=
  ∃ fault, l.Stands fault ∧ ∀ f, fault = some f → P f

theorem Allowed.receive {P : Fault → Prop} {l : Link} (h : l.Allowed P) (bs : Bytes) :
    (l.receive bs).Allowed P := by
  obtain ⟨fault, hs, hP⟩ := h
  exact ⟨fault, hs.receive bs, hP⟩

theorem Allowed.finish {P : Fault → Prop} {l : Link} (h : l.Allowed P) :
    l.finish.Allowed P := by
  obtain ⟨fault, hs, hP⟩ := h
  exact ⟨fault, hs.finish, hP⟩

theorem lose_allowed {P : Fault → Prop} (l : Link) {f : Fault} (hf : P f) :
    (l.lose f).Allowed P := by
  refine ⟨some f, l.lose_stands f, fun g hg => ?_⟩
  cases hg
  exact hf

end Link

namespace Client

/-- Reading breaks off without a complete frame, and only what is on the link is taken from it. -/
theorem readResponse_link (c : Client) :
    (readResponse c).2.link.readFault = c.link.readFault ∧
    (readResponse c).2.link.writeFault = c.link.writeFault := by
  fun_induction readResponse c with
  | case1 => exact ⟨rfl, rfl⟩
  | case2 => exact ⟨rfl, rfl⟩
  | case3 => exact ⟨rfl, rfl⟩
  | case4 c hpop hf b bs hin ih => exact ih
  | case5 => exact ⟨rfl, rfl⟩
  | case6 => exact ⟨rfl, rfl⟩

theorem readResponse_pending {c d : Client} (h : readResponse c = (.pending, d)) :
    popFrame d.buffer = .ok none ∧ d.link.readFault = none := by
  fun_induction readResponse c with
  | case1 => cases h
  | case2 => cases h
  | case3 => cases h
  | case4 c hpop hf b bs hin ih => exact ih h
  | case5 => cases h
  | case6 c hpop hf hin hended =>
    cases h
    exact ⟨hpop, hf⟩

theorem readResponse_fault {c d : Client} {f : FleetProbe.Fault}
    (h : readResponse c = (.fault (.link f), d)) : d.link.readFault = some f := by
  fun_induction readResponse c with
  | case1 => cases h
  | case2 => cases h
  | case3 c hpop g hg =>
    cases h
    exact hg
  | case4 c hpop hf b bs hin ih => exact ih h
  | case5 c hpop hf hin hended =>
    split at h
    · cases h
    · cases h
  | case6 => cases h

/-- A read that waits is broken off when the connection is lost. -/
theorem readResponse_lost {c : Client} {f : FleetProbe.Fault} (hpop : popFrame c.buffer = .ok none)
    (hf : c.link.readFault = some f) : readResponse c = (.fault (.link f), c) := by
  unfold readResponse
  simp only [hpop, hf]

theorem awaitReply_stands {c : Client} {fault : Option FleetProbe.Fault} (serial : Int)
    (h : c.link.Stands fault) : (awaitReply serial c).2.link.Stands fault := by
  have hread (d : Client) {e : Client} {r : Reading} (hr : readResponse d = (r, e))
      (hd : d.link.Stands fault) : e.link.Stands fault := by
    obtain ⟨h1, h2⟩ := readResponse_link d
    rw [hr] at h1 h2
    exact ⟨h1.trans hd.read, h2.trans hd.write⟩
  fun_induction awaitReply serial c with
  | case1 c f d hr _ => exact hread c hr h
  | case2 c f d hr _ ih => exact ih (hread c hr h)
  | case3 c d hr => exact hread c hr h
  | case4 c e d hr => exact hread c hr h

theorem awaitReply_pending {c d : Client} {serial : Int} (h : awaitReply serial c = (.pending, d)) :
    popFrame d.buffer = .ok none ∧ d.link.readFault = none := by
  fun_induction awaitReply serial c with
  | case1 => cases h
  | case2 c f e hr hf ih => exact ih h
  | case3 c e hr =>
    cases h
    exact readResponse_pending hr
  | case4 => cases h

theorem awaitReply_fault {c d : Client} {serial : Int} {f : FleetProbe.Fault}
    (h : awaitReply serial c = (.fault (.link f), d)) : d.link.readFault = some f := by
  fun_induction awaitReply serial c with
  | case1 => cases h
  | case2 c g e hr hf ih => exact ih h
  | case3 => cases h
  | case4 c g e hr =>
    cases h
    exact readResponse_fault hr

theorem awaitReply_lost {c : Client} {f : FleetProbe.Fault} (serial : Int)
    (hpop : popFrame c.buffer = .ok none) (hf : c.link.readFault = some f) :
    awaitReply serial c = (.fault (.link f), c) := by
  have hr := readResponse_lost hpop hf
  rw [awaitReply]
  split
  · next g d hg =>
    rw [hr] at hg
    cases hg
  · next d hg =>
    rw [hr] at hg
    cases hg
  · next g d hg =>
    rw [hr] at hg
    cases hg
    rfl

end Client

/-- Whether an effect is one of a probe, which writes commands and reports on them. -/
def Effect.Probing {α : Type} : Effect α → Prop
  | .send _ | .timedOut _ _ | .report _ => True
  | _ => False

namespace Exchange

variable {α : Type} {f : FleetProbe.Fault}

/-- A probe fails by the loss of its connection, having written one command at most. -/
structure Breaks (f : FleetProbe.Fault) (o : Outcome α) : Prop where
  progress : o.progress = .failed (.client (.link f))
  kind : f.isDeadline = false
  effects : o.effects = [] ∨ ∃ bs, o.effects = [.send bs]

/-- A probe over a lost connection comes to an end as if the connection stood; unless the loss is
a deadline it has written nothing. -/
structure Passes (f : FleetProbe.Fault) (o : Outcome α) : Prop where
  progress : o.progress = .finished ∨ (∃ g, o.progress = .failed (.command g)) ∨
    ∃ g, o.progress = .failed (.time g)
  quiet : f.isDeadline = false → ∀ bs, .send bs ∉ o.effects

theorem Passes.after {o : Outcome α} {es : List (Effect α)} (h : Passes f o)
    (hes : f.isDeadline = false → ∀ bs, .send bs ∉ es) : Passes f (o.after es) := by
  refine ⟨h.progress, fun hf bs hm => ?_⟩
  obtain hm | hm := List.mem_append.mp hm
  · exact hes hf bs hm
  · exact h.quiet hf bs hm

theorem finish_passes (c : Client) : Passes f (finish c : Outcome α) := ⟨.inl rfl, by simp [finish]⟩

variable [Quantity α] {s : Setup α} {fault : Option FleetProbe.Fault}

/-- What a probe over a connection comes to. -/
structure Sane (s : Setup α) (fault : Option FleetProbe.Fault) (o : Outcome α) : Prop where
  stands : o.client.link.Stands fault
  /-- A probe waits on a connection that stands, for a frame that is not complete. -/
  parked : ∀ w, o.progress = .waiting w → fault = none ∧
    Client.popFrame o.client.buffer = .ok none ∧ s.timeout.deadline w.started = .ok w.deadline
  /-- A probe that fails by its connection fails by what it was lost by. -/
  broken : ∀ g, o.progress = .failed (.client (.link g)) → fault = some g ∧ g.isDeadline = false
  /-- A probe leaves its connection to others. -/
  calm : ∀ e ∈ o.effects, e.Probing

theorem Sane.after {o : Outcome α} {es : List (Effect α)} (h : Sane s fault o)
    (hes : ∀ e ∈ es, e.Probing) : Sane s fault (o.after es) := by
  refine ⟨h.stands, h.parked, h.broken, fun e hm => ?_⟩
  obtain hm | hm := List.mem_append.mp hm
  · exact hes e hm
  · exact h.calm e hm

theorem finish_sane {c : Client} (h : c.link.Stands fault) :
    Sane s fault (finish c : Outcome α) :=
  ⟨h, by simp [finish], by simp [finish], by simp [finish]⟩

theorem timeOut_sane {c : Client} (h : c.link.Stands fault) (p : Phase)
    {next : Client → Outcome α} (hn : ∀ c, c.link.Stands fault → Sane s fault (next c)) :
    Sane s fault (timeOut s p c next) := by
  unfold timeOut
  simp only
  split
  · exact (hn c h).after (by simp [Effect.Probing])
  · exact ⟨h, by simp, by simp, by simp [Effect.Probing]⟩

theorem answer_sane {c : Client} (h : c.link.Stands fault) (now : α) {w : Waiting α}
    (hw : s.timeout.deadline w.started = .ok w.deadline) {next : Client → Outcome α}
    (hn : ∀ c, c.link.Stands fault → Sane s fault (next c)) :
    Sane s fault (answer s now w c next) := by
  have hs := Client.awaitReply_stands w.serial h
  unfold answer
  split
  · next d hd =>
    rw [hd] at hs
    obtain ⟨hpop, hread⟩ := Client.awaitReply_pending hd
    refine ⟨hs, fun w' hw' => ?_, by simp, by simp⟩
    cases hw'
    exact ⟨hs.read.symm.trans hread, hpop, hw⟩
  · next f d hd =>
    rw [hd] at hs
    exact (hn d hs).after (by simp [Effect.Probing])
  · next f d hd =>
    rw [hd] at hs
    have hf := Client.awaitReply_fault hd
    split
    · exact timeOut_sane hs _ hn
    · next hdl =>
      refine ⟨hs, by simp, fun g hg => ?_, by simp⟩
      cases hg
      exact ⟨hs.read.symm.trans hf, by simpa using hdl⟩
  · next f d hne hd =>
    rw [hd] at hs
    refine ⟨hs, by simp, fun g hg => ?_, by simp⟩
    cases hg
    exact absurd rfl (hne g)

theorem command_sane {c : Client} (h : c.link.Stands fault) (now : α) (p : Phase)
    {next : Client → Outcome α} (hn : ∀ c, c.link.Stands fault → Sane s fault (next c)) :
    Sane s fault (command s now p c next) := by
  have ht : c.takeSerial.2.link.Stands fault := h
  unfold command
  simp only
  split
  · exact ⟨ht, by simp, by simp, by simp⟩
  · split
    · exact timeOut_sane ht p hn
    · split
      · exact ⟨ht, by simp, by simp, by simp⟩
      · exact ⟨ht, by simp, by simp, by simp⟩
      · next deadline bs hdeadline _ =>
        split
        · next f hf =>
          split
          · exact (timeOut_sane ht p hn).after (by simp [Effect.Probing])
          · next hdl =>
            refine ⟨ht, by simp, fun g hg => ?_, by simp [Effect.Probing]⟩
            cases hg
            exact ⟨ht.write.symm.trans hf, by simpa using hdl⟩
        · exact (answer_sane ht now hdeadline hn).after (by simp [Effect.Probing])

theorem following_sane (now : α) (p : Phase) {c : Client} (h : c.link.Stands fault) :
    Sane s fault (following s now p c) := by
  cases p with
  | set => exact command_sane h now .get fun _ => finish_sane
  | get => exact finish_sane h

theorem begin_sane (now : α) {c : Client} (h : c.link.Stands fault) :
    Sane s fault (begin s now c) :=
  command_sane h now .set fun _ => following_sane now .set

theorem resume_sane (now : α) {w : Waiting α}
    (hw : s.timeout.deadline w.started = .ok w.deadline) {c : Client}
    (h : c.link.Stands fault) : Sane s fault (resume s now w c) :=
  answer_sane h now hw fun _ => following_sane now w.phase

theorem expire_sane (now : α) (w : Waiting α) {c : Client} (h : c.link.Stands fault) :
    Sane s fault (expire s now w c) :=
  timeOut_sane h w.phase fun _ => following_sane now w.phase

theorem timeOut_passes (p : Phase) (c : Client) {next : Client → Outcome α}
    (hn : Passes f (next c)) : Passes f (timeOut s p c next) := by
  unfold timeOut
  simp only
  split
  · exact hn.after (by simp)
  · exact ⟨.inr (.inr ⟨_, rfl⟩), by simp⟩

/-- With a loss that is a deadline, or with no time at all, every command passes. -/
theorem command_passes {c : Client} (h : c.link.Stands (some f))
    (hp : s.timeout.isOver = true ∨ f.isDeadline = true) (now : α) (p : Phase)
    {next : Client → Outcome α} (hn : ∀ c, c.link.Stands (some f) → Passes f (next c)) :
    Passes f (command s now p c next) := by
  have ht : c.takeSerial.2.link.Stands (some f) := h
  unfold command
  simp only
  split
  · exact ⟨.inr (.inl ⟨_, rfl⟩), by simp⟩
  · split
    · exact timeOut_passes p _ (hn _ ht)
    · next hover =>
      have hd : f.isDeadline = true := hp.resolve_left hover
      have hloud (hf : f.isDeadline = false) : False := by
        rw [hd] at hf
        cases hf
      split
      · exact ⟨.inr (.inr ⟨_, rfl⟩), by simp⟩
      · exact ⟨.inr (.inl ⟨_, rfl⟩), by simp⟩
      · split
        · next g hg =>
          cases hg.symm.trans ht.write
          rw [if_pos hd]
          exact (timeOut_passes p _ (hn _ ht)).after fun hf => (hloud hf).elim
        · next hnone =>
          cases hnone.symm.trans ht.write

/-- A command over a lost connection breaks, or comes to nothing. -/
theorem command_lost {c : Client} (h : c.link.Stands (some f)) (now : α) (p : Phase)
    {next : Client → Outcome α}
    (hn : s.timeout.isOver = true ∨ f.isDeadline = true →
      ∀ c, c.link.Stands (some f) → Passes f (next c)) :
    Passes f (command s now p c next) ∨ Breaks f (command s now p c next) := by
  by_cases hp : s.timeout.isOver = true ∨ f.isDeadline = true
  · exact .inl (command_passes h hp now p (hn hp))
  · obtain ⟨hover, hd⟩ := not_or.mp hp
    have ht : c.takeSerial.2.link.Stands (some f) := h
    unfold command
    simp only
    split
    · exact .inl ⟨.inr (.inl ⟨_, rfl⟩), by simp⟩
    · rw [if_neg hover]
      split
      · exact .inl ⟨.inr (.inr ⟨_, rfl⟩), by simp⟩
      · exact .inl ⟨.inr (.inl ⟨_, rfl⟩), by simp⟩
      · split
        · next g hg =>
          cases hg.symm.trans ht.write
          rw [if_neg hd]
          exact .inr ⟨rfl, by simpa using hd, .inr ⟨_, rfl⟩⟩
        · next hnone =>
          cases hnone.symm.trans ht.write

theorem following_passes (hp : s.timeout.isOver = true ∨ f.isDeadline = true) (now : α)
    (p : Phase) {c : Client} (h : c.link.Stands (some f)) : Passes f (following s now p c) := by
  cases p with
  | set => exact command_passes h hp now .get fun c _ => finish_passes c
  | get => exact finish_passes c

theorem begin_lost (now : α) {c : Client} (h : c.link.Stands (some f)) :
    Passes f (begin s now c) ∨ Breaks f (begin s now c) :=
  command_lost h now .set fun hp _ => following_passes hp now .set

/-- The loss breaks a probe that waits; one that is a deadline ends its command instead. -/
theorem resume_lost (now : α) (w : Waiting α) {c : Client} (h : c.link.Stands (some f))
    (hpop : Client.popFrame c.buffer = .ok none) :
    (f.isDeadline = true ∧ Passes f (resume s now w c)) ∨ Breaks f (resume s now w c) := by
  have hl := Client.awaitReply_lost w.serial hpop h.read
  cases hd : f.isDeadline with
  | true =>
    refine .inl ⟨rfl, ?_⟩
    simp only [resume, answer, hl, hd, if_true]
    exact timeOut_passes w.phase c (following_passes (.inr hd) now w.phase h)
  | false =>
    refine .inr ?_
    simp only [resume, answer, hl, hd, Bool.false_eq_true, if_false]
    exact ⟨rfl, hd, .inl rfl⟩

/-- A command is recorded as timed out only where there was no time at all. -/
def Prompt (s : Setup α) (es : List (Effect α)) : Prop :=
  ∀ target command x, .report (.request target command timeoutStatus x) ∈ es →
    s.timeout.isOver = true

theorem Prompt.nil : Prompt s ([] : List (Effect α)) := by simp [Prompt]

theorem Prompt.append {es fs : List (Effect α)} (h : Prompt s es) (h' : Prompt s fs) :
    Prompt s (es ++ fs) := by
  intro target command x hm
  obtain hm | hm := List.mem_append.mp hm
  · exact h target command x hm
  · exact h' target command x hm

/-- No answer has the status of a command without one. -/
theorem status_ne_timeout (f : Wire.Frame) : (f.status : Text) ≠ timeoutStatus := by
  rw [Wire.Frame.status, Wire.Status.label]
  split
  · next s _ => cases s <;> decide
  · intro h
    have hm : 'T'.toNat ∈ (Text.ofString (toString (f.header.status : Int))).points := by
      rw [h]
      decide
    obtain ⟨c, hc, hn⟩ := List.mem_map.mp hm
    have hrepr : toString (f.header.status : Int) = Nat.repr f.header.status := rfl
    rw [hrepr, Nat.toList_repr] at hc
    have hdigit := Nat.isDigit_of_mem_toDigits (by decide) (by decide) hc
    rw [Char.toNat_inj.mp hn] at hdigit
    exact absurd hdigit (by decide)

theorem timeOut_prompt (hover : s.timeout.isOver = true) (p : Phase) (c : Client)
    (next : Client → Outcome α) : Prompt s (timeOut s p c next).effects :=
  fun _ _ _ _ => hover

theorem answer_prompt {c : Client} (h : c.link.Stands fault)
    (hf : ∀ f, fault = some f → f.isDeadline = false) (now : α) (w : Waiting α)
    {next : Client → Outcome α} (hn : ∀ c, c.link.Stands fault → Prompt s (next c).effects) :
    Prompt s (answer s now w c next).effects := by
  have hs := Client.awaitReply_stands w.serial h
  unfold answer
  split
  · exact .nil
  · next f d hd =>
    rw [hd] at hs
    refine Prompt.append (fun target command x hm => ?_) (hn d hs)
    have heq := List.mem_singleton.mp hm
    simp only [Effect.report.injEq, Metrics.Report.request.injEq] at heq
    exact absurd heq.2.2.1.symm (status_ne_timeout f)
  · next f d hd =>
    rw [hd] at hs
    have hlost := Client.awaitReply_fault hd
    rw [hf f (hs.read.symm.trans hlost), if_neg Bool.false_ne_true]
    exact .nil
  · exact .nil

theorem command_prompt {c : Client} (h : c.link.Stands fault)
    (hf : ∀ f, fault = some f → f.isDeadline = false) (now : α) (p : Phase)
    {next : Client → Outcome α} (hn : ∀ c, c.link.Stands fault → Prompt s (next c).effects) :
    Prompt s (command s now p c next).effects := by
  have ht : c.takeSerial.2.link.Stands fault := h
  have hsend (bs : Bytes) : Prompt s [(.send bs : Effect α)] := by
    intro target command x hm
    simp at hm
  unfold command
  simp only
  split
  · exact .nil
  · split
    · next hover => exact timeOut_prompt hover p _ _
    · split
      · exact .nil
      · exact .nil
      · split
        · next f hlost =>
          rw [hf f (ht.write.symm.trans hlost), if_neg Bool.false_ne_true]
          exact hsend _
        · exact (hsend _).append (answer_prompt ht hf now _ hn)

theorem following_prompt (hf : ∀ f, fault = some f → f.isDeadline = false) (now : α) (p : Phase)
    {c : Client} (h : c.link.Stands fault) : Prompt s (following s now p c).effects := by
  cases p with
  | set => exact command_prompt h hf now .get fun _ _ => .nil
  | get => exact .nil

theorem begin_prompt (hf : ∀ f, fault = some f → f.isDeadline = false) (now : α) {c : Client}
    (h : c.link.Stands fault) : Prompt s (begin s now c).effects :=
  command_prompt h hf now .set fun _ => following_prompt hf now .set

theorem resume_prompt (hf : ∀ f, fault = some f → f.isDeadline = false) (now : α) (w : Waiting α)
    {c : Client} (h : c.link.Stands fault) : Prompt s (resume s now w c).effects :=
  answer_prompt h hf now w fun _ => following_prompt hf now w.phase

end Exchange

end FleetProbe
