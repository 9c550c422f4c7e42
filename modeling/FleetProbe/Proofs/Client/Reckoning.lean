import FleetProbe.Proofs.Client.Exchange
import FleetProbe.Proofs.Probe.Reports
import FleetProbe.Proofs.Wire.Requests
/-!
What a probe puts on record. Its commands are recorded in their order, each when it is over, with
the limit as the time of one that got no answer; so what is on record tells which command a probe
is at, and so does what it wrote last.
-/

namespace FleetProbe

namespace Exchange

/-- Place of a command in a probe. -/
def Phase.rank : Phase → Nat
  | .set => 0
  | .get => 1

theorem Phase.rank_le (p : Phase) : p.rank ≤ 1 := by
  cases p with
  | set => exact Nat.zero_le 1
  | get => exact Nat.le_refl 1

/-- The commands of a probe as they are recorded, in order. -/
def commands : List Text := [Phase.set.command, Phase.get.command]

/-- The command that some bytes hold. -/
def phaseOf? (bs : Bytes) : Option Phase :=
  (Wire.Request.read? bs).map fun x =>
    match x.1 with
    | .set .. => .set
    | .get .. => .get

/-- Builds the command of a phase. -/
def Phase.build (p : Phase) (payload : Wire.Payload) (serial : Int) :
    Except Wire.CommandFault Wire.Command :=
  match p with
  | .set => payload.set serial
  | .get => payload.get serial

theorem Phase.request_of_build {p : Phase} {payload : Wire.Payload} {serial : Int}
    {c : Wire.Command} (h : p.build payload serial = .ok c) :
    ∃ r : Wire.Request, r.command = .ok c ∧
      (match r with | .set .. => Phase.set | .get .. => Phase.get) = p := by
  cases p with
  | set =>
    simp only [build, Wire.Payload.set] at h
    split at h
    · next key value _ _ =>
      split at h
      · next ttl httl =>
        cases h
        obtain ⟨n, -, hn⟩ := Option.bind_eq_some_iff.mp httl
        refine ⟨.set key value n serial, ?_, rfl⟩
        simp only [Wire.Request.command, Wire.Payload.set, Wire.Content.bytes?, Option.bind_some,
          hn]
      · cases h
    · cases h
  | get =>
    simp only [build, Wire.Payload.get] at h
    split at h
    · next key _ =>
      cases h
      exact ⟨.get key serial, rfl, rfl⟩
    · cases h

/-- What is written of a command tells which one it is. -/
theorem phaseOf?_of_build {p : Phase} {payload : Wire.Payload} {serial : Int} {c : Wire.Command}
    {bs : Bytes} (h : p.build payload serial = .ok c) (hbs : c.encode = .ok bs) :
    phaseOf? bs = some p := by
  obtain ⟨r, hr, hp⟩ := Phase.request_of_build h
  have hread := Wire.Request.read?_append ((Wire.Request.encode_of_command hr).trans hbs) []
  rw [List.append_nil] at hread
  rw [phaseOf?, hread, ← hp]
  rfl

end Exchange

namespace Effect

open Exchange Metrics

variable {α : Type}

/-- Command, status and time of a request. -/
def recorded? : Report α → Option (Text × Text × α)
  | .request _ command status x => some (command, status, x)
  | _ => none

/-- The requests on record among some effects. -/
def recorded (es : List (Effect α)) : List (Text × Text × α) := (reports es).filterMap recorded?

@[simp]
theorem recorded_append (es fs : List (Effect α)) :
    recorded (es ++ fs) = recorded es ++ recorded fs := by
  rw [recorded, recorded, recorded, reports_append, List.filterMap_append]

/-- Whether a command is said to have run out of time. -/
def isTimedOut (command : Text) : Effect α → Bool
  | .timedOut c _ => decide ((c : Text) = command)
  | _ => false

/-- The command that was written last, after one from before. -/
def lastWritten (before : Option Phase) (es : List (Effect α)) : Option Phase :=
  es.foldl (fun last e =>
    match e with
    | .send bs => phaseOf? bs
    | _ => last) before

theorem lastWritten_append (before : Option Phase) (es fs : List (Effect α)) :
    lastWritten before (es ++ fs) = lastWritten (lastWritten before es) fs := List.foldl_append

/-- The commands that ran out of time are those recorded so, and their time is the limit. -/
structure Timed [Quantity α] (limit : TimeLimit α) (es : List (Effect α)) : Prop where
  limit : ∀ command x, (command, timeoutStatus, x) ∈ recorded es → limit.seconds = .ok x
  said : ∀ command, (recorded es).countP (fun r => r.1 = command ∧ r.2.1 = timeoutStatus) =
    es.countP (isTimedOut command)

variable [Quantity α] {limit : TimeLimit α} {es fs : List (Effect α)}

theorem Timed.append (h : Timed limit es) (h' : Timed limit fs) : Timed limit (es ++ fs) := by
  refine ⟨fun command x hm => ?_, fun command => ?_⟩
  · rw [recorded_append] at hm
    exact (List.mem_append.mp hm).elim (h.limit command x) (h'.limit command x)
  · rw [recorded_append, List.countP_append, List.countP_append, h.said, h'.said]

/-- Effects that neither record a request nor say that one ran out of time. -/
theorem Timed.of_silent (hes : recorded es = [])
    (h : ∀ command, es.countP (isTimedOut command) = 0) : Timed limit es := by
  refine ⟨fun command x hm => ?_, fun command => ?_⟩
  · rw [hes] at hm
    cases hm
  · rw [hes, h]
    rfl

end Effect

namespace Exchange

open Effect Metrics

variable {α : Type} [Quantity α] {s : Setup α}

/-- A probe that had reached a command, with what was written last, is at a command now: it waits
for it or fails by it, has written it last, and has recorded those in between. -/
structure Accounted (s : Setup α) (before : Option Phase) (k : Nat) (o : Outcome α) : Prop where
  timed : Timed s.timeout o.effects
  own : ∀ r ∈ reports o.effects, ∃ command status x, r = .request s.target command status x
  ordered : ∃ n, (recorded o.effects).map Prod.fst = (commands.drop k).take n ∧
    (∀ w, o.progress = .waiting w →
      w.phase.rank = k + n ∧ lastWritten before o.effects = some w.phase) ∧
    (o.progress = .finished → k + n = 2) ∧
    ∀ f, o.progress = .failed (.client f) →
      ∃ p : Phase, p.rank = k + n ∧ lastWritten before o.effects = some p

/-- What a probe does is on record, unless it ends by what no new connection mends. -/
def Reckons (s : Setup α) (before : Option Phase) (k : Nat) (o : Outcome α) : Prop :=
  (∃ f, o.progress = .failed f ∧ ∀ g, f ≠ .client g) ∨ Accounted s before k o

variable {before : Option Phase} {k : Nat} {o : Outcome α}

theorem Reckons.crashed {f : Fault} {c : Client} {es : List (Effect α)} (hf : ∀ g, f ≠ .client g) :
    Reckons s before k ⟨.failed f, c, es⟩ := .inl ⟨f, rfl, hf⟩

theorem finish_reckons (c : Client) : Reckons s before 2 (finish c : Outcome α) := by
  refine .inr ⟨.of_silent rfl fun _ => rfl, by simp [finish], 0, rfl, ?_, ?_, ?_⟩
  · simp [finish]
  · simp
  · simp [finish]

/-- A command that is over is put on record. -/
theorem Reckons.recorded {p : Phase} {es : List (Effect α)} {status : Text} {x : α}
    (h : Reckons s before (p.rank + 1) o)
    (hes : reports es = [.request s.target p.command status x])
    (htimed : Timed s.timeout es) (hlast : lastWritten before es = before) :
    Reckons s before p.rank (o.after es) := by
  refine h.imp id fun h => ?_
  obtain ⟨n, hn, hwaits, hfinished, hfailed⟩ := h.ordered
  have hlater : lastWritten before (o.after es).effects = lastWritten before o.effects := by
    rw [Outcome.after, lastWritten_append, hlast]
  refine ⟨htimed.append h.timed, fun r hr => ?_, n + 1, ?_, fun w hw => ?_, fun hf => ?_,
    fun f hf => ?_⟩
  · rw [Outcome.after, reports_append, hes] at hr
    obtain hr | hr := List.mem_append.mp hr
    · exact ⟨_, _, _, List.mem_singleton.mp hr⟩
    · exact h.own r hr
  · have hfirst : Effect.recorded es = [((p.command : Text), status, x)] := by
      rw [Effect.recorded, hes]
      rfl
    rw [Outcome.after, recorded_append, hfirst, List.map_append, hn]
    cases p with
    | set => rfl
    | get => rfl
  · obtain ⟨hrank, hlast'⟩ := hwaits w hw
    exact ⟨by omega, hlater.trans hlast'⟩
  · have hend := hfinished hf
    omega
  · obtain ⟨q, hq, hlast'⟩ := hfailed f hf
    exact ⟨q, by omega, hlater.trans hlast'⟩

theorem Reckons.written {p : Phase} {bs : Bytes} (h : Reckons s (some p) k o)
    (hbs : phaseOf? bs = some p) : Reckons s before k (o.after [.send bs]) := by
  refine h.imp id fun h => ?_
  have hlast :
      lastWritten before (o.after [.send bs]).effects = lastWritten (some p) o.effects := by
    rw [Outcome.after, lastWritten_append, ← hbs]
    rfl
  have htimed : Timed s.timeout [(.send bs : Effect α)] := .of_silent rfl fun _ => rfl
  refine ⟨htimed.append h.timed, h.own, ?_⟩
  rw [hlast]
  exact h.ordered

/-- A command that goes on, or fails, is the one that was written last. -/
theorem Reckons.standing {p : Phase} {c : Client} {progress : Progress α}
    (h : (∃ w, progress = .waiting w ∧ w.phase = p) ∨ ∃ f, progress = .failed (.client f)) :
    Reckons s (some p) p.rank ⟨progress, c, []⟩ := by
  refine .inr ⟨.of_silent rfl fun _ => rfl, by simp, 0, rfl, fun w hw => ?_, fun hf => ?_,
    fun f _ => ⟨p, rfl, rfl⟩⟩
  · obtain ⟨v, rfl, rfl⟩ | ⟨f, rfl⟩ := h
    · cases hw
      exact ⟨rfl, rfl⟩
    · cases hw
  · obtain ⟨v, rfl, -⟩ | ⟨f, rfl⟩ := h
    · cases hf
    · cases hf

theorem timeOut_reckons (p : Phase) (c : Client) {next : Client → Outcome α}
    (hn : ∀ c, Reckons s before (p.rank + 1) (next c)) :
    Reckons s before p.rank (timeOut s p c next) := by
  unfold timeOut
  dsimp only
  split
  · next x hx =>
    refine (hn c).recorded rfl ⟨fun command y hm => ?_, fun command => ?_⟩ rfl
    · cases List.mem_singleton.mp hm
      exact hx
    · have hone : Effect.recorded [.timedOut p.command s.timeout,
          .report (.request s.target p.command timeoutStatus x)] =
          [((p.command : Text), timeoutStatus, x)] := rfl
      rw [hone]
      simp [isTimedOut, List.countP_cons]
  · exact .crashed (by simp)

theorem answer_reckons (now : α) (w : Waiting α) (c : Client) {next : Client → Outcome α}
    (hn : ∀ c, Reckons s (some w.phase) (w.phase.rank + 1) (next c)) :
    Reckons s (some w.phase) w.phase.rank (answer s now w c next) := by
  unfold answer
  split
  · exact .standing (.inl ⟨w, rfl, rfl⟩)
  · next f d _ =>
    refine (hn d).recorded rfl ⟨fun command y hm => ?_, fun command => ?_⟩ rfl
    · have heq := List.mem_singleton.mp hm
      simp only [Prod.mk.injEq] at heq
      exact absurd heq.2.1.symm (status_ne_timeout f)
    · simp [Effect.recorded, reports, report?, recorded?, isTimedOut, status_ne_timeout f]
  · split
    · exact timeOut_reckons _ _ hn
    · exact .standing (.inr ⟨_, rfl⟩)
  · exact .standing (.inr ⟨_, rfl⟩)

theorem command_reckons (now : α) (p : Phase) (c : Client) {next : Client → Outcome α}
    (hn : ∀ before c, Reckons s before (p.rank + 1) (next c)) :
    Reckons s before p.rank (command s now p c next) := by
  unfold command
  dsimp only
  split
  · exact .crashed (by simp)
  · next built hbuilt =>
    have hbuild : p.build s.payload c.takeSerial.1 = .ok built := by
      cases p with
      | set => exact hbuilt
      | get => exact hbuilt
    split
    · exact timeOut_reckons p _ (hn before)
    · split
      · exact .crashed (by simp)
      · exact .crashed (by simp)
      · next deadline bs _ hbs =>
        have hwritten := phaseOf?_of_build hbuild hbs
        split
        · split
          · exact (timeOut_reckons p _ (hn (some p))).written hwritten
          · next f _ _ =>
            have hstanding : Reckons s (some p) p.rank
                ⟨.failed (.client (.link f)), c.takeSerial.2, []⟩ := .standing (.inr ⟨_, rfl⟩)
            exact hstanding.written hwritten
        · exact (answer_reckons now ⟨p, _, now, deadline⟩ _ (hn (some p))).written hwritten

theorem following_reckons (now : α) (p : Phase) (before : Option Phase) (c : Client) :
    Reckons s before (p.rank + 1) (following s now p c) := by
  cases p with
  | set => exact command_reckons now .get c fun _ => finish_reckons
  | get => exact finish_reckons c

theorem begin_reckons (now : α) (before : Option Phase) (c : Client) :
    Reckons s before 0 (begin s now c) :=
  command_reckons now .set c (following_reckons now .set)

theorem resume_reckons (now : α) (w : Waiting α) (c : Client) :
    Reckons s (some w.phase) w.phase.rank (resume s now w c) :=
  answer_reckons now w c (following_reckons now w.phase _)

theorem expire_reckons (now : α) (w : Waiting α) (c : Client) :
    Reckons s (some w.phase) w.phase.rank (expire s now w c) :=
  timeOut_reckons w.phase c (following_reckons now w.phase _)

end Exchange

end FleetProbe
