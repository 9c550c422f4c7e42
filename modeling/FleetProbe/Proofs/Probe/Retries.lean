import FleetProbe.Catalog.Services
import FleetProbe.Proofs.Probe.Steps
import FleetProbe.Proofs.Probe.Survival
import FleetProbe.Proofs.Metrics.Growth
/-!
What becomes of a task whose connections cannot be opened. Every failure is counted, and the next
attempt is made after the backoff, for as long as nobody stops the task; unless the address is one
that cannot be encoded as the name of a host. The catalog gives out such addresses, and a task that
is told so does not survive it.
-/

namespace FleetProbe.Probe

/-- The ways in which no connection to an address can be opened, where some addresses can be encoded
as names of hosts: a condition of the system, or a complaint about the address. -/
def OpeningFails (encodes : Text → Bool) (address : Text) (f : FleetProbe.Fault) : Prop :=
  f.isSystem = true ∨ (encodes address = false ∧ f.kind = .other)

/-- An event that brings no connection, and no end either. -/
def Event.Vain (encodes : Text → Bool) (address : Text) : Event → Prop
  | .refused f => OpeningFails encodes address f
  | .opened | .stop | .cancel => False
  | _ => True

namespace Task

open Effect Metrics

variable {α : Type}

/-- The task has no connection yet, and nobody has asked it to stop. -/
structure Seeks (t : Task α) : Prop where
  client : t.client = none
  unasked : t.stopRequested = false
  waits : t.wait = .start ∨ (∃ d, t.wait = .opening d) ∨ ∃ d, t.wait = .pause d

theorem Seeks.ne_closing {t : Task α} (h : t.Seeks) (next : AfterClose) :
    t.wait ≠ .closing next := by
  obtain hw | ⟨d, hw⟩ | ⟨d, hw⟩ := h.waits
  all_goals simp [hw]

variable [Quantity α]

/-- One failure is counted, by the task and for its node, and the backoff begins. -/
structure CountsFailure (t : Task α) (now : α) (n : Next α) : Prop where
  failures : n.task.failures = t.failures + 1
  shown : ∀ m : Metrics α, ((reports n.effects).foldl apply m).failures.find? t.target =
    some ((m.failures.find? t.target).getD 0 + 1)
  stage : n.task.stage = .backoff
  waits : ∃ d, t.config.backoff.deadline now = .ok d ∧ n.task.wait = .pause d

/-- A task does not give up: every failure is counted and followed by the backoff, and after it
comes the next attempt. -/
structure Perseveres (t : Task α) (after : List (α × Event)) : Prop where
  alive : ∀ past, past <+: after → (t.run past).task.Seeks
  /-- Opening the connection fails. -/
  refused : ∀ past now f rest, after = past ++ (now, .refused f) :: rest →
    (∃ d, (t.run past).task.wait = .opening d) →
    CountsFailure (t.run past).task now ((t.run past).task.step now (.refused f))
  /-- Opening the connection takes too long. -/
  tardy : ∀ past now d rest, after = past ++ (now, .tick) :: rest →
    (t.run past).task.wait = .opening d → d.any (· ≤ now) = true →
    CountsFailure (t.run past).task now ((t.run past).task.step now .tick)
  /-- The backoff is not cut short. -/
  rests : ∀ past now e d rest, after = past ++ (now, e) :: rest →
    (t.run past).task.wait = .pause d → (e = .tick → d.any (· ≤ now) = false) →
    (t.run past).task.step now e = ⟨(t.run past).task, []⟩
  /-- It is followed by an attempt. -/
  retries : ∀ past now d rest, after = past ++ (now, .tick) :: rest →
    (t.run past).task.wait = .pause d → d.any (· ≤ now) = true →
    (t.run past).task.starts? now .tick = some .connect ∧
      ((t.run past).task.step now .tick).effects = [.connect] ∧
      ∃ d, ((t.run past).task.step now .tick).task.wait = .opening d

/-- A task that fails to connect counts that and pauses. -/
theorem failConnect_counts {t : Task α} (h : t.Seeks) (hbackoff : t.config.backoff.IsNumber)
    (now : α) : CountsFailure t now (t.failConnect now) ∧ (t.failConnect now).task.Seeks := by
  obtain ⟨d, hd⟩ := hbackoff.deadline now
  have hnext : t.failConnect now = ⟨{ t.countFailure with stage := .backoff, wait := .pause d },
      [.connectFailed, .report (.failure t.target)]⟩ := by
    simp [failConnect, backOff, pause, countFailure, hd, h.unasked, Next.after]
  rw [hnext]
  refine ⟨⟨rfl, fun m => ?_, rfl, d, hd, rfl⟩, ⟨h.client, h.unasked, .inr (.inr ⟨d, rfl⟩)⟩⟩
  exact (Family.find?_update m.failures t.target t.target 0 (· + 1)).trans (if_pos rfl)

theorem CountsFailure.after {t : Task α} {now : α} {n : Next α} {es : List (Effect α)}
    (h : CountsFailure t now n) (hes : reports es = []) : CountsFailure t now (n.after es) := by
  refine ⟨h.failures, fun m => ?_, h.stage, h.waits⟩
  rw [Next.after, reports_append, hes, List.nil_append]
  exact h.shown m

/-- A round of a task that seeks a connection is an attempt. -/
theorem turn_connects {t : Task α} (h : t.Seeks) (hnumber : t.config.connectTimeout.IsNumber)
    (htime : t.config.connectTimeout.isOver = false) (now : α) :
    (t.turn now).effects = [.connect] ∧ (∃ d, (t.turn now).task.wait = .opening d) ∧
      (t.turn now).task.Seeks := by
  obtain ⟨d, hd⟩ := hnumber.deadline now
  have hturn : t.turn now =
      ⟨{ t with stage := .connecting, wait := .opening d }, [.connect]⟩ := by
    simp [turn, connect, h.unasked, h.client, htime, hd]
  rw [hturn]
  exact ⟨rfl, ⟨d, rfl⟩, h.client, h.unasked, .inr (.inl ⟨d, rfl⟩)⟩

/-- What is asked of a configuration: connections are given some time, and pauses have a length. -/
structure Patient (config : Config α) : Prop where
  backoff : config.backoff.IsNumber
  connectTimeout : config.connectTimeout.IsNumber
  time : config.connectTimeout.isOver = false

variable {t : Task α} {encodes : Text → Bool} {now : α} {d : Option α}

omit [Quantity α] in
theorem isSystem_of_encodes {f : FleetProbe.Fault} (hencodes : encodes t.node.ip = true)
    (hf : OpeningFails encodes t.node.ip f) : f.isSystem = true := by
  obtain hsystem | ⟨hfails, -⟩ := hf
  · exact hsystem
  · cases hencodes.symm.trans hfails

theorem step_refused (h : t.Seeks) (hp : Patient t.config) (hw : t.wait = .opening d)
    {f : FleetProbe.Fault} (hf : f.isSystem = true) :
    CountsFailure t now (t.step now (.refused f)) ∧ (t.step now (.refused f)).task.Seeks := by
  have hstep : t.step now (.refused f) = t.failConnect now := by simp only [step, hw, hf, if_true]
  rw [hstep]
  exact failConnect_counts h hp.backoff now

theorem step_tardy (h : t.Seeks) (hp : Patient t.config) (hw : t.wait = .opening d)
    (hdue : d.any (· ≤ now) = true) :
    CountsFailure t now (t.step now .tick) ∧ (t.step now .tick).task.Seeks := by
  have hstep : t.step now .tick = (t.failConnect now).after [.abandon] := by
    simp only [step, expire, hw, hdue, if_true]
  obtain ⟨hcounts, hseeks⟩ := failConnect_counts h hp.backoff now
  rw [hstep]
  exact ⟨hcounts.after rfl, hseeks⟩

theorem step_retries (h : t.Seeks) (hp : Patient t.config) (hw : t.wait = .pause d)
    (hdue : d.any (· ≤ now) = true) :
    t.starts? now .tick = some .connect ∧ (t.step now .tick).effects = [.connect] ∧
      (∃ d, (t.step now .tick).task.wait = .opening d) ∧ (t.step now .tick).task.Seeks := by
  have hstep : t.step now .tick = t.turn now := by simp only [step, expire, hw, hdue, if_true]
  have hround : t.round? now .tick = some t := by simp only [round?, hw, hdue, if_true]
  rw [hstep]
  refine ⟨?_, turn_connects h hp.connectTimeout hp.time now⟩
  simp [starts?, hround, h.unasked, h.client]

/-- Nothing but time, a request to stop and a cancellation ends a pause without connection. -/
theorem step_pause (h : t.Seeks) {address : Text} {e : Event} (hvain : e.Vain encodes address)
    (hw : t.wait = .pause d) (hdue : e = .tick → d.any (· ≤ now) = false) :
    t.step now e = ⟨t, []⟩ := by
  cases e with
  | run => exact step_run_of_ne (by simp [hw]) now
  | refused f => exact step_refused_of_ne (by simp [hw]) now f
  | arrived | finished | lost => rw [step, touch_of_none h.client]
  | closed f => exact step_closed_of_ne h.ne_closing now f
  | tick => simp [step, expire, hw, hdue rfl]
  | opened | stop | cancel => cases hvain

theorem step_seeks (h : t.Seeks) (hp : Patient t.config) (hencodes : encodes t.node.ip = true)
    (now : α) {e : Event} (hvain : e.Vain encodes t.node.ip) : (t.step now e).task.Seeks := by
  cases e with
  | run =>
    by_cases hw : t.wait = .start
    · have hstep : t.step now .run =
          (t.turn now).after [.started, .report (.claim t.target t.id)] := by
        simp only [step, hw]
      rw [hstep]
      exact (turn_connects h hp.connectTimeout hp.time now).2.2
    · rw [step_run_of_ne hw]
      exact h
  | refused f =>
    by_cases hopening : ∃ d, t.wait = .opening d
    · obtain ⟨d, hw⟩ := hopening
      exact (step_refused h hp hw (isSystem_of_encodes hencodes hvain)).2
    · rw [step_refused_of_ne fun d hw => hopening ⟨d, hw⟩]
      exact h
  | arrived | finished | lost =>
    rw [step, touch_of_none h.client]
    exact h
  | closed f =>
    rw [step_closed_of_ne h.ne_closing]
    exact h
  | tick =>
    obtain hw | ⟨d, hw⟩ | ⟨d, hw⟩ := h.waits
    · simp only [step, expire, hw]
      exact h
    · by_cases hdue : d.any (· ≤ now) = true
      · exact (step_tardy h hp hw hdue).2
      · simp only [step, expire, hw, if_neg hdue]
        exact h
    · by_cases hdue : d.any (· ≤ now) = true
      · exact (step_retries h hp hw hdue).2.2.2
      · simp only [step, expire, hw, if_neg hdue]
        exact h
  | opened | stop | cancel => cases hvain

theorem run_seeks (h : t.Seeks) (hp : Patient t.config) (hencodes : encodes t.node.ip = true)
    {events : List (α × Event)} (hvain : ∀ x ∈ events, x.2.Vain encodes t.node.ip) :
    (t.run events).task.Seeks := by
  induction events generalizing t with
  | nil => exact h
  | cons y events ih =>
    obtain ⟨hfirst, hrest⟩ := List.forall_mem_cons.mp hvain
    obtain ⟨-, hnode, hconfig⟩ := step_same t y.1 y.2
    have hseeks := step_seeks h hp hencodes y.1 hfirst
    rw [← hnode] at hencodes hrest
    rw [← hconfig] at hp
    exact ih hseeks hp hencodes hrest

theorem perseveres (h : t.Seeks) (hp : Patient t.config) (hencodes : encodes t.node.ip = true)
    {after : List (α × Event)} (hvain : ∀ x ∈ after, x.2.Vain encodes t.node.ip) :
    t.Perseveres after := by
  have hpast {past rest : List (α × Event)} (hsplit : after = past ++ rest) :
      (t.run past).task.Seeks ∧ Patient (t.run past).task.config ∧
        ∀ x ∈ rest, x.2.Vain encodes t.node.ip := by
    rw [hsplit] at hvain
    obtain ⟨hfirst, hrest⟩ := List.forall_mem_append.mp hvain
    obtain ⟨-, -, hconfig⟩ := run_same t past
    exact ⟨run_seeks h hp hencodes hfirst, hconfig ▸ hp, hrest⟩
  refine ⟨?_, ?_, ?_, ?_, ?_⟩
  · rintro past ⟨rest, hsplit⟩
    exact (hpast hsplit.symm).1
  · rintro past now f rest hsplit ⟨d, hw⟩
    obtain ⟨hseeks, hpatient, hrest⟩ := hpast hsplit
    have hfails := hrest _ List.mem_cons_self
    exact (step_refused hseeks hpatient hw (isSystem_of_encodes hencodes hfails)).1
  · intro past now d rest hsplit hw hdue
    obtain ⟨hseeks, hpatient, -⟩ := hpast hsplit
    exact (step_tardy hseeks hpatient hw hdue).1
  · intro past now e d rest hsplit hw hdue
    obtain ⟨hseeks, -, hrest⟩ := hpast hsplit
    exact step_pause hseeks (hrest _ List.mem_cons_self) hw hdue
  · intro past now d rest hsplit hw hdue
    obtain ⟨hseeks, hpatient, -⟩ := hpast hsplit
    obtain ⟨hstarts, heffects, hopening, -⟩ := step_retries hseeks hpatient hw hdue
    exact ⟨hstarts, heffects, hopening⟩

/-- The task of a node tries again whenever and however connections fail to open. -/
def Retries (encodes : Text → Bool) (config : Config α) (node : Catalog.Node) : Prop :=
  ∀ (id : Nat) (before after : List (α × Event)),
    ((fresh id node config).run before).task.Seeks →
    (∀ x ∈ after, x.2.Vain encodes node.ip) →
    ((fresh id node config).run before).task.Perseveres after

/-- The complaint about an address that is not the name of a host. -/
def unencodable : FleetProbe.Fault := ⟨.other, "UnicodeError", "label empty or too long"⟩

theorem Retries.encodable {config : Config α} (hp : Patient config) {node : Catalog.Node}
    (h : Retries encodes config node) : encodes node.ip = true := by
  by_contra hfails
  have hfresh : (fresh 0 node config).Seeks := ⟨rfl, rfl, .inl rfl⟩
  obtain ⟨-, ⟨d, hw⟩, hseeks⟩ :=
    turn_connects hfresh hp.connectTimeout hp.time (Quantity.zero : α)
  have hvain : (Event.refused unencodable).Vain encodes node.ip :=
    .inr ⟨Bool.eq_false_iff.mpr hfails, rfl⟩
  have hperseveres := h 0 [(Quantity.zero, .run)] [(Quantity.zero, .refused unencodable)] hseeks
    (by simpa using hvain)
  obtain ⟨d', -, hpause⟩ := (hperseveres.refused [] _ _ [] rfl ⟨d, hw⟩).waits
  -- The complaint is none of the conditions that a task knows, so it has crashed instead.
  have hcrash : (((fresh 0 node config).turn Quantity.zero).task.step Quantity.zero
      (.refused unencodable)).task.wait = .ended (.crashed (.fault unencodable)) := by
    simp only [step, hw]
    simp [shutdown, hseeks.client, finish, unencodable, FleetProbe.Fault.isSystem]
  cases hpause.symm.trans hcrash

/-- **Every failing connect is counted and tried again exactly where addresses can be encoded.** The
tasks of all nodes that the catalog gives out persevere, however opening a connection fails, if and
only if the address of every node can be encoded as the name of a host. -/
theorem extracted_retry_iff (encodes : Text → Bool) {config : Config α} (hp : Patient config)
    (service : Text) (answer : Value) :
    (∀ node ∈ (Catalog.Nodes.extract service answer).1, Retries encodes config node) ↔
      ∀ node ∈ (Catalog.Nodes.extract service answer).1, encodes node.ip = true := by
  constructor
  · exact fun h node hnode => (h node hnode).encodable hp
  · intro h node hnode id before after hseeks hvain
    obtain ⟨-, hsame, hconfig⟩ := run_same (fresh id node config) before
    have hip : ((fresh id node config).run before).task.node.ip = node.ip := by rw [hsame]; rfl
    rw [← hip] at hvain
    exact perseveres hseeks (hconfig.symm ▸ hp) (hip ▸ h node hnode) hvain

/-- What a plain name of a host must look like: its labels, between points, are of at most 63
characters, and only the last may be empty. -/
def isPlainHost (address : Text) : Bool :=
  let labels := address.points.splitOn 0x2e
  labels.dropLast.all (fun label => 0 < label.length && label.length < 64)
    && (labels.getLastD []).length < 64

/-- The answer of a catalog with one node at an address. -/
def soleNode (address : Text) : Value :=
  .list [.map [(.text "ServiceAddress", .text address), (.text "ServicePort", .int 11211)]]

theorem secondly_patient : Patient Config.secondly :=
  ⟨⟨1, by decide +kernel⟩, ⟨1, by decide +kernel⟩, by decide +kernel⟩

theorem soleNode_retries : Patient Config.secondly ∧
    (Catalog.Nodes.extract "c" (soleNode "10.0.0.1")).1 = [⟨"c", "10.0.0.1", 11211⟩] ∧
    isPlainHost "10.0.0.1" = true ∧
    Retries isPlainHost Config.secondly ⟨"c", "10.0.0.1", 11211⟩ := by
  have hnodes : (Catalog.Nodes.extract "c" (soleNode "10.0.0.1")).1 =
      [⟨"c", "10.0.0.1", 11211⟩] := by decide +kernel
  have hplain : isPlainHost "10.0.0.1" = true := by decide +kernel
  have hretries := (extracted_retry_iff isPlainHost secondly_patient "c" (soleNode "10.0.0.1")).mpr
  rw [hnodes] at hretries
  exact ⟨secondly_patient, hnodes, hplain, by simpa [hplain] using hretries⟩

/-- An address with an empty label is accepted, and the task of its node does not persevere. -/
theorem emptyLabel_not_retries :
    ¬ ∀ node ∈ (Catalog.Nodes.extract "c" (soleNode "a..b")).1,
      Retries isPlainHost Config.secondly node := by
  have hnodes : (Catalog.Nodes.extract "c" (soleNode "a..b")).1 = [⟨"c", "a..b", 11211⟩] := by
    decide +kernel
  have hplain : isPlainHost "a..b" = false := by decide +kernel
  intro h
  rw [hnodes] at h
  have hencodable := (h _ (List.mem_singleton_self _)).encodable secondly_patient
  cases hplain.symm.trans hencodable

end Task

end FleetProbe.Probe
