import FleetProbe.Proofs.Client.Writing
import FleetProbe.Proofs.Probe.Sockets
import FleetProbe.Proofs.Probe.Steps
import FleetProbe.Proofs.Probe.Survival
/-!
What a task writes on each of its connections. A probe whose commands run out of time still writes
both of them, and one that fails or is cancelled between them takes the connection with it. So a
task stores and reads back in turn, under one number after the other, for as long as it writes on a
connection at all.
-/

namespace FleetProbe.Probe

open Effect Exchange Wire

/-- What shows of a task on the network. -/
inductive Mark where
  /-- A connection is obtained. -/
  | gain
  | write (bs : Bytes)
  deriving DecidableEq, Repr

namespace Mark

/-- What is written before there is a connection, and then on each of them. -/
def written : List Mark → List (List Bytes)
  | [] => [[]]
  | .gain :: ms => [] :: written ms
  | .write bs :: ms => (written ms).modifyHead (bs :: ·)

/-- Marks that begin without a write are about connections of their own. -/
theorem written_append {ns : List Mark} {lines : List (List Bytes)} (h : written ns = [] :: lines)
    (ms : List Mark) : written (ms ++ ns) = written ms ++ lines := by
  have hne (ms : List Mark) : written ms ≠ [] := by
    induction ms with
    | nil => simp [written]
    | cons m ms ih =>
      cases m with
      | gain => simp [written]
      | write bs =>
        obtain ⟨line, rest, hline⟩ := List.exists_cons_of_ne_nil ih
        simp [written, hline]
  induction ms with
  | nil => exact h
  | cons m ms ih =>
    cases m with
    | gain => simp only [List.cons_append, written, ih]
    | write bs =>
      obtain ⟨line, rest, hline⟩ := List.exists_cons_of_ne_nil (hne ms)
      simp [written, ih, hline]

end Mark

/-- Marks that lead from one number to another: what is written is the request with the number that
is next on the connection at hand, if there is one. A connection may be left at any time, and a new
one begins with one. -/
inductive Continues (x : Entry) : Option Nat → List Mark → Option Nat → Prop where
  | done (a : Option Nat) : Continues x a [] a
  | leaves (a : Option Nat) : Continues x a [] none
  | gain {a b : Option Nat} {ms : List Mark} (h : Continues x (some 1) ms b) :
    Continues x a (.gain :: ms) b
  | write {n : Nat} {b : Option Nat} {ms : List Mark} (h : Continues x (some (n + 1)) ms b) :
    Continues x (some n) (.write (x.request n).frame.encode :: ms) b

namespace Continues

variable {x : Entry} {a b c : Option Nat} {ms ns : List Mark}

theorem leave (h : Continues x none ms b) (a : Option Nat) : Continues x a ms b := by
  cases h with
  | done => exact .leaves a
  | leaves => exact .leaves a
  | gain h => exact .gain h

theorem append (h : Continues x a ms b) (hns : Continues x b ns c) :
    Continues x a (ms ++ ns) c := by
  induction h with
  | done => exact hns
  | leaves a => exact hns.leave a
  | gain _ ih => exact .gain (ih hns)
  | write _ ih => exact .write (ih hns)

theorem of_requests (x : Entry) (first n : Nat) :
    Continues x (some first) ((Exchange.requests x first n).map .write) (some (first + n)) := by
  induction n generalizing first with
  | zero => exact .done _
  | succ n ih =>
    have hrest := ih (first + 1)
    rw [Nat.add_right_comm, Nat.add_assoc] at hrest
    rw [Exchange.requests, List.range'_succ]
    exact .write hrest

/-- On every connection stand the requests in turn, on the one at hand from the next number on. -/
theorem written (h : Continues x a ms b) : ∃ n lines,
    Mark.written ms = a.elim [] (Exchange.requests x · n) :: lines ∧
      ∀ line ∈ lines, ∃ m, line = Exchange.requests x 1 m := by
  induction h with
  | done a => exact ⟨0, [], by cases a <;> rfl, by simp⟩
  | leaves a => exact ⟨0, [], by cases a <;> rfl, by simp⟩
  | @gain a b ms _ ih =>
    obtain ⟨n, lines, hhead, hlines⟩ := ih
    refine ⟨0, Exchange.requests x 1 n :: lines, ?_, List.forall_mem_cons.mpr ⟨⟨n, rfl⟩, hlines⟩⟩
    rw [Mark.written, hhead]
    cases a <;> rfl
  | @write k b ms _ ih =>
    obtain ⟨n, lines, hhead, hlines⟩ := ih
    refine ⟨n + 1, lines, ?_, hlines⟩
    rw [Mark.written, hhead]
    simp [Exchange.requests, List.range'_succ]

end Continues

namespace Task

variable {α : Type}

/-- The number that comes next on the connection of a task. -/
def number? (t : Task α) : Option Nat := t.client.map Client.next

/-- The next command of a task is a store. -/
def StoresNext (t : Task α) : Prop := ∀ c, t.client = some c → c.next % 2 = 1

/-- A number that is out belongs to the command that waits; without one the next is a store. -/
def Aligned (t : Task α) : Prop :=
  match t.wait with
  | .reply w => ∀ c, t.client = some c → w.phase.Follows c.next
  | _ => t.StoresNext

theorem Aligned.storesNext {t : Task α} (h : t.Aligned) (hw : ∀ w, t.wait ≠ .reply w) :
    t.StoresNext := by
  unfold Aligned at h
  split at h
  · next w hr => exact absurd hr (hw w)
  · exact h

theorem storesNext_of_none {t : Task α} (hc : t.client = none) : t.StoresNext := by
  intro c h
  cases hc.symm.trans h

theorem StoresNext.aligned {t : Task α} (h : t.StoresNext) (hw : ∀ w, t.wait ≠ .reply w) :
    t.Aligned := by
  unfold Aligned
  split
  · next w hr => exact absurd hr (hw w)
  · exact h

/-- What is written on the way to what is next continues from a number, and the task stays
aligned. -/
structure Keeps (x : Entry) (a : Option Nat) (n : Next α) : Prop where
  aligned : n.task.Aligned
  continues : Continues x a ((sends n.effects).map .write) n.task.number?

variable {x : Entry} {a : Option Nat} {t : Task α}

theorem Keeps.after {n : Next α} {es : List (Effect α)} (h : Keeps x a n) (hes : sends es = []) :
    Keeps x a (n.after es) := by
  refine ⟨h.aligned, ?_⟩
  rw [Next.after, sends_append, hes, List.nil_append]
  exact h.continues

/-- The requests in front of those written later. -/
theorem Keeps.afterRequests {n : Next α} {es : List (Effect α)} {first k : Nat}
    (h : Keeps x (some (first + k)) n) (hes : sends es = requests x first k) :
    Keeps x (some first) (n.after es) := by
  refine ⟨h.aligned, ?_⟩
  rw [Next.after, sends_append, hes, List.map_append]
  exact (Continues.of_requests x first k).append h.continues

theorem Keeps.left {n : Next α} (hc : n.task.client = none) (hw : ∀ w, n.task.wait ≠ .reply w)
    (hes : sends n.effects = []) : Keeps x a n := by
  refine ⟨(storesNext_of_none hc).aligned hw, ?_⟩
  rw [hes, number?, hc]
  exact .leaves a

theorem shutdown_keeps (t : Task α) (e : Ending) : Keeps x a (t.shutdown e) := by
  obtain ⟨hc, hends⟩ := shutdown_over t e
  refine .left hc (fun w hw => ?_) (sends_of_quiet fun y hy => (shutdown_parting t e y hy).quiet)
  obtain ⟨how, h⟩ | ⟨how, h⟩ := hends
  · cases h.symm.trans hw
  · cases h.symm.trans hw

variable [Quantity α]

theorem pause_keeps (h : t.StoresNext) (now : α) (delay : TimeLimit α) :
    Keeps x t.number? (t.pause now delay) := by
  obtain ⟨how, hshut⟩ | ⟨-, d, hpause⟩ := t.pause_cases now delay
  · rw [hshut]
    exact shutdown_keeps t how
  · rw [hpause]
    exact ⟨h, .done _⟩

theorem failConnect_keeps (h : t.StoresNext) (now : α) : Keeps x t.number? (t.failConnect now) :=
  (pause_keeps (t := { t.countFailure with stage := .backoff }) h now _).after rfl

theorem connect_keeps (h : t.StoresNext) (now : α) : Keeps x t.number? (t.connect now) := by
  unfold connect
  dsimp only
  split
  · exact failConnect_keeps (t := { t with stage := .connecting }) h now
  · split
    · exact shutdown_keeps _ _
    · exact ⟨h, .done _⟩

theorem afterClose_keeps (h : t.StoresNext) (now : α) (next : AfterClose)
    (f : Option FleetProbe.Fault) : Keeps x t.number? (t.afterClose now next f) := by
  unfold afterClose
  split
  · exact pause_keeps (t := { t with stage := .backoff }) h now _
  · exact ⟨h, .done _⟩
  · exact shutdown_keeps t _

theorem settle_keeps (t : Task α) (now : α) {first : Nat} {o : Outcome α}
    (ho : InStep x first o) : Keeps x (some first) (t.settle now o) := by
  obtain ⟨k, hsent, hnext⟩ := ho.sent
  have hclient (hf : ∀ f, o.progress ≠ .failed f) :
      some (first + k) = (some o.client).map Client.next := congrArg some (hnext hf).symm
  unfold settle
  refine Keeps.afterRequests (k := k) ?_ hsent
  split
  · next w hw =>
    rw [hclient (by simp [hw])]
    refine ⟨?_, .done _⟩
    rintro c ⟨⟩
    exact ho.waits w hw
  · next hover =>
    rw [hclient (by simp [hover])]
    refine pause_keeps (t := { t with client := some o.client, probes := t.probes + 1 }) ?_ now _
    rintro c ⟨⟩
    exact ho.ended hover
  · split
    · exact shutdown_keeps _ _
    · exact .left rfl (by simp) rfl

theorem turn_keeps (h : t.StoresNext) (hs : t.config.payload.Spells x)
    (htime : t.config.timeout.isOver = false) (now : α) : Keeps x t.number? (t.turn now) := by
  unfold turn
  split
  · exact shutdown_keeps t _
  · split
    · exact connect_keeps h now
    · next c hc =>
      rw [number?, hc]
      exact settle_keeps t now (begin_inStep (s := t.setup) hs htime now (h c hc))

/-- What shows of a task at a step. -/
def marks (t : Task α) (now : α) (e : Event) : List Mark :=
  (t.gains e).map (fun _ => .gain) ++ (sends (t.step now e).effects).map .write

/-- All that shows of a task in a run. -/
def transcript (t : Task α) : List (α × Event) → List Mark
  | [] => []
  | (now, e) :: events => t.marks now e ++ (t.step now e).task.transcript events

theorem transcript_append (t : Task α) (before after : List (α × Event)) :
    t.transcript (before ++ after) =
      t.transcript before ++ (t.run before).task.transcript after := by
  induction before generalizing t with
  | nil => rfl
  | cons y before ih =>
    rw [List.cons_append, transcript, transcript, ih, List.append_assoc]
    rfl

/-- No connection is obtained where no round begins. -/
theorem gains_of_round? {now : α} {e : Event} (h : t.round? now e = none) : t.gains e = [] := by
  unfold gains
  split
  · next d hw => simp [round?, hw] at h
  · rfl

theorem course_keeps (h : t.Aligned) (hs : t.config.payload.Spells x)
    (htime : t.config.timeout.isOver = false) {now : α} {e : Event} {n : Next α}
    (hn : Course t now e n) : Keeps x t.number? n := by
  have hstores {w : Wait α} (hw : t.wait = w) (hne : ∀ v, w ≠ .reply v) : t.StoresNext :=
    h.storesNext fun v hv => hne v (hw.symm.trans hv)
  have hwait {w : Waiting α} {c : Client} (hw : t.wait = .reply w) (hc : t.client = some c) :
      w.phase.Follows c.next ∧ t.number? = some c.next := by
    rw [Aligned, hw] at h
    exact ⟨h c hc, by rw [number?, hc]; rfl⟩
  cases hn with
  | idle => exact ⟨h, .done _⟩
  | asked => exact ⟨h, .done _⟩
  | @noted e c change hc hw =>
    have hodd := h.storesNext hw c hc
    have hnumber : t.number? = some c.next := by rw [number?, hc]; rfl
    rw [hnumber]
    refine ⟨StoresNext.aligned ?_ hw, .done _⟩
    rintro d ⟨⟩
    exact hodd
  | @resumes e w c change hw hc =>
    obtain ⟨hfollows, hnumber⟩ := hwait hw hc
    rw [hnumber]
    exact settle_keeps t now
      (resume_inStep (s := t.setup) (c := { c with link := change c.link }) hs htime now hfollows)
  | @expires w c hw hc =>
    obtain ⟨hfollows, hnumber⟩ := hwait hw hc
    rw [hnumber]
    exact settle_keeps t now (expire_inStep (s := t.setup) hs htime now hfollows)
  | refused e es hw hes =>
    exact (failConnect_keeps (hstores hw (by simp)) now).after
      (sends_of_quiet fun y hy => (hes y hy).quiet)
  | closed f hw => exact afterClose_keeps (hstores hw (by simp)) now _ f
  | shut e how es hes =>
    exact (shutdown_keeps t how).after (sends_of_quiet fun y hy => (hes y hy).quiet)
  | unbegun hw => exact ⟨hstores hw (by simp), .done _⟩

/-- A step writes the requests that are next, and leaves the task aligned. -/
theorem step_continues (h : t.Aligned) (hs : t.config.payload.Spells x)
    (htime : t.config.timeout.isOver = false) (now : α) (e : Event) :
    (t.step now e).task.Aligned ∧
      Continues x t.number? (t.marks now e) (t.step now e).task.number? := by
  cases hu : t.round? now e with
  | none =>
    have hkeeps := course_keeps h hs htime (step_course hu)
    refine ⟨hkeeps.aligned, ?_⟩
    rw [marks, gains_of_round? hu]
    exact hkeeps.continues
  | some u =>
    obtain ⟨es, hquiet, -, hstep⟩ := step_of_round? hu
    have hturn (hstores : u.StoresNext) (hconfig : u.config = t.config) :
        Keeps x u.number? (t.step now e) := by
      rw [hstep]
      exact (turn_keeps hstores (hconfig ▸ hs) (hconfig ▸ htime) now).after (sends_of_quiet hquiet)
    obtain ⟨rfl, hw, rfl⟩ | ⟨rfl, ⟨d, hw⟩, rfl⟩ | ⟨rfl, ⟨d, hw, -⟩, rfl⟩ | ⟨rfl, ⟨d, hw⟩, rfl⟩ :=
      round?_eq_some hu
    · have hkeeps := hturn (h.storesNext (by simp [hw])) rfl
      exact ⟨hkeeps.aligned, hkeeps.continues⟩
    · -- The first number of the new connection is a store.
      have hkeeps := hturn (by rintro c ⟨⟩; rfl) rfl
      refine ⟨hkeeps.aligned, ?_⟩
      simp only [marks, gains, hw]
      exact .gain hkeeps.continues
    · have hkeeps := hturn (h.storesNext (by simp [hw])) rfl
      exact ⟨hkeeps.aligned, hkeeps.continues⟩
    · have hkeeps := hturn (h.storesNext (t := t) (by simp [hw])) rfl
      exact ⟨hkeeps.aligned, hkeeps.continues⟩

theorem run_continues (h : t.Aligned) (hs : t.config.payload.Spells x)
    (htime : t.config.timeout.isOver = false) (events : List (α × Event)) :
    (t.run events).task.Aligned ∧
      Continues x t.number? (t.transcript events) (t.run events).task.number? := by
  induction events generalizing t with
  | nil => exact ⟨h, .done _⟩
  | cons y events ih =>
    obtain ⟨haligned, hstep⟩ := step_continues h hs htime y.1 y.2
    obtain ⟨-, -, hconfig⟩ := step_same t y.1 y.2
    obtain ⟨hrun, hrest⟩ := ih haligned (hconfig ▸ hs) (hconfig ▸ htime)
    exact ⟨hrun, hstep.append hrest⟩

theorem run_config (t : Task α) (events : List (α × Event)) :
    (t.run events).task.config = t.config :=
  (run_same t events).2.2

/-- The probe that is under way at an event, or begins with it, ends there without having been
completed. -/
structure Raises (t : Task α) (now : α) (e : Event) : Prop where
  probes : t.wait.underWay? = some .probe ∨ t.starts? now e = some .probe
  ends : (t.step now e).task.wait.underWay? ≠ some .probe
  uncounted : (t.step now e).task.probes = t.probes

/-- A probe that is neither completed nor under way takes the connection with it. -/
theorem settle_drops {now : α} {o : Outcome α}
    (hends : (t.settle now o).task.wait.underWay? ≠ some .probe)
    (hprobes : (t.settle now o).task.probes = t.probes) : (t.settle now o).task.client = none := by
  unfold settle at hends hprobes ⊢
  dsimp only [Next.after] at hends hprobes ⊢
  cases hp : o.progress with
  | waiting w =>
    rw [hp] at hends
    exact absurd rfl hends
  | finished =>
    rw [hp] at hprobes
    have hcount : ({ t with client := some o.client, probes := t.probes + 1 }.pause now
        t.config.interval).task.probes = t.probes + 1 := by
      obtain ⟨how, hshut⟩ | ⟨-, d, hpause⟩ := pause_cases
        { t with client := some o.client, probes := t.probes + 1 } now t.config.interval
      · rw [hshut]
        exact (shutdown_counts _ _).1
      · rw [hpause]
    exact absurd (hcount.symm.trans hprobes) (by omega)
  | failed f =>
    dsimp only
    split
    · exact (shutdown_over _ _).client
    · rfl

theorem Raises.drops {now : α} {e : Event} (h : t.Raises now e) :
    (t.step now e).task.client = none := by
  obtain ⟨hprobe, hends, hcount⟩ := h
  obtain hunder | hstarts := hprobe
  · obtain ⟨w, hw⟩ : ∃ w, t.wait = .reply w := by
      cases hw : t.wait with
      | reply w => exact ⟨w, rfl⟩
      | start | opening | pause | closing | ended => simp [hw, Wait.underWay?] at hunder
    have hgoes : t.round? now e = none := round?_of_reply hw
    have hcourse := step_course hgoes
    generalize t.step now e = n at hcourse hends hcount ⊢
    cases hcourse with
    | idle => exact absurd hunder hends
    | asked => exact absurd hunder hends
    | noted e change hc hne => exact absurd hw (hne w)
    | resumes => exact settle_drops hends hcount
    | expires => exact settle_drops hends hcount
    | refused e es hopening => cases hw.symm.trans hopening
    | closed f hclosing => cases hw.symm.trans hclosing
    | shut e how => exact (shutdown_over t how).client
    | unbegun hstart => cases hw.symm.trans hstart
  · obtain ⟨u, hu, hstarts⟩ := Option.bind_eq_some_iff.mp hstarts
    obtain ⟨es, -, -, hstep⟩ := step_of_round? hu
    have hsame := (counts_of_round? hu).1
    rw [hstep] at hends hcount ⊢
    unfold turn at hends hcount ⊢
    cases hstop : u.stopRequested with
    | true => simp [hstop] at hstarts
    | false =>
      cases hc : u.client with
      | none => simp [hstop, hc] at hstarts
      | some c =>
        simp only [hstop, hc, Bool.false_eq_true, if_false] at hends hcount ⊢
        exact settle_drops hends (hcount.trans hsame.symm)

/-- What is written on the connections of a task in a run. -/
structure InTurn (x : Entry) (t : Task α) (events : List (α × Event)) : Prop where
  /-- Nothing is written without a connection, and on each of them stand the requests from the
  first on, whole. -/
  whole : ∃ lines, Mark.written (t.transcript events) = [] :: lines ∧ ∀ line ∈ lines,
    line = requests x 1 line.length ∧
      Request.split line.flatten = some ((List.range' 1 line.length).map x.request)
  /-- From a probe that raises on, what was written is not added to. -/
  silent : ∀ before now e after, events = before ++ (now, e) :: after →
    (t.run before).task.Raises now e →
    Mark.written (t.transcript (before ++ [(now, e)])) <+: Mark.written (t.transcript events)

/-- **Stores and reads alternate on every connection.** As long as commands have some time, and the
key, the value and the time to live can be written, what a task writes on each connection are whole
requests: a store under every odd number and a read under every even one, counted from one. After a
probe that raises nothing more is written on its connection. -/
theorem run_inTurn (id : Nat) (node : Catalog.Node) (config : Config α)
    (hwritable : config.payload.Writable) (htime : config.timeout.isOver = false)
    (events : List (α × Event)) :
    ∃ x, config.payload.Spells x ∧ InTurn x (fresh id node config) events := by
  obtain ⟨x, hx⟩ := hwritable.spells
  have hall (es : List (α × Event)) := run_continues (t := fresh id node config)
    (storesNext_of_none rfl) hx htime es
  refine ⟨x, hx, ?_, ?_⟩
  · obtain ⟨n, lines, hwritten, hlines⟩ := (hall events).2.written
    refine ⟨lines, hwritten, fun line hline => ?_⟩
    obtain ⟨m, rfl⟩ := hlines line hline
    have hlength : (requests x 1 m).length = m := by simp [requests]
    rw [hlength]
    exact ⟨rfl, split_requests hx 1 m⟩
  · rintro before now e after rfl hraises
    have haligned := (hall (before ++ [(now, e)])).1
    have hconfig : ((fresh id node config).run (before ++ [(now, e)])).task.config = config :=
      run_config _ _
    have hnone : ((fresh id node config).run (before ++ [(now, e)])).task.client = none := by
      rw [run_append]
      exact hraises.drops
    have hwhole : before ++ (now, e) :: after = before ++ [(now, e)] ++ after := by simp
    rw [hwhole, transcript_append _ (before ++ [(now, e)])]
    generalize ((fresh id node config).run (before ++ [(now, e)])).task = u at *
    rw [← hconfig] at hx htime
    obtain ⟨-, hrest⟩ := run_continues haligned hx htime after
    rw [number?, hnone] at hrest
    obtain ⟨n, lines, hwritten, -⟩ := hrest.written
    rw [Mark.written_append hwritten]
    exact List.prefix_append _ _

/-- A node that answers nothing, and resets the connection during the second probe; then it is
connected to again. -/
def deaf : List (Rat × Event) :=
  opening ++ [(1, .tick), (2, .tick), (3, .tick), (3, .lost reset), (3, .closed none), (4, .tick),
    (4, .opened)]

theorem deaf_inTurn : Config.secondly.payload.Writable ∧ Config.secondly.timeout.isOver = false ∧
    ((fresh 0 .lone .secondly).run (deaf.take 5)).task.Raises 3 (.lost reset) ∧
    Mark.written ((fresh 0 .lone .secondly).transcript deaf) =
      [[], requests ⟨[], [], 0⟩ 1 3, requests ⟨[], [], 0⟩ 1 1] ∧
    ∃ x, Config.secondly.payload.Spells x ∧ InTurn x (fresh 0 .lone .secondly) deaf := by
  refine ⟨secondly_proper.writable, by decide +kernel, ⟨?_, ?_, ?_⟩, ?_, ?_⟩
  · exact .inl (by decide +kernel)
  · decide +kernel
  · decide +kernel
  · decide +kernel
  · exact run_inTurn 0 .lone .secondly secondly_proper.writable (by decide +kernel) deaf

end Task

end FleetProbe.Probe
