import FleetProbe.Catalog.Node
import FleetProbe.Client.Exchange
/-!
The life of the probe of one node: connect, probe at a fixed interval, connect again some time
after any failure, and take the node's series away once stopped, unless a newer probe of the node
has claimed them.

A task waits for one thing at a time, and `step` says what an event makes of it. Whether to stop is
looked at in one place only, `turn`, so what is under way when the stop comes is completed; a pause
alone ends at once.
-/

namespace FleetProbe.Probe

structure Config (α : Type) where
  /-- Pause between two probes. -/
  interval : TimeLimit α
  /-- Time that a command has for its answer. -/
  timeout : TimeLimit α
  /-- Time that opening a connection may take. -/
  connectTimeout : TimeLimit α
  /-- Pause before a new connection after a failure. -/
  backoff : TimeLimit α
  payload : Wire.Payload
  deriving DecidableEq, Repr

inductive Stage where
  | connecting
  | probing
  | backoff
  | stopped
  deriving DecidableEq, Repr

namespace Stage

def name : Stage → String
  | connecting => "connecting"
  | probing => "probing"
  | backoff => "backoff"
  | stopped => "stopped"

end Stage

/-- What a task does not survive. -/
inductive Crash where
  | fault (f : Fault)
  | command (f : Wire.CommandFault)
  | time (f : TimeLimitFault)
  deriving DecidableEq, Repr

inductive Ending where
  | returned
  | cancelled
  | crashed (c : Crash)
  deriving DecidableEq, Repr

/-- What comes after a connection is closed. -/
inductive AfterClose where
  | backoff
  | ending (e : Ending)
  deriving DecidableEq, Repr

/-- What a task waits for. -/
inductive Wait (α : Type) where
  /-- The task has not run yet. -/
  | start
  | opening (deadline : Option α)
  | reply (w : Exchange.Waiting α)
  | pause (deadline : Option α)
  | closing (next : AfterClose)
  | ended (e : Ending)
  deriving DecidableEq, Repr

inductive Event where
  /-- The task runs for the first time. -/
  | run
  | opened
  | refused (f : Fault)
  | arrived (bs : Bytes)
  /-- The peer ended its stream. -/
  | finished
  | lost (f : Fault)
  /-- Closing is over, perhaps with a fault. -/
  | closed (f : Option Fault)
  /-- Time has passed. -/
  | tick
  | stop
  | cancel
  deriving DecidableEq, Repr

structure Task (α : Type) where
  /-- Identity of the task among all that claim nodes. -/
  id : Nat
  node : Catalog.Node
  config : Config α
  stage : Stage := .connecting
  probes : Nat := 0
  failures : Nat := 0
  stopRequested : Bool := false
  client : Option Client := none
  wait : Wait α := .start
  deriving DecidableEq, Repr

namespace Task

variable {α : Type} [Quantity α]

def target (t : Task α) : Metrics.Target := ⟨t.node.service, t.node.socket⟩

def setup (t : Task α) : Exchange.Setup α := ⟨t.target, t.config.payload, t.config.timeout⟩

def ending? (t : Task α) : Option Ending :=
  match t.wait with
  | .ended e => some e
  | _ => none

/-- When time alone will move the task on. -/
def deadline? (t : Task α) : Option α :=
  match t.wait with
  | .opening d => d
  | .reply w => w.deadline
  | .pause d => d
  | _ => none

/-- A task and the effects of what it just did. -/
structure Next (α : Type) where
  task : Task α
  effects : List (Effect α)
  deriving DecidableEq, Repr

/-- Puts effects in front. -/
def Next.after (effects : List (Effect α)) (n : Next α) : Next α :=
  { n with effects := effects ++ n.effects }

/-- Gives the node up and ends. -/
def finish (t : Task α) (e : Ending) : Next α :=
  ⟨{ t with wait := .ended e }, [.report (.release t.target t.id), .stopped]⟩

/-- Closes the connection, if there is one, before the end. -/
def shutdown (t : Task α) (e : Ending) : Next α :=
  let t := { t with stage := .stopped }
  match t.client with
  | none => t.finish e
  | some _ => ⟨{ t with client := none, wait := .closing (.ending e) }, [.close]⟩

/-- Waits a while, but not when asked to stop. -/
def pause (t : Task α) (now : α) (delay : TimeLimit α) : Next α :=
  match delay.deadline now with
  | .error f => t.shutdown (.crashed (.time f))
  | .ok d => if t.stopRequested then t.shutdown .returned else ⟨{ t with wait := .pause d }, []⟩

def backOff (t : Task α) (now : α) : Next α :=
  { t with stage := .backoff }.pause now t.config.backoff

def countFailure (t : Task α) : Task α := { t with failures := t.failures + 1 }

def failConnect (t : Task α) (now : α) : Next α :=
  (t.countFailure.backOff now).after [.connectFailed, .report (.failure t.target)]

/-- Opens a connection. With no time for it, it has failed already. -/
def connect (t : Task α) (now : α) : Next α :=
  let t := { t with stage := .connecting }
  if t.config.connectTimeout.isOver then t.failConnect now
  else
    match t.config.connectTimeout.deadline now with
    | .error f => t.shutdown (.crashed (.time f))
    | .ok d => ⟨{ t with wait := .opening d }, [.connect]⟩

/-- Faults of a probe that a new connection may mend; the others end the task. -/
def crash? : Exchange.Fault → Option Crash
  | .client (.link f) => if f.isSystem then none else some (.fault f)
  | .client _ => none
  | .command f => some (.command f)
  | .time f => some (.time f)

/-- Takes over where a probe stands. -/
def settle (t : Task α) (now : α) (o : Exchange.Outcome α) : Next α :=
  let t := { t with client := some o.client }
  let next : Next α :=
    match o.progress with
    | .waiting w => ⟨{ t with wait := .reply w }, []⟩
    | .finished => { t with probes := t.probes + 1 }.pause now t.config.interval
    | .failed f =>
      match crash? f with
      | some c => t.shutdown (.crashed c)
      | none =>
        ⟨{ t.countFailure with client := none, wait := .closing .backoff },
          [.probeFailed, .report (.failure t.target), .close]⟩
  next.after o.effects

/-- The start of a round: stop, connect, or probe. -/
def turn (t : Task α) (now : α) : Next α :=
  if t.stopRequested then t.shutdown .returned
  else
    match t.client with
    | none => t.connect now
    | some c => t.settle now (Exchange.begin t.setup now c)

/-- Something changed on the connection. -/
def touch (t : Task α) (now : α) (change : Link → Link) : Next α :=
  match t.client with
  | none => ⟨t, []⟩
  | some c =>
    let c := { c with link := change c.link }
    match t.wait with
    | .reply w => t.settle now (Exchange.resume t.setup now w c)
    | _ => ⟨{ t with client := some c }, []⟩

/-- A deadline has passed. -/
def expire (t : Task α) (now : α) : Next α :=
  match t.wait with
  | .opening d => if d.any (· ≤ now) then (t.failConnect now).after [.abandon] else ⟨t, []⟩
  | .reply w =>
    if w.deadline.any (· ≤ now) then
      match t.client with
      | some c => t.settle now (Exchange.expire t.setup now w c)
      | none => ⟨t, []⟩
    else ⟨t, []⟩
  | .pause d => if d.any (· ≤ now) then t.turn now else ⟨t, []⟩
  | _ => ⟨t, []⟩

/-- Goes on after closing. Only conditions of the connection are passed over. -/
def afterClose (t : Task α) (now : α) (next : AfterClose) (f : Option Fault) : Next α :=
  match f.filter fun f => !f.isSystem, next with
  | none, .backoff => t.backOff now
  | none, .ending e => t.finish e
  | some f, _ => t.shutdown (.crashed (.fault f))

def cancel (t : Task α) : Next α :=
  match t.wait with
  | .start => ⟨{ t with wait := .ended .cancelled }, []⟩
  | .opening _ => (t.shutdown .cancelled).after [.abandon]
  | .ended _ => ⟨t, []⟩
  | _ => t.shutdown .cancelled

def step (t : Task α) (now : α) : Event → Next α
  | .run =>
    match t.wait with
    | .start => (t.turn now).after [.started, .report (.claim t.target t.id)]
    | _ => ⟨t, []⟩
  | .opened =>
    match t.wait with
    | .opening _ => { t with client := some {}, stage := .probing }.turn now
    | _ => ⟨t, []⟩
  | .refused f =>
    match t.wait with
    | .opening _ => if f.isSystem then t.failConnect now else t.shutdown (.crashed (.fault f))
    | _ => ⟨t, []⟩
  | .arrived bs => t.touch now (·.receive bs)
  | .finished => t.touch now Link.finish
  | .lost f => t.touch now (·.lose f)
  | .closed f =>
    match t.wait with
    | .closing next => t.afterClose now next f
    | _ => ⟨t, []⟩
  | .tick => t.expire now
  | .stop =>
    let t := { t with stopRequested := true }
    match t.wait with
    | .pause _ => t.turn now
    | _ => ⟨t, []⟩
  | .cancel => t.cancel

end Task

end FleetProbe.Probe
