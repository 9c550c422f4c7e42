import FleetProbe.Client.Stream
import FleetProbe.Metrics.Basic
import FleetProbe.TimeLimit
import FleetProbe.Wire.Payload
/-!
One probe of a node: store a value, then read it back, each with a deadline. A command that is not
answered in time is counted as timed out, and the probe goes on; any other fault ends it.

`begin` starts a probe, `resume` goes on when something happened on the connection, `expire` when
the deadline of the command has passed.
-/

namespace FleetProbe

/-- What a probe does to the world around it. -/
inductive Effect (α : Type) where
  | connect
  /-- Gives up a connection that is still being opened. -/
  | abandon
  | send (bs : Bytes)
  | close
  | report (r : Metrics.Report α)
  /-- A probe of a node begins. -/
  | started
  | stopped
  | connectFailed
  | probeFailed
  | timedOut (command : String) (limit : TimeLimit α)
  deriving DecidableEq, Repr

namespace Exchange

variable {α : Type} [Quantity α]

/-- Status of a command without an answer in time. -/
def timeoutStatus : Text := "Timeout"

/-- What a probe needs to know. -/
structure Setup (α : Type) where
  target : Metrics.Target
  payload : Wire.Payload
  timeout : TimeLimit α
  deriving DecidableEq, Repr

/-- The two commands of a probe. -/
inductive Phase where
  | set
  | get
  deriving DecidableEq, Repr

namespace Phase

def command : Phase → String
  | set => "set"
  | get => "get"

end Phase

/-- A command that waits for its answer. -/
structure Waiting (α : Type) where
  phase : Phase
  serial : Nat
  started : α
  deadline : Option α
  deriving DecidableEq, Repr

/-- Why a probe fails. -/
inductive Fault where
  | client (f : Client.Fault)
  | command (f : Wire.CommandFault)
  | time (f : TimeLimitFault)
  deriving DecidableEq, Repr

/-- Where a probe stands. -/
inductive Progress (α : Type) where
  | waiting (w : Waiting α)
  | finished
  | failed (f : Fault)
  deriving DecidableEq, Repr

/-- A stand, the client, and the effects on the way there. -/
structure Outcome (α : Type) where
  progress : Progress α
  client : Client
  effects : List (Effect α)

namespace Outcome

/-- Puts effects in front. -/
def after (effects : List (Effect α)) (o : Outcome α) : Outcome α :=
  { o with effects := effects ++ o.effects }

end Outcome

/-- The command ran out of time. Where its limit is no number of seconds, the request is counted
without a time and the probe ends. -/
def timeOut (s : Setup α) (p : Phase) (c : Client) (next : Client → Outcome α) : Outcome α :=
  let said : Effect α := .timedOut p.command s.timeout
  match s.timeout.seconds with
  | .ok x => (next c).after [said, .report (.request s.target p.command timeoutStatus x)]
  | .error f =>
    ⟨.failed (.time f), c, [said, .report (.untimed s.target p.command timeoutStatus)]⟩

/-- Looks for the answer to a command; `next` goes on when the command is over. A connection lost
by a time-out looks like a command that ran out of time. -/
def answer (s : Setup α) (now : α) (w : Waiting α) (c : Client) (next : Client → Outcome α) :
    Outcome α :=
  match c.awaitReply w.serial with
  | (.pending, c) => ⟨.waiting w, c, []⟩
  | (.frame f, c) =>
    (next c).after [.report (.request s.target w.phase.command f.status (now - w.started))]
  | (.fault (.link f), c) =>
    if f.isDeadline then timeOut s w.phase c next
    else ⟨.failed (.client (.link f)), c, []⟩
  | (.fault f, c) => ⟨.failed (.client f), c, []⟩

/-- Sends a command and looks for its answer. With no time to wait nothing is sent. -/
def command (s : Setup α) (now : α) (p : Phase) (c : Client) (next : Client → Outcome α) :
    Outcome α :=
  let (serial, c) := c.takeSerial
  let built := match p with
    | .set => s.payload.set serial
    | .get => s.payload.get serial
  match built with
  | .error f => ⟨.failed (.command f), c, []⟩
  | .ok command =>
    if s.timeout.isOver then timeOut s p c next
    else
      match s.timeout.deadline now, command.encode with
      | .error f, _ => ⟨.failed (.time f), c, []⟩
      | _, .error f => ⟨.failed (.command f), c, []⟩
      | .ok deadline, .ok bs =>
        let w : Waiting α := ⟨p, serial, now, deadline⟩
        match c.link.writeFault with
        | some f =>
          if f.isDeadline then (timeOut s p c next).after [.send bs]
          else ⟨.failed (.client (.link f)), c, [.send bs]⟩
        | none => (answer s now w c next).after [.send bs]

def finish (c : Client) : Outcome α := ⟨.finished, c, []⟩

/-- Reads the key back. -/
def beginGet (s : Setup α) (now : α) (c : Client) : Outcome α := command s now .get c finish

/-- Starts a probe. -/
def begin (s : Setup α) (now : α) (c : Client) : Outcome α :=
  command s now .set c (beginGet s now)

/-- What follows a command. -/
def following (s : Setup α) (now : α) : Phase → Client → Outcome α
  | .set => beginGet s now
  | .get => finish

/-- Goes on after the connection changed. -/
def resume (s : Setup α) (now : α) (w : Waiting α) (c : Client) : Outcome α :=
  answer s now w c (following s now w.phase)

/-- Goes on after the deadline of a command. -/
def expire (s : Setup α) (now : α) (w : Waiting α) (c : Client) : Outcome α :=
  timeOut s w.phase c (following s now w.phase)

end Exchange

end FleetProbe
