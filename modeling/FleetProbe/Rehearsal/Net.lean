import FleetProbe.Probe.Task
import FleetProbe.Rehearsal.Peer
/-!
The network of a rehearsal: connections to scripted peers, what they will do and when, and a record
of what went over each of them.
-/

namespace FleetProbe.Rehearsal

/-- What a record of a connection shows. -/
inductive Trace where
  | connect
  | request (bs : Bytes)
  | closed
  | reset

namespace Trace

def name : Trace → String
  | connect => "connect"
  | request _ => "request"
  | closed => "closed"
  | reset => "reset"

end Trace

structure TraceEntry where
  address : Text
  instant : Float
  trace : Trace

/-- What will happen to a connection. -/
inductive Happening where
  | opens
  | fails (f : Fault)
  /-- Closing is over. -/
  | closed
  /-- An action set off by a request with this code and serial. -/
  | deed (d : Deed) (opcode serial : Nat)

structure Due where
  instant : Float
  connection : Nat
  happening : Happening

structure Connection where
  address : Text
  script : ConnectionScript
  requests : Nat := 0
  /-- The peer ended its stream. -/
  finished : Bool := false
  /-- Closed or reset. -/
  gone : Bool := false

structure Net where
  scripts : NodeScripts
  connections : List Connection := []
  agenda : List Due := []
  /-- Records since the last report, in order. -/
  traces : List TraceEntry := []

/-- Events that a rehearsal handles between two of its steps. -/
def patience : Nat := 1000000

namespace Net

/-- Puts something on the agenda behind all that is due no later. -/
def insert (d : Due) : List Due → List Due
  | [] => [d]
  | e :: rest => if d.instant < e.instant then d :: e :: rest else e :: insert d rest

def schedule (n : Net) (d : Due) : Net := { n with agenda := insert d n.agenda }

def record (n : Net) (address : Text) (now : Float) (t : Trace) : Net :=
  { n with traces := n.traces ++ [⟨address, now, t⟩] }

def update (n : Net) (id : Nat) (change : Connection → Connection) : Net :=
  { n with connections := n.connections.modify id change }

/-- Puts actions on the agenda. -/
def setOff (n : Net) (now : Float) (id : Nat) (actions : List Action) (opcode serial : Nat) : Net :=
  actions.foldl (fun n a => n.schedule ⟨now + a.after, id, .deed a.deed opcode serial⟩) n

/-- Begins to open a connection. -/
def connect (n : Net) (now : Float) (address : Text) : Nat × Net :=
  let attempts := (n.connections.filter fun c => c.address == address).length
  let script := n.scripts.script address attempts
  let id := n.connections.length
  let c : Connection := { address, script }
  let n := { n with connections := n.connections ++ [c] }
  let n := n.record address now .connect
  match script.opening with
  | .opens => (id, n.schedule ⟨now + script.delay, id, .opens⟩)
  | .hangs => (id, n)
  | .fails f => (id, n.schedule ⟨now + script.delay, id, .fails f⟩)

/-- Nothing more happens to a connection. -/
def forget (n : Net) (id : Nat) : Net :=
  let n := n.update id fun c => { c with gone := true }
  { n with agenda := n.agenda.filter fun d => d.connection != id }

/-- Gives up a connection that is not open yet. -/
def abandon (n : Net) (id : Nat) : Net := n.forget id

/-- Sends a request; the peer answers as its script says unless the connection is gone. -/
def send (n : Net) (now : Float) (id : Nat) (bs : Bytes) : Net :=
  match n.connections[id]? with
  | none => n
  | some c =>
    let n := (n.record c.address now (.request bs)).update id fun c =>
      { c with requests := c.requests + 1 }
    if c.gone then n
    else
      let field (first width : Nat) := Bytes.toNat ((bs.drop first).take width)
      n.setOff now id (c.script.reply c.requests) (field 1 1) (field 12 4)

/-- Closes a connection; a reset one is closed already. -/
def close (n : Net) (now : Float) (id : Nat) : Net :=
  match n.connections[id]? with
  | none => n
  | some c =>
    let n := if c.gone then n else n.record c.address now .closed
    (n.forget id).schedule ⟨now, id, .closed⟩

/-- When something happens next. -/
def next? (n : Net) : Option Float := n.agenda.head?.map (·.instant)

/-- Lets a peer act. -/
def act (n : Net) (now : Float) (id : Nat) (c : Connection) (d : Deed) (opcode serial : Nat) :
    Option Probe.Event × Net :=
  match d with
  | .finish => (if c.finished then none else some .finished,
      n.update id fun c => { c with finished := true })
  | .reset f => (some (.lost f), (n.forget id).record c.address now .reset)
  | .send bs => (if c.finished then none else some (.arrived bs), n)
  | .answer s => (if c.finished then none else some (.arrived (s.bytes opcode serial)), n)

/-- Takes what is due first: the connection, and what it means to the near end. -/
def pop (n : Net) : Option (Nat × Option Probe.Event × Net) :=
  match n.agenda with
  | [] => none
  | d :: rest =>
    let n := { n with agenda := rest }
    match n.connections[d.connection]? with
    | none => some (d.connection, none, n)
    | some c =>
      match d.happening with
      | .opens =>
        some (d.connection, some .opened, n.setOff d.instant d.connection c.script.greeting 0 0)
      | .fails f => some (d.connection, some (.refused f), n)
      | .closed => some (d.connection, some (.closed none), n)
      | .deed deed opcode serial =>
        let (e, n) := n.act d.instant d.connection c deed opcode serial
        some (d.connection, e, n)

end Net

end FleetProbe.Rehearsal
