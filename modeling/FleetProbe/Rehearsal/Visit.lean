import FleetProbe.Probe.Notice
import FleetProbe.Rehearsal.Net
/-!
A client that visits one node by hand in virtual time: it connects, probes, sleeps and closes, one
after the other.
-/

namespace FleetProbe.Rehearsal

structure Visit where
  /-- The node that is visited. -/
  node : Catalog.Node
  now : Float := 0
  net : Net
  metrics : Metrics Float := { bounds := Metrics.standardBounds }
  notices : List Notice := []
  /-- The connection in use. -/
  current : Option (Nat × Client) := none

namespace Visit

/-- Why a call on the client fails. -/
inductive Fault where
  /-- Opening the connection took too long. -/
  | expired
  | connect (f : FleetProbe.Fault)
  | probe (f : Exchange.Fault)
  | time (f : TimeLimitFault)

/-- What an event does to the link of a client. -/
def change : Probe.Event → Link → Link
  | .arrived bs, l => l.receive bs
  | .finished, l => l.finish
  | .lost f, l => l.lose f
  | _, l => l

/-- Lets the next thing happen if it is due; says what it was. -/
def next? (v : Visit) (limit : Float) : Option (Nat × Option Probe.Event × Visit) :=
  match v.net.next? with
  | none => none
  | some instant =>
    if instant ≤ limit then
      v.net.pop.map fun (id, event, net) =>
        let current := match v.current, event with
          | some (own, c), some e =>
            some (own, if own = id then { c with link := change e c.link } else c)
          | current, _ => current
        (id, event, { v with net, current, now := if v.now < instant then instant else v.now })
    else none

/-- Lets time pass; `fuel` bounds what happens meanwhile. -/
def passUntil : (fuel : Nat) → Float → Visit → Visit
  | 0, _, v => v
  | fuel + 1, limit, v =>
    match v.next? limit with
    | some (_, _, v) => passUntil fuel limit v
    | none => { v with now := limit }

def sleep (v : Visit) (seconds : Float) : Visit := passUntil patience (v.now + seconds) v

/-- Lets everything happen that is due now. -/
def settle (v : Visit) : Visit := passUntil patience v.now v

/-- Waits for a connection to open. -/
def awaitOpen (id : Nat) (deadline : Float) : (fuel : Nat) → Visit → Except Fault Unit × Visit
  | 0, v => (.error .expired, v)
  | fuel + 1, v =>
    match v.next? deadline with
    | some (i, event, v) =>
      if i = id then
        match event with
        | some .opened => (.ok (), { v with current := some (id, {}) })
        | some (.refused f) => (.error (.connect f), v)
        | _ => awaitOpen id deadline fuel v
      else awaitOpen id deadline fuel v
    | none => (.error .expired, { v with now := deadline, net := v.net.abandon id })

/-- The instant that no wait goes beyond. -/
def endOfTime : Float := 1 / 0

/-- Opens a new connection, which takes the place of the one in use. -/
def connect (v : Visit) (timeout : TimeLimit Float) : Except Fault Unit × Visit :=
  if timeout.isOver then (.error .expired, v)
  else
    match timeout.deadline v.now with
    | .error f => (.error (.time f), v)
    | .ok deadline =>
      let (id, net) := v.net.connect v.now v.node.socket
      awaitOpen id (deadline.getD endOfTime) patience { v with net }

/-- Takes in what a client did. -/
def perform (id : Nat) (v : Visit) : Effect Float → Visit
  | .send bs => { v with net := v.net.send v.now id bs }
  | .report r => { v with metrics := v.metrics.apply r }
  | e => { v with notices := v.notices ++ (Probe.notice? e).toList }

/-- Follows a probe to its end. -/
def follow (s : Exchange.Setup Float) (id : Nat) :
    (fuel : Nat) → Visit → Exchange.Outcome Float → Except Fault Unit × Visit
  | 0, v, _ => (.ok (), v)
  | fuel + 1, v, o =>
    let v := o.effects.foldl (perform id) { v with current := some (id, o.client) }
    match o.progress with
    | .finished => (.ok (), v)
    | .failed f => (.error (.probe f), v)
    | .waiting w =>
      let deadline := w.deadline.getD endOfTime
      let (v, due) := match v.next? deadline with
        | some (_, _, v) => (v, false)
        | none => ({ v with now := deadline }, true)
      match v.current with
      | none => (.ok (), v)
      | some (_, c) =>
        follow s id fuel v
          (if due then Exchange.expire s v.now w c else Exchange.resume s v.now w c)

/-- A whole probe on the connection in use. -/
def probe (v : Visit) (cluster : Text) (payload : Wire.Payload) (timeout : TimeLimit Float) :
    Except Fault Unit × Visit :=
  match v.current with
  | none => (.ok (), v)
  | some (id, c) =>
    let s : Exchange.Setup Float := ⟨⟨cluster, v.node.socket⟩, payload, timeout⟩
    follow s id patience v (Exchange.begin s v.now c)

def close (v : Visit) : Visit :=
  match v.current with
  | none => v
  | some (id, c) =>
    { v with net := v.net.close v.now id, current := some (id, { c with link := c.link.close }) }

end Visit

end FleetProbe.Rehearsal
