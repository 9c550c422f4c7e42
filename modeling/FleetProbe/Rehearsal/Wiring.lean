import FleetProbe.Probe.Notice
import FleetProbe.Rehearsal.Net
/-!
Probe tasks wired to a network of scripted peers: which connection a task uses, and what the tasks
put on record.
-/

namespace FleetProbe.Rehearsal

structure Wiring where
  net : Net
  /-- The connection that each task opened last. -/
  links : List (Nat × Nat) := []
  /-- Lines since the last report, in order. -/
  notices : List Notice := []

namespace Wiring

/-- The connection that a task uses. -/
def link? (w : Wiring) (task : Nat) : Option Nat :=
  (w.links.find? fun e => e.1 == task).map Prod.snd

/-- The task that uses a connection. -/
def user? (w : Wiring) (connection : Nat) : Option Nat :=
  (w.links.find? fun e => e.2 == connection).map Prod.fst

/-- Carries out what a task does. -/
def perform (now : Float) (task : Nat) (address : Text) (w : Wiring) : Effect Float → Wiring
  | .connect =>
    let (connection, net) := w.net.connect now address
    { w with net, links := (task, connection) :: w.links.filter fun e => e.1 != task }
  | .abandon => { w with net := ((w.link? task).map w.net.abandon).getD w.net }
  | .send bs => { w with net := ((w.link? task).map fun c => w.net.send now c bs).getD w.net }
  | .close => { w with net := ((w.link? task).map fun c => w.net.close now c).getD w.net }
  | e => { w with notices := w.notices ++ (Probe.notice? e).toList }

/-- Takes what the network has next, with the task it is for. -/
def pop (w : Wiring) : Option (Nat × Probe.Event) × Wiring :=
  match w.net.pop with
  | none => (none, w)
  | some (connection, event, net) =>
    let w := { w with net }
    match w.user? connection, event with
    | some task, some e => (some (task, e), w)
    | _, _ => (none, w)

/-- Forgets what was reported. -/
def fresh (w : Wiring) : Wiring := { w with notices := [], net := { w.net with traces := [] } }

end Wiring

/-- The earlier of two instants with something that belongs to them; the first of equal ones. -/
def sooner {β : Type} : Option (Float × β) → Option (Float × β) → Option (Float × β)
  | some (a, x), some (b, y) => if b < a then some (b, y) else some (a, x)
  | none, y => y
  | x, none => x

/-- The instant that a sleep until another one ends at. -/
def wakeUp (now instant : Float) : Float :=
  let wait := instant - now
  if 0 < wait then now + wait else now

end FleetProbe.Rehearsal
