import FleetProbe.Probe.Crew
import FleetProbe.Rehearsal.Wiring
/-!
Probe tasks in virtual time, on a network of scripted peers. The clock jumps from one thing that is
due to the next: what the network has for a task, or a deadline that a task waits for.
-/

namespace FleetProbe.Rehearsal

structure World where
  now : Float := 0
  wiring : Wiring
  crew : Probe.Crew Float := { metrics := { bounds := Metrics.standardBounds } }

namespace World

/-- Lets an event happen to a task. -/
def deliver (w : World) (task : Nat) (e : Probe.Event) : World :=
  match w.crew.tasks[task]? with
  | none => w
  | some t =>
    let (crew, effects) := w.crew.deliver w.now task e
    { w with crew, wiring := effects.foldl (Wiring.perform w.now task t.node.socket) w.wiring }

/-- Starts a task, with its stop asked for or not. -/
def spawn (w : World) (node : Catalog.Node) (config : Probe.Config Float) (stopped : Bool) :
    Nat × World :=
  (w.crew.tasks.length, { w with crew := w.crew.spawn node config stopped })

/-- What comes next: something of the network, or what time does to a task. -/
def due? (w : World) : Option (Float × Option (Nat × Probe.Event)) :=
  w.crew.tasks.foldl
    (fun best t => sooner best ((Probe.Crew.due? t w.now).map fun (d, e) => (d, some (t.id, e))))
    (w.wiring.net.next?.map fun d => (d, none))

/-- Handles what comes next. -/
def handle (w : World) : Option (Nat × Probe.Event) → World
  | some (task, e) => w.deliver task e
  | none =>
    let (event, wiring) := w.wiring.pop
    let w := { w with wiring }
    match event with
    | some (task, e) => w.deliver task e
    | none => w

/-- Lets everything happen whose instant is near; `fuel` bounds what happens meanwhile. -/
def pass (near : Float → Bool) : (fuel : Nat) → World → World
  | 0, w => w
  | fuel + 1, w =>
    match w.due? with
    | none => w
    | some (d, what) =>
      if near d then
        pass near fuel ({ w with now := if w.now < d then d else w.now }.handle what)
      else w

/-- Sleeps until an instant, if it is still to come. Who sleeps goes before what is due when the
sleep ends. -/
def sleepUntil (w : World) (instant : Float) : World :=
  let limit := wakeUp w.now instant
  { pass (· < limit) patience w with now := limit }

/-- Lets everything happen that is due now. -/
def settle (w : World) : World := pass (· ≤ w.now) patience w

end World

end FleetProbe.Rehearsal
