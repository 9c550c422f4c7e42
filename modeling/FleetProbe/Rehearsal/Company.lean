import FleetProbe.Rehearsal.World
/-!
Probe tasks of one node under names: a new task takes the name of an older one over.
-/

namespace FleetProbe.Rehearsal

structure Company where
  world : World
  node : Catalog.Node
  config : Probe.Config Float
  /-- The task under each name, the latest name first. -/
  names : List (Text × Nat) := []

namespace Company

/-- Starts a task under a name, with its stop asked for or not. -/
def start (c : Company) (name : Text) (stopped : Bool) : Company :=
  let (id, world) := c.world.spawn c.node c.config stopped
  { c with
    world := world.deliver id .run
    names := (name, id) :: c.names.filter (·.1 != name) }

/-- Lets an event happen to the task under a name. -/
def tell (c : Company) (name : Text) (e : Probe.Event) : Company :=
  match c.names.lookup name with
  | some id => { c with world := c.world.deliver id e }
  | none => c

/-- Sleeps until an instant and forgets what was reported. -/
def wake (c : Company) (instant : Float) : Company :=
  let w := { c.world with wiring := c.world.wiring.fresh }
  { c with world := w.sleepUntil instant }

def settle (c : Company) : Company := { c with world := c.world.settle }

/-- The tasks under their names. -/
def tasks (c : Company) : List (Text × Probe.Task Float) :=
  c.names.filterMap fun (name, id) => c.world.crew.tasks[id]?.map fun t => (name, t)

end Company

end FleetProbe.Rehearsal
