import FleetProbe.Probe.Task
/-!
All probe tasks that report to the same metrics.
-/

namespace FleetProbe.Probe

structure Crew (α : Type) where
  /-- All tasks ever created; the identity of a task is its place. -/
  tasks : List (Task α) := []
  metrics : Metrics α
  deriving Repr

namespace Crew

variable {α : Type} [Quantity α]

/-- Creates a task. -/
def spawn (c : Crew α) (node : Catalog.Node) (config : Config α) (stopRequested : Bool) : Crew α :=
  { c with tasks := c.tasks ++ [{ id := c.tasks.length, node, config, stopRequested }] }

/-- Takes a report in; other effects are not for the metrics. -/
def hear (m : Metrics α) : Effect α → Metrics α
  | .report r => m.apply r
  | _ => m

/-- Lets an event happen to a task. -/
def deliver (c : Crew α) (now : α) (task : Nat) (e : Event) : Crew α × List (Effect α) :=
  match c.tasks[task]? with
  | none => (c, [])
  | some t =>
    let next := t.step now e
    ({ tasks := c.tasks.set task next.task, metrics := next.effects.foldl hear c.metrics },
      next.effects)

def ending? (c : Crew α) (task : Nat) : Option Ending := (c.tasks[task]?).bind Task.ending?

/-- What time alone does to a task next: the first run of one that has not run, or a deadline. -/
def due? (t : Task α) (now : α) : Option (α × Event) :=
  match t.wait with
  | .start => some (now, .run)
  | _ => t.deadline?.map fun d => (d, .tick)

end Crew

end FleetProbe.Probe
