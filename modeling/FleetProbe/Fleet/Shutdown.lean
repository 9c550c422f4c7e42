import FleetProbe.Fleet.Watch
/-!
The end of a watch: every probe is asked to stop, their tasks and those asked before get some time
to finish, and what has not finished by then is cancelled.
-/

namespace FleetProbe

/-- Where a shutdown stands. -/
inductive Shutdown (α : Type) where
  /-- Waits for tasks to finish on their own, perhaps not for ever. -/
  | waiting (tasks : List Nat) (deadline : Option α)
  /-- Waits for cancelled tasks. -/
  | cancelling (tasks : List Nat)
  | over
  deriving DecidableEq, Repr

namespace Shutdown

variable {α : Type} [Quantity α]

/-- Time that probes have to finish. -/
def patience : Nat := 5

def stopped : Notice := ⟨.info, "Stopped %d probes"⟩

/-- A step of a shutdown. -/
structure Next (α : Type) where
  shutdown : Shutdown α
  orders : List Fleet.Order := []
  notices : List Notice := []
  deriving DecidableEq, Repr

/-- Stops the watch, and waits if anything is left to wait for. -/
def begin (w : Watch α) (deadline : Option α) : Watch α × Next α :=
  let next := w.fleet.stopAll
  let tasks := next.fleet.pending
  ({ w with fleet := next.fleet, stopping := true },
    { shutdown := if tasks.isEmpty then .over else .waiting tasks deadline
      orders := next.orders
      notices := next.notices })

/-- Looks at the tasks again. -/
def advance (f : Fleet) (now : α) (s : Shutdown α) : Next α :=
  match s with
  | .waiting tasks deadline =>
    let late := tasks.filter f.isUnfinished
    if late.isEmpty then { shutdown := .over, notices := [stopped] }
    else if deadline.any (· ≤ now) then
      { shutdown := .cancelling late, orders := late.map .cancel }
    else { shutdown := s }
  | .cancelling tasks =>
    if (tasks.filter f.isUnfinished).isEmpty then { shutdown := .over, notices := [stopped] }
    else { shutdown := s }
  | .over => { shutdown := .over }

/-- When time alone will move the shutdown on. -/
def deadline? : Shutdown α → Option α
  | .waiting _ deadline => deadline
  | _ => none

end Shutdown

end FleetProbe
