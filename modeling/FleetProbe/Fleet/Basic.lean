import FleetProbe.Catalog.Node
import FleetProbe.Notice
/-!
The probes of all known nodes. A probe is started for every node of a snapshot that has none, and
the probe of a node that is gone is asked to stop and kept in sight until its task has finished.

The task of a probe is known by its place among all tasks ever created. That a task has finished is
one step, `finish`, and that the fleet takes notice of it is a later one, `collect`; anything can
happen between the two.
-/

namespace FleetProbe

open Catalog

namespace Fleet

/-- How a task ended. -/
inductive Finish where
  | returned
  | crashed
  | cancelled
  deriving DecidableEq, Repr

/-- What the fleet knows of a task it created. -/
structure Member where
  node : Node
  stopRequested : Bool := false
  finish : Option Finish := none
  deriving DecidableEq, Repr

/-- What a task is told to do. -/
inductive Order where
  | start (task : Nat) (node : Node)
  | stop (task : Nat)
  | cancel (task : Nat)
  deriving DecidableEq, Repr

end Fleet

structure Fleet where
  /-- All tasks ever created. -/
  members : List Fleet.Member := []
  /-- The running probe of every key, in order of start. -/
  active : List (Text × Nat) := []
  /-- Tasks asked to stop that are not known to have finished. -/
  retiring : List Nat := []
  deriving DecidableEq, Repr

namespace Fleet

/-- The task that probes the node of a key. -/
def task? (f : Fleet) (key : Text) : Option Nat :=
  (f.active.find? fun e => e.1 == key).map Prod.snd

def isActive (f : Fleet) (key : Text) : Bool := (f.task? key).isSome

/-- Keys of the running probes, in order of start. -/
def keys (f : Fleet) : List Text := f.active.map Prod.fst

def isUnfinished (f : Fleet) (task : Nat) : Bool :=
  (f.members[task]?).any fun m => m.finish.isNone

def isAsked (f : Fleet) (task : Nat) : Bool := (f.members[task]?).any (·.stopRequested)

/-- Sets the stop request of a task. -/
def ask (f : Fleet) (task : Nat) : Fleet :=
  { f with members := f.members.modify task fun m => { m with stopRequested := true } }

/-- Creates the task of a node. -/
def start (f : Fleet) (n : Node) : Fleet :=
  { f with
    members := f.members ++ [{ node := n }]
    active := Snapshot.put n.key f.members.length f.active }

/-- Starts the probes of all nodes that have none, and says which tasks it created. -/
def startMissing (f : Fleet) : List (Text × Node) → Fleet × List (Nat × Node)
  | [] => (f, [])
  | (key, n) :: rest =>
    if f.isActive key then startMissing f rest
    else
      let (g, created) := startMissing (f.start n) rest
      (g, (f.members.length, n) :: created)

/-- A fleet, and what the step that led to it says to tasks and to the operator. -/
structure Next where
  fleet : Fleet
  orders : List Order := []
  notices : List Notice := []
  deriving DecidableEq, Repr

namespace Next

/-- One step after another. -/
def andThen (a : Next) (step : Fleet → Next) : Next :=
  let b := step a.fleet
  ⟨b.fleet, a.orders ++ b.orders, a.notices ++ b.notices⟩

end Next

def notRunning : Notice := ⟨.warning, "No running probe to stop for %s"⟩

def askedBefore : Notice := ⟨.warning, "Probe of %s was already asked to stop"⟩

def crashNotice : Notice := ⟨.error, "Probe of %s crashed"⟩

def reconciled : Notice := ⟨.info, "Reconciled %d nodes: %d started, %d stopped"⟩

/-- Asks the probe of a key to stop and forgets it, without waiting for its task. -/
def stopProbe (key : Text) (f : Fleet) : Next :=
  match f.task? key with
  | none => { fleet := f, notices := [notRunning] }
  | some task =>
    let g := { f with active := f.active.filter fun e => e.1 != key }
    let g := if f.isUnfinished task && !f.retiring.contains task then
      { g with retiring := g.retiring ++ [task] } else g
    if f.isAsked task then { fleet := g, notices := [askedBefore] }
    else { fleet := g.ask task, orders := [.stop task] }

def stopProbes (keys : List Text) (f : Fleet) : Next :=
  keys.foldl (fun next key => next.andThen (stopProbe key)) { fleet := f }

/-- A reconciliation with the keys it started and those it stopped. -/
structure Reconciliation extends Next where
  started : List Text
  stopped : List Text
  deriving DecidableEq, Repr

/-- Makes the running probes those of a snapshot; a probe that is wanted already is left alone. -/
def reconcile (f : Fleet) (s : Snapshot) : Reconciliation :=
  let (g, created) := f.startMissing s.nodes
  let stopped := g.keys.filter fun key => !s.contains key
  let next := g.stopProbes stopped
  let changed := !created.isEmpty || !stopped.isEmpty
  { fleet := next.fleet
    orders := (created.map fun (task, n) => .start task n) ++ next.orders
    notices := next.notices ++ if changed then [reconciled] else []
    started := created.map fun (_, n) => n.key
    stopped }

/-- A task has finished; nothing else is known of it yet. -/
def finish (f : Fleet) (task : Nat) (how : Finish) : Fleet :=
  { f with members := f.members.modify task fun m =>
    { m with finish := m.finish.or (some how) } }

/-- Takes notice of a finished task. One that ended on its own is forgotten, so that the next
snapshot starts it again; a newer task of its key is left alone. -/
def collect (f : Fleet) (task : Nat) : Next :=
  match f.members[task]? with
  | none => { fleet := f }
  | some m =>
    { fleet := { f with
        retiring := f.retiring.filter (· != task)
        active := f.active.filter fun e => !(e.1 == m.node.key && e.2 == task) }
      notices := if m.finish = some .crashed then [crashNotice] else [] }

/-- Tasks that are retiring and have not finished. -/
def pending (f : Fleet) : List Nat := f.retiring.filter f.isUnfinished

/-- Asks all probes to stop. -/
def stopAll (f : Fleet) : Next := f.stopProbes f.keys

end Fleet

end FleetProbe
