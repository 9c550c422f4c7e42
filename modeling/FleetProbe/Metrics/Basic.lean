import FleetProbe.Metrics.Family
import FleetProbe.Metrics.Histogram
import FleetProbe.Text.Quoted
/-!
What the probes count: requests by status, response times, failures, and failed polls of the
catalog. The label sets of every node are kept on record, so that its series can be removed when
the node leaves. A node can be claimed by a probe, and only the last to claim it may release it.
-/

namespace FleetProbe

namespace Metrics

/-- A node as the metrics name it. -/
structure Target where
  cluster : Text
  socket : Text
  deriving DecidableEq, Repr

structure RequestLabels where
  target : Target
  status : Text
  command : Text
  deriving DecidableEq, Repr

structure LatencyLabels where
  target : Target
  command : Text
  deriving DecidableEq, Repr

end Metrics

open Metrics

structure Metrics (α : Type) where
  /-- Bounds of response times; one without limit follows them. -/
  bounds : List α
  requests : Family RequestLabels Nat := []
  latencies : Family LatencyLabels (Histogram α) := []
  failures : Family Target Nat := []
  /-- Failed polls. -/
  discoveryFailures : Nat := 0
  /-- Label sets on record; a series may be gone before its labels are. -/
  knownRequests : List RequestLabels := []
  knownLatencies : List LatencyLabels := []
  knownFailures : List Target := []
  /-- The probe that reports for a node. -/
  owners : List (Target × Nat) := []
  deriving Repr

namespace Metrics

variable {α : Type} [Quantity α]

/-- Puts an element on a list that holds nothing twice. -/
def note {L : Type} [DecidableEq L] (known : List L) (l : L) : List L :=
  if l ∈ known then known else known ++ [l]

/-- Counts a request and the time it took. -/
def observe (m : Metrics α) (target : Target) (command status : Text) (seconds : α) : Metrics α :=
  let request : RequestLabels := ⟨target, status, command⟩
  let latency : LatencyLabels := ⟨target, command⟩
  { m with
    requests := m.requests.update request 0 (· + 1)
    latencies :=
      m.latencies.update latency (Histogram.empty m.bounds) (Histogram.observe m.bounds seconds)
    knownRequests := note m.knownRequests request
    knownLatencies := note m.knownLatencies latency }

/-- Counts a request whose time is of no use. Its series of times is there from now on, but nothing is
put on record. -/
def countUntimed (m : Metrics α) (target : Target) (command status : Text) : Metrics α :=
  { m with
    requests := m.requests.update ⟨target, status, command⟩ 0 (· + 1)
    latencies := m.latencies.update ⟨target, command⟩ (Histogram.empty m.bounds) id }

def recordFailure (m : Metrics α) (target : Target) : Metrics α :=
  { m with
    failures := m.failures.update target 0 (· + 1)
    knownFailures := note m.knownFailures target }

def recordDiscoveryFailure (m : Metrics α) : Metrics α :=
  { m with discoveryFailures := m.discoveryFailures + 1 }

/-- Removes the series on record for a node. -/
def remove (m : Metrics α) (target : Target) : Metrics α :=
  let goneRequests := m.knownRequests.filter fun l => l.target = target
  let goneLatencies := m.knownLatencies.filter fun l => l.target = target
  { m with
    requests := goneRequests.foldl Family.erase m.requests
    latencies := goneLatencies.foldl Family.erase m.latencies
    failures := if target ∈ m.knownFailures then m.failures.erase target else m.failures
    knownRequests := m.knownRequests.filter fun l => !decide (l.target = target)
    knownLatencies := m.knownLatencies.filter fun l => !decide (l.target = target)
    knownFailures := m.knownFailures.filter fun t => !decide (t = target) }

def owner? (m : Metrics α) (target : Target) : Option Nat :=
  (m.owners.find? fun e => e.1 = target).map Prod.snd

/-- Makes a probe the one that reports for a node. -/
def claim (m : Metrics α) (target : Target) (owner : Nat) : Metrics α :=
  { m with owners := (target, owner) :: m.owners.filter fun e => !decide (e.1 = target) }

/-- Removes the series of a node if the probe still reports for it; says whether it did. -/
def release (m : Metrics α) (target : Target) (owner : Nat) : Metrics α × Bool :=
  if m.owner? target = some owner then
    ({ m with owners := m.owners.filter fun e => !decide (e.1 = target) }.remove target, true)
  else (m, false)

/-- Nodes with label sets on record, each once. -/
def tracked (m : Metrics α) : List Target :=
  (m.knownRequests.map (·.target) ++ m.knownLatencies.map (·.target)
    ++ m.knownFailures).foldl note []

/-- Names of the metrics whose series can be taken away one by one. -/
inductive Name where
  | requests
  | latencies
  | failures
  deriving DecidableEq, Repr

namespace Name

def labelCount : Name → Nat
  | requests => 4
  | latencies => 3
  | failures => 2

/-- What is said of a wrong number of labels, which are shown within a list. -/
def countText (n : Name) (labels : List Text) : Text :=
  let shown := Text.join ", " labels
  "Incorrect label count (expected " ++ Text.ofString (toString n.labelCount) ++ ", got ("
    ++ shown ++ (if labels.length = 1 then ",))" else "))")

end Name

/-- Takes one series away, with its labels in order; `none` when their number is wrong. -/
def drop? (m : Metrics α) : Name → List Text → Option (Metrics α)
  | .requests, [cluster, socket, status, command] =>
    some { m with requests := m.requests.erase ⟨⟨cluster, socket⟩, status, command⟩ }
  | .latencies, [cluster, socket, command] =>
    some { m with latencies := m.latencies.erase ⟨⟨cluster, socket⟩, command⟩ }
  | .failures, [cluster, socket] => some { m with failures := m.failures.erase ⟨cluster, socket⟩ }
  | _, _ => none

/-- What a probe has to say about its node. -/
inductive Report (α : Type) where
  | request (target : Target) (command status : Text) (seconds : α)
  | untimed (target : Target) (command status : Text)
  | failure (target : Target)
  | claim (target : Target) (owner : Nat)
  | release (target : Target) (owner : Nat)
  deriving DecidableEq, Repr

/-- Takes a report in. -/
def apply (m : Metrics α) : Report α → Metrics α
  | .request target command status seconds => m.observe target command status seconds
  | .untimed target command status => m.countUntimed target command status
  | .failure target => m.recordFailure target
  | .claim target owner => m.claim target owner
  | .release target owner => (m.release target owner).1

end Metrics

end FleetProbe
