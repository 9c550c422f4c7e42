import FleetProbe.Metrics.Summary
import FleetProbe.Number.Numeral
import FleetProbe.Text.Integer
import FleetProbe.Value.Access
import FleetProbe.Value.Display
/-!
The metrics under calls by name, with arguments of any kind. Labels are shown as texts; for the
nodes on record the ledger remembers what the texts were given as.
-/

namespace FleetProbe.Rehearsal

structure Ledger where
  metrics : Metrics Float
  /-- What labels were given as, by their texts. -/
  given : List (Text × Value) := []

/-- Why a call of the metrics fails. -/
inductive CallFault where
  /-- The arguments are too few or too many, or of the wrong kind. -/
  | badArguments
  | tooManyDigits
  /-- An amount is beyond all numbers. -/
  | tooLarge
  | noSuchMetric
  /-- The labels do not fit the metric. -/
  | badLabels (why : Text)
  /-- A label cannot be written. -/
  | unencodable
  deriving DecidableEq, Repr

namespace Ledger

open Value (asEntries asItems asText)

/-- The text of a label, with what it was given as. -/
def label (l : Ledger) (v : Value) : Except CallFault (Text × Ledger) :=
  match v.shown? with
  | none => .error .tooManyDigits
  | some t => .ok (t, { l with given := (t, v) :: l.given.filter (·.1 != t) })

/-- What the text of a label was given as. -/
def raw (l : Ledger) (t : Text) : Value := (l.given.lookup t).getD (.text t)

/-- Nodes on record, in the order of their texts. -/
def tracked (l : Ledger) : List (List Value) :=
  let rows := (l.metrics.tracked.map fun t => [t.cluster, t.socket]).mergeSort fun a b =>
    !(Text.join "\x00" b).lt (Text.join "\x00" a)
  rows.map fun r => r.map l.raw

/-- An amount of time; a text is none. -/
def amount : Value → Except CallFault Float
  | .real x => .ok x
  | .bool b => .ok (if b then 1 else 0)
  | .int i => ((Number.Binary64.ofInt? i).map .ok).getD (.error .tooLarge)
  | _ => .error .badArguments

/-- A value that can stand in a set. -/
def isPlain : Value → Bool
  | .list _ | .map _ => false
  | _ => true

/-- Counts a request. With an amount that is of no use nothing is put on record. -/
def observe (l : Ledger) (cluster socket command status seconds : Value) :
    Except CallFault (Ledger × Option CallFault) := do
  let (c, l) ← l.label cluster
  let (s, l) ← l.label socket
  let (st, l) ← l.label status
  let (k, l) ← l.label command
  let m := l.metrics
  match amount seconds with
  | .error f => .ok ({ l with metrics := m.countUntimed ⟨c, s⟩ k st }, some f)
  | .ok x =>
    let observed := m.observe ⟨c, s⟩ k st x
    if [cluster, socket, command, status].all isPlain then
      .ok ({ l with metrics := observed }, none)
    else
      .ok ({ l with metrics := { observed with
        knownRequests := m.knownRequests, knownLatencies := m.knownLatencies } },
        some .badArguments)

/-- What a metric is called. -/
def metricNames : List (String × Metrics.Name) :=
  [("number_of_requests", .requests), ("response_time", .latencies), ("failure_probe", .failures)]

/-- The metric without labels. -/
def bareName : String := "failure_services_discovery"

/-- Takes one series away. -/
def drop (l : Ledger) (name : String) (labels : List Value) : Except CallFault Ledger := do
  if name = bareName then
    .error (.badLabels ("No label names were set when constructing counter:" ++ bareName))
  match metricNames.lookup name, labels.mapM Value.shown? with
  | some which, some ts =>
    match l.metrics.drop? which ts with
    | some metrics => .ok { l with metrics }
    | none =>
      match Value.quotedItems? labels with
      | some shown => .error (.badLabels (which.countText shown))
      | none => .error .tooManyDigits
  | none, _ => .error .noSuchMetric
  | _, none => .error .tooManyDigits

/-- Does what a call says, with what it answers; a fault may come behind a part of the work. -/
def call (l : Ledger) (name : String) (args : List Value) :
    Except CallFault (Ledger × Except CallFault Value) := do
  let target (cluster socket : Value) : Except CallFault (Metrics.Target × Ledger) := do
    let (c, l) ← l.label cluster
    let (s, l) ← l.label socket
    if isPlain cluster && isPlain socket then .ok (⟨c, s⟩, l) else .error .badArguments
  let done (l : Ledger) (metrics : Metrics Float) :=
    ({ l with metrics }, (.ok .null : Except CallFault Value))
  let owner (v : Value) := v.asText.points.foldl (fun n p => n * 0x110001 + p + 1) 0
  match name, args with
  | "observe_request", [cluster, socket, command, status, seconds] =>
    let (l, fault) ← l.observe cluster socket command status seconds
    .ok (l, (fault.map .error).getD (.ok .null))
  | "record_probe_failure", [cluster, socket] =>
    let (t, l) ← target cluster socket
    .ok (done l (l.metrics.recordFailure t))
  | "record_discovery_failure", [] => .ok (done l l.metrics.recordDiscoveryFailure)
  | "remove_node", [cluster, socket] =>
    let (t, l) ← target cluster socket
    .ok (done l (l.metrics.remove t))
  | "claim_node", [cluster, socket, v] =>
    let (t, l) ← target cluster socket
    .ok (done l (l.metrics.claim t (owner v)))
  | "release_node", [cluster, socket, v] =>
    let (t, l) ← target cluster socket
    let (metrics, released) := l.metrics.release t (owner v)
    .ok ({ l with metrics }, .ok (.bool released))
  | "drop", [name, labels] => (l.drop name.asString labels.asItems).map fun l => (l, .ok .null)
  | _, _ => .error .badArguments

/-- The value of a sample, if there is one with these labels. -/
def sample? (l : Ledger) (name labels : Value) : Option Float :=
  let labels := labels.asEntries.map fun (k, v) => match v with
    | .text t => some (k, t)
    | _ => none
  (labels.mapM id).bind (l.metrics.sample? name.asText)

/-- The whole text, if it can be written. -/
def exposition (l : Ledger) : Except CallFault Text :=
  let t := l.metrics.exposition
  if t.points.any Text.isSurrogate then .error .unencodable else .ok t

/-- A bound of a histogram: numbers and what can be read as one. -/
def bound : Value → Except CallFault Float
  | .text t =>
    ((Number.number? t).map .ok).getD
      (.error (.badLabels ("could not convert string to float: " ++ t.quoted)))
  | v => amount v

end Ledger

end FleetProbe.Rehearsal
