import FleetProbe.Json.Writer
import FleetProbe.Metrics.Address
import FleetProbe.Notice
/-!
The endpoint that shows the metrics and whether the program is alive.
-/

namespace FleetProbe.Metrics.Endpoint

structure Reply where
  status : Nat
  contentType : String
  body : Text

/-- What the endpoint shows. -/
structure View where
  /-- Text of the metrics. -/
  exposition : Text
  /-- Number of running probes, where the endpoint is told of it. -/
  activeProbes : Option Value

def health (v : View) : Text :=
  Json.write Json.portable (Value.ofFields (("status", ("alive" : Value)) ::
    match v.activeProbes with
    | some n => [("active_probes", n)]
    | none => []))

def plain (status : Nat) (body : Text) : Reply := ⟨status, "text/plain; charset=utf-8", body⟩

/-- What stands at a path. -/
def page? (v : View) (path : Text) : Option Reply :=
  if path = "/metrics" then
    some ⟨200, "text/plain; version=1.0.0; charset=utf-8", v.exposition⟩
  else if path = "/health" then some ⟨200, "application/json; charset=utf-8", health v⟩
  else none

/-- Methods that only read, in whatever case. -/
def isReading (method : Text) : Bool :=
  [("get" : Text), "head"].contains ⟨method.points.map Address.lowerAscii⟩

/-- Answers a request; only reading is allowed. -/
def respond (v : View) (method address : Text) : Except AddressFault Reply :=
  (Address.path address).map fun path =>
    match page? v path with
    | none => plain 404 "404: Not Found"
    | some r => if isReading method then r else plain 405 "405: Method Not Allowed"

def started : Notice := ⟨.info, "Metrics endpoint started on port %d"⟩

def stopped : Notice := ⟨.info, "Metrics endpoint stopped"⟩

/-- Whether the endpoint was started, and whether it got hold of its port. -/
inductive State where
  | idle
  | unbound
  | bound
  deriving DecidableEq, Repr

/-- A change at the port. -/
inductive Binding where
  | bind
  | unbind
  deriving DecidableEq, Repr

/-- Takes the port, unless that fails. -/
def start (fails : Bool) : State × List Binding × List Notice :=
  if fails then (.unbound, [], []) else (.bound, [.bind], [started])

/-- Gives the port back. -/
def stop : State → State × List Binding × List Notice
  | .idle => (.idle, [], [])
  | .unbound => (.idle, [], [stopped])
  | .bound => (.idle, [.unbind], [stopped])

end FleetProbe.Metrics.Endpoint
