import FleetProbe.Catalog.Query
import FleetProbe.Catalog.Services
/-!
A poll of the catalog: one query for the services, then one for the nodes of every service that
carries the tag. The first query that fails ends the poll, and there is no snapshot then.
-/

namespace FleetProbe.Catalog

/-- A poll that waits for an answer. -/
inductive Listing where
  | services (previous : Int) (tag : Text)
  /-- Waits for the nodes of one service, with what was found and what is left to ask. -/
  | nodes (found : Snapshot) (service : Text) (remaining : List Text)
  deriving DecidableEq, Repr

namespace Listing

def servicesRequest (previous : Int) : Request := ⟨"/v1/catalog/services", previous⟩

def nodesRequest (service : Text) : Request :=
  ⟨"/v1/catalog/service/" ++ escape ((Text.encode? service).getD []), 0⟩

/-- The query whose answer the poll waits for. -/
def request : Listing → Request
  | services previous _ => servicesRequest previous
  | nodes _ service _ => nodesRequest service

/-- What an answer leads to. -/
inductive Turn where
  | ask (l : Listing)
  | finish (r : Except QueryFault Snapshot)

/-- Asks for the nodes of the next service, if one is left. -/
def askNext (found : Snapshot) : List Text → Turn
  | [] => .finish (.ok found)
  | name :: rest =>
    if (Text.encode? name).isSome then .ask (.nodes found name rest)
    else .finish (.error .unencodable)

def step (s : Source) (l : Listing) (o : Outcome) : Turn × List Notice :=
  let (answer, notes) := Query.read s l.request o
  match l, answer with
  | _, .error e => (.finish (.error e), notes)
  | services _ tag, .ok (index, v) =>
    let (names, more) := Services.matching tag v
    (askNext { index := index } names, notes ++ more)
  | nodes found service remaining, .ok (_, v) =>
    let (ns, more) := Nodes.extract service v
    (askNext (ns.foldl Snapshot.add found) remaining, notes ++ more)

/-- The nodes of one service, asked for alone. -/
def nodesOf (s : Source) (service : Text) (o : Outcome) :
    Except QueryFault (List Node) × List Notice :=
  let (answer, notes) := Query.read s (nodesRequest service) o
  match answer with
  | .error e => (.error e, notes)
  | .ok (_, v) =>
    let (ns, more) := Nodes.extract service v
    (.ok ns, notes ++ more)

end Listing

end FleetProbe.Catalog
