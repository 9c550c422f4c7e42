import FleetProbe.Catalog.Node
import FleetProbe.Notice
import FleetProbe.Value
/-!
What the two answers of the catalog say: which services carry a tag, and where their nodes are.
-/

namespace FleetProbe.Catalog

/-- Whether a list of tags holds a tag; anything but a list holds none. -/
def hasTag (tag : Text) : Value → Bool
  | .list tags => tags.any (Value.isText tag)
  | _ => false

namespace Services

def noList : Notice := ⟨.warning, "Empty list of services on the consul catalog"⟩

/-- Names of the services that carry a tag, in the order of the answer. -/
def matching (tag : Text) : Value → List Text × List Notice
  | .map entries =>
    (entries.filterMap fun
      | (.text name, tags) => if hasTag tag tags then some name else none
      | _ => none, [])
  | _ => ([], [noList])

end Services

namespace Nodes

/-- Ports that a node can listen on. -/
def portRange (n : Int) : Bool := 1 ≤ n && n ≤ 65535

/-- Why an entry is no node. -/
inductive Refusal where
  | notAnObject
  | noAddress
  | noPort
  | badPort
  deriving DecidableEq, Repr

namespace Refusal

def notice : Refusal → Notice
  | notAnObject => ⟨.warning, "Skip invalid node entry for %s: %s"⟩
  | noAddress => ⟨.warning, "Skip node of %s without address: %s"⟩
  | noPort => ⟨.warning, "Skip node of %s without port: %s"⟩
  | badPort => ⟨.warning, "Skip node of %s with invalid port %s: %s"⟩

end Refusal

/-- The service's own address, or that of its machine where the first is empty or missing. -/
def address (entry : List (Value × Value)) : Value :=
  match Value.entry? entry "ServiceAddress" with
  | some v => if v.isTruthy then v else (Value.entry? entry "Address").getD .null
  | none => (Value.entry? entry "Address").getD .null

/-- The node of one entry. -/
def ofEntry (service : Text) : Value → Except Refusal Node
  | .map entry =>
    match address entry with
    | .text ip =>
      if ip.isEmpty then .error .noAddress
      else
        match Value.entry? entry "ServicePort" with
        | some (.int port) =>
          if portRange port then .ok ⟨service, ip, port⟩ else .error .badPort
        | _ => .error .noPort
    | _ => .error .noAddress
  | _ => .error .notAnObject

def notAList : Notice := ⟨.warning, "Returned body is not an array of nodes: %s"⟩

/-- The usable entries of an answer in order; each of the others gets a warning. -/
def extract (service : Text) : Value → List Node × List Notice
  | .list entries =>
    let read := entries.map (ofEntry service)
    (read.filterMap fun
      | .ok n => some n
      | .error _ => none,
      read.filterMap fun
      | .ok _ => none
      | .error r => some r.notice)
  | _ => ([], [notAList])

end Nodes

end FleetProbe.Catalog
