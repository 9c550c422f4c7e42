import FleetProbe.Text.Basic
/-!
Nodes of services, and snapshots of all nodes found by one poll.
-/

namespace FleetProbe.Catalog

/-- One instance of a service. -/
structure Node where
  service : Text
  ip : Text
  port : Int
  deriving DecidableEq, Repr

namespace Node

/-- Address of the node. -/
def socket (n : Node) : Text := n.ip ++ ":" ++ Text.ofString (toString n.port)

/-- The name under which a node is looked up. -/
def key (n : Node) : Text := n.service ++ ":" ++ n.socket

end Node

/-- Nodes in order of discovery, with the index of the catalog they were read at. -/
structure Snapshot where
  index : Int := 0
  nodes : List (Text × Node) := []
  deriving DecidableEq, Repr

namespace Snapshot

/-- Puts something under a key; a known key keeps its place. -/
def put {β : Type} (key : Text) (b : β) : List (Text × β) → List (Text × β)
  | [] => [(key, b)]
  | (k, c) :: rest => if k = key then (k, b) :: rest else (k, c) :: put key b rest

def add (s : Snapshot) (n : Node) : Snapshot := { s with nodes := put n.key n s.nodes }

def contains (s : Snapshot) (key : Text) : Bool := s.nodes.any fun e => e.1 == key

def size (s : Snapshot) : Nat := s.nodes.length

end Snapshot

end FleetProbe.Catalog
