import FleetProbe.Value.Key
import FleetProbe.Yaml.Draft
import FleetProbe.Yaml.Reading
/-!
The value of a YAML document. Collections are begun where they are met and filled in rounds, in the
order in which they were begun, so that a collection may hold itself and the first fault in that
order counts.
-/

namespace FleetProbe

namespace Yaml

/-- What a node stands for; nodes in it are given by their numbers. -/
inductive Part where
  | value (v : Value)
  | items (ns : List Nat)
  | pairs (es : List (Nat × Nat))
  | entries (es : List (Value × Nat))
  | members (vs : List Value)

/-- What is known of a document. -/
structure Making where
  nodes : Graph
  /-- What the nodes stand for, by number. -/
  parts : Array (Option Part)
  /-- Collections that are begun, the newest first. -/
  begun : List Nat := []

namespace Making

def part? (m : Making) (n : Nat) : Option Part := (m.parts[n]?).join

def put (m : Making) (n : Nat) (p : Part) : Making :=
  { m with parts := m.parts.setIfInBounds n (some p) }

/-- A collection that is not filled yet. -/
def begin? : Tag → Option Part
  | .sequence => some (.items [])
  | .mapping => some (.entries [])
  | .set => some (.members [])
  | .ordered | .pairs => some (.pairs [])
  | _ => none

/-- What a scalar stands for. -/
def readScalar (g : Graph) (n : Nat) : Except Fault Value :=
  match g.tag n with
  | .merge | .value | .unknown => .error .malformed
  | tag =>
    match g.text n with
    | .error f => .error f
    | .ok text =>
      match tag, g.content n with
      | .instant, .mapping _ => .error .mappingAsDate
      | _, _ => scalarValue tag text

/-- Finds out what a node stands for; a collection is begun. -/
def make (m : Making) (n : Nat) : Except Fault Making :=
  match m.part? n, begin? (m.nodes.tag n) with
  | some _, _ => .ok m
  | none, some p => .ok { m.put n p with begun := n :: m.begun }
  | none, none => (readScalar m.nodes n).map fun v => m.put n (.value v)

def makeAll (m : Making) : List Nat → Except Fault Making
  | [] => .ok m
  | n :: ns => (m.make n).bind fun m => makeAll m ns

/-- Reads entries; no key may be a collection. -/
def makeEntries (m : Making) (read : List (Value × Nat)) :
    List (Nat × Nat) → Except Fault (List (Value × Nat) × Making)
  | [] => .ok (read, m)
  | (k, v) :: es =>
    match m.make k with
    | .error f => .error f
    | .ok m =>
      match m.part? k with
      | some (.value key) =>
        match m.make v with
        | .error f => .error f
        | .ok m => makeEntries m (putEntry key v read) es
      | _ => .error .malformed

/-- Reads mappings of one entry each. -/
def makePairs (m : Making) : List Nat → Except Fault (List (Nat × Nat) × Making)
  | [] => .ok ([], m)
  | n :: ns =>
    match m.nodes.content n with
    | .mapping [(k, v)] =>
      match m.makeAll [k, v] with
      | .error f => .error f
      | .ok m => (makePairs m ns).map fun (es, m) => ((k, v) :: es, m)
    | _ => .error .malformed

/-- Reads the entries of a mapping, with those it merges. -/
def fillEntries (m : Making) (n : Nat) : Except Fault (List (Value × Nat) × Making) :=
  (m.nodes.flatten n).bind fun nodes => makeEntries { m with nodes } [] (nodes.entries n)

/-- Fills a collection that is begun. -/
def fill (m : Making) (n : Nat) : Except Fault Making := do
  match m.nodes.tag n, m.nodes.content n with
  | .sequence, .sequence ns => (m.makeAll ns).map fun m => m.put n (.items ns)
  | .ordered, .sequence ns | .pairs, .sequence ns =>
    let (es, m) ← m.makePairs ns
    .ok (m.put n (.pairs es))
  | .mapping, .mapping _ =>
    let (es, m) ← m.fillEntries n
    .ok (m.put n (.entries es))
  | .set, .mapping _ =>
    let (es, m) ← m.fillEntries n
    .ok (m.put n (.members (es.map Prod.fst)))
  | _, _ => .error .malformed

def fillAll (m : Making) : List Nat → Except Fault Making
  | [] => .ok m
  | n :: ns => (m.fill n).bind fun m => fillAll m ns

/-- Fills collections until none is begun; `fuel` bounds the rounds. -/
def rounds : (fuel : Nat) → Making → Except Fault Making
  | 0, _ => .error .tooDeep
  | fuel + 1, m =>
    if m.begun.isEmpty then .ok m
    else (fillAll { m with begun := [] } m.begun.reverse).bind (rounds fuel)

def isMapping (m : Making) (n : Nat) : Bool :=
  match m.part? n with
  | some (.entries _) => true
  | _ => false

/-- The value of a node within others; `fuel` bounds their number. -/
def unfold (m : Making) : (fuel : Nat) → (around : List Nat) → Nat → Value
  | 0, _, _ => .null
  | fuel + 1, around, n =>
    if around.contains n then .again (m.isMapping n)
    else
      let inner := unfold m fuel (n :: around)
      match m.part? n with
      | none => .null
      | some (.value v) => v
      | some (.items ns) => .list (ns.map inner)
      | some (.pairs es) => .list (es.map fun (k, v) => .list [inner k, inner v])
      | some (.entries es) => .map (es.map fun (k, v) => (k, inner v))
      | some (.members vs) => .list vs

end Making

/-- The value of a text, which is nothing when there is no document. -/
def read (ps : List Nat) : Except Fault Value := do
  match ← Graph.read ps with
  | none => .ok .null
  | some (n, nodes) =>
    let m ← Making.make { nodes, parts := Array.replicate nodes.size none } n
    let m ← Making.rounds (nodes.size + 1) m
    .ok (m.unfold (nodes.size + 1) [] n)

end Yaml

end FleetProbe
