import FleetProbe.Yaml.Typing
/-!
The nodes of a YAML document by number. A node with a name may stand in many places, even within
itself. `Graph.flatten` puts the entries of merged mappings in front of a mapping's own.
-/

namespace FleetProbe.Yaml

/-- What a node holds; other nodes are given by their numbers. -/
inductive Content where
  | scalar (text : List Nat)
  | sequence (items : List Nat)
  | mapping (entries : List (Nat × Nat))
  deriving DecidableEq, Repr

structure Node where
  tag : Tag
  content : Content
  deriving DecidableEq, Repr

/-- Nodes by number. -/
abbrev Graph := Array Node

namespace Graph

/-- What an empty place holds. -/
def emptyNode : Node := ⟨.null, .scalar []⟩

def node (g : Graph) (n : Nat) : Node := (g[n]?).getD emptyNode

def tag (g : Graph) (n : Nat) : Tag := (g.node n).tag

def content (g : Graph) (n : Nat) : Content := (g.node n).content

def entries (g : Graph) (n : Nat) : List (Nat × Nat) :=
  match g.content n with
  | .mapping entries => entries
  | _ => []

def put (g : Graph) (n : Nat) (node : Node) : Graph := g.setIfInBounds n node

def setEntries (g : Graph) (n : Nat) (entries : List (Nat × Nat)) : Graph :=
  g.put n ⟨g.tag n, .mapping entries⟩

def retag (g : Graph) (n : Nat) (tag : Tag) : Graph := g.put n ⟨tag, g.content n⟩

/-- The text of a scalar; a mapping may have one under its default key. A mapping that is its own
text has none that could be found. -/
def textFrom (g : Graph) : (fuel : Nat) → Nat → Except Fault (List Nat)
  | 0, _ => .error .tooDeep
  | fuel + 1, n =>
    match g.content n with
    | .scalar text => .ok text
    | .sequence _ => .error .malformed
    | .mapping entries =>
      match entries.find? fun e => g.tag e.1 == .value with
      | some e => textFrom g fuel e.2
      | none => .error .malformed

def text (g : Graph) (n : Nat) : Except Fault (List Nat) := textFrom g (g.size + 1) n

mutual

/-- Goes through the entries of a mapping from the one at `index`. An entry that merges is dropped,
and the entries it brings, `taken` so far, come in front when all have been seen. The default key
turns into a text. `fuel` bounds the entries. -/
def flattenFrom : (fuel : Nat) → (n index : Nat) → (taken : List (Nat × Nat)) → Graph →
    Except Fault Graph
  | 0, _, _, _, _ => .error .tooDeep
  | fuel + 1, n, index, taken, g =>
    match (g.entries n)[index]? with
    | none => .ok (if taken.isEmpty then g else g.setEntries n (taken ++ g.entries n))
    | some (k, v) =>
      match g.tag k with
      | .merge =>
        let g := g.setEntries n ((g.entries n).eraseIdx index)
        match g.content v with
        | .mapping _ =>
          match flattenFrom fuel v 0 [] g with
          | .ok g => flattenFrom fuel n index (taken ++ g.entries v) g
          | .error f => .error f
        | .sequence items =>
          match mergeAll fuel items g with
          | .ok (parts, g) => flattenFrom fuel n index (taken ++ parts.reverse.flatten) g
          | .error f => .error f
        | .scalar _ => .error .malformed
      | .value => flattenFrom fuel n (index + 1) taken (g.retag k .text)
      | _ => flattenFrom fuel n (index + 1) taken g

/-- Entries of several mappings, each with what it merges. -/
def mergeAll : (fuel : Nat) → List Nat → Graph →
    Except Fault (List (List (Nat × Nat)) × Graph)
  | 0, _, _ => .error .tooDeep
  | _, [], g => .ok ([], g)
  | fuel + 1, n :: ns, g =>
    match g.content n with
    | .mapping _ =>
      match flattenFrom fuel n 0 [] g with
      | .ok g => (mergeAll fuel ns g).map fun (parts, g') => (g.entries n :: parts, g')
      | .error f => .error f
    | _ => .error .malformed

end

/-- Takes over the entries that a mapping merges. -/
def flatten (n : Nat) (g : Graph) : Except Fault Graph :=
  flattenFrom ((g.size + 2) * (g.size + 2)) n 0 [] g

end Graph

end FleetProbe.Yaml
