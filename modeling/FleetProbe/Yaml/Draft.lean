import FleetProbe.Yaml.Graph
import FleetProbe.Yaml.Layout
/-!
From the tokens of a YAML document to its nodes. A name stands for its node from the node's first
token on.
-/

namespace FleetProbe.Yaml

/-- Where the reading of a document stands. -/
structure Draft where
  tokens : List Token
  /-- What comes when the tokens run out. -/
  fault : Fault
  /-- What handles of tags stand for. -/
  handles : List (List Nat × List Nat)
  nodes : Graph := #[]
  /-- Names of nodes, the newest first. -/
  anchors : List (List Nat × Nat) := []

namespace Draft

/-- Levels of nesting that a document may have. -/
def maxDepth : Nat := 480

def standardHandles : List (List Nat × List Nat) :=
  [(pointsOf "!", pointsOf "!"), (pointsOf "!!", knownFront)]

/-- The next token. -/
def peek (t : Draft) : Except Fault Token :=
  match t.tokens with
  | [] => .error t.fault
  | k :: _ => .ok k

def drop (t : Draft) : Draft := { t with tokens := t.tokens.tail }

/-- What may stand in front of a node. -/
structure Properties where
  anchor : Option (List Nat) := none
  tag : Option (List Nat) := none

/-- The full name of a tag. -/
def tagName (t : Draft) : Option (List Nat) → List Nat → Except Fault (List Nat)
  | none, rest => .ok rest
  | some handle, rest =>
    match t.handles.lookup handle with
    | some front => .ok (front ++ rest)
    | none => .error .malformed

/-- An anchor and a tag in either order. -/
def properties (t : Draft) : Except Fault (Properties × Draft) := do
  match ← t.peek with
  | .anchor a =>
    let t := t.drop
    match ← t.peek with
    | .tag h rest => .ok (⟨some a, some (← t.tagName h rest)⟩, t.drop)
    | _ => .ok (⟨some a, none⟩, t)
  | .tag h rest =>
    let t' := t.drop
    match ← t'.peek with
    | .anchor a => .ok (⟨some a, some (← t.tagName h rest)⟩, t'.drop)
    | _ => .ok (⟨none, some (← t.tagName h rest)⟩, t')
  | _ => .ok ({}, t)

/-- Adds a node, which gets the next number. -/
def add (t : Draft) (n : Node) : Nat × Draft := (t.nodes.size, { t with nodes := t.nodes.push n })

def addEmpty (t : Draft) : Nat × Draft := t.add Graph.emptyNode

/-- Adds a node with its name; a name can be given once only. -/
def declare (t : Draft) (p : Properties) (n : Node) : Except Fault (Nat × Draft) :=
  match p.anchor with
  | none => .ok (t.add n)
  | some a =>
    if (t.anchors.lookup a).isSome then .error .malformed
    else .ok ({ t with anchors := (a, t.nodes.size) :: t.anchors }.add n)

/-- Says what a node holds that was added before its parts. -/
def complete (t : Draft) (n : Nat) (content : Content) : Draft :=
  { t with nodes := t.nodes.put n ⟨t.nodes.tag n, content⟩ }

/-- A tag that leaves the choice open. -/
def isOpen (tag : Option (List Nat)) : Bool := tag.all (· == [0x21])

def scalarTag (p : Properties) (plain : Bool) (text : List Nat) : Tag :=
  match p.tag with
  | none => if plain then plainTag text else .text
  | some name => if name = [0x21] then plainTag text else tagOf name

def collectionTag (p : Properties) (standard : Tag) : Tag :=
  match p.tag with
  | none => standard
  | some name => if name = [0x21] then standard else tagOf name

/-- The tag of an empty place behind an anchor or a tag. -/
def emptyTag (p : Properties) : Tag :=
  if isOpen p.tag then plainTag [] else (p.tag.map tagOf).getD .text

/-- Where a node stands: it may be a block, and its entries need not be indented. -/
structure Place where
  block : Bool
  sameIndent : Bool := false

/-- All entries but the first stand behind a comma. -/
def afterEntry (first : Bool) (k : Token) (t : Draft) : Except Fault Draft :=
  if first then .ok t else if k == .flowEntry then .ok t.drop else .error .malformed

mutual

/-- A node. `fuel` bounds the calls, `depth` counts the levels still allowed. -/
def node : (fuel depth : Nat) → Place → Draft → Except Fault (Nat × Draft)
  | 0, _, _, _ => .error .tooDeep
  | _, 0, _, _ => .error .tooDeep
  | fuel + 1, depth + 1, place, t => do
    match ← t.peek with
    | .alias name =>
      match t.anchors.lookup name with
      | some n => .ok (n, t.drop)
      | none => .error .malformed
    | _ =>
      let (p, t) ← t.properties
      let sequence (t : Draft) (read : Draft → Except Fault (List Nat × Draft)) :
          Except Fault (Nat × Draft) := do
        let (n, t) ← t.declare p ⟨collectionTag p .sequence, .sequence []⟩
        let (items, t) ← read t
        .ok (n, t.complete n (.sequence items))
      let mapping (read : Draft → Except Fault (List (Nat × Nat) × Draft)) :
          Except Fault (Nat × Draft) := do
        let (n, t) ← t.drop.declare p ⟨collectionTag p .mapping, .mapping []⟩
        let (entries, t) ← read t
        .ok (n, t.complete n (.mapping entries))
      let scalar (tag : Tag) (text : List Nat) (t : Draft) : Except Fault (Nat × Draft) :=
        t.declare p ⟨tag, .scalar text⟩
      match ← t.peek, place.block, place.sameIndent with
      | .entry, _, true => sequence t (entriesAtIndent fuel depth)
      | .scalar plain text, _, _ => scalar (scalarTag p plain text) text t.drop
      | .flowSequenceStart, _, _ => sequence t.drop (flowItems fuel depth true)
      | .flowMappingStart, _, _ => mapping (flowEntries fuel depth true)
      | .sequenceStart, true, _ => sequence t.drop (blockItems fuel depth)
      | .mappingStart, true, _ => mapping (blockEntries fuel depth)
      | _, _, _ =>
        if p.anchor.isSome || p.tag.isSome then scalar (emptyTag p) [] t else .error .malformed

/-- A node, or an empty place in front of one of some tokens. -/
def nodeUnless : (fuel depth : Nat) → Place → (Token → Bool) → Draft → Except Fault (Nat × Draft)
  | 0, _, _, _, _ => .error .tooDeep
  | fuel + 1, depth, place, stops, t => do
    if stops (← t.peek) then .ok t.addEmpty else node fuel depth place t

/-- The value of an entry, empty if there is no mark of one. -/
def value : (fuel depth : Nat) → Place → (Token → Bool) → Draft → Except Fault (Nat × Draft)
  | 0, _, _, _, _ => .error .tooDeep
  | fuel + 1, depth, place, stops, t => do
    match ← t.peek with
    | .value => nodeUnless fuel depth place stops t.drop
    | _ => .ok t.addEmpty

/-- Items of a block sequence up to its end. -/
def blockItems : (fuel depth : Nat) → Draft → Except Fault (List Nat × Draft)
  | 0, _, _ => .error .tooDeep
  | fuel + 1, depth, t => do
    match ← t.peek with
    | .entry =>
      let (n, t) ← nodeUnless fuel depth ⟨true, false⟩
        (fun (k : Token) => k matches .entry | .blockEnd) t.drop
      let (ns, t) ← blockItems fuel depth t
      .ok (n :: ns, t)
    | .blockEnd => .ok ([], t.drop)
    | _ => .error .malformed

/-- Items of a sequence that is not indented more than the mapping around it. -/
def entriesAtIndent : (fuel depth : Nat) → Draft → Except Fault (List Nat × Draft)
  | 0, _, _ => .error .tooDeep
  | fuel + 1, depth, t => do
    match ← t.peek with
    | .entry =>
      let (n, t) ← nodeUnless fuel depth ⟨true, false⟩
        (fun (k : Token) => k matches .entry | .key | .value | .blockEnd) t.drop
      let (ns, t) ← entriesAtIndent fuel depth t
      .ok (n :: ns, t)
    | _ => .ok ([], t)

/-- Entries of a block mapping up to its end. -/
def blockEntries : (fuel depth : Nat) → Draft → Except Fault (List (Nat × Nat) × Draft)
  | 0, _, _ => .error .tooDeep
  | fuel + 1, depth, t => do
    let stops (k : Token) : Bool := k matches .key | .value | .blockEnd
    match ← t.peek with
    | .blockEnd => .ok ([], t.drop)
    | .key =>
      let (k, t) ← nodeUnless fuel depth ⟨true, true⟩ stops t.drop
      let (v, t) ← value fuel depth ⟨true, true⟩ stops t
      let (es, t) ← blockEntries fuel depth t
      .ok ((k, v) :: es, t)
    | _ => .error .malformed

/-- Items of a sequence between brackets; one pair alone is a mapping. -/
def flowItems : (fuel depth : Nat) → (first : Bool) → Draft → Except Fault (List Nat × Draft)
  | 0, _, _, _ => .error .tooDeep
  | fuel + 1, depth, first, t => do
    let stops (k : Token) : Bool := k matches .flowEntry | .flowSequenceEnd
    match ← t.peek with
    | .flowSequenceEnd => .ok ([], t.drop)
    | k =>
      let t ← afterEntry first k t
      match ← t.peek with
      | .flowSequenceEnd => .ok ([], t.drop)
      | .key =>
        let (pair, t) := t.add ⟨.mapping, .mapping []⟩
        let (k, t) ← nodeUnless fuel (depth - 1) ⟨false, false⟩
          (fun (k : Token) => k matches .value | .flowEntry | .flowSequenceEnd) t.drop
        let (v, t) ← value fuel (depth - 1) ⟨false, false⟩ stops t
        let t := t.complete pair (.mapping [(k, v)])
        let (ns, t) ← flowItems fuel depth false t
        .ok (pair :: ns, t)
      | _ =>
        let (n, t) ← node fuel depth ⟨false, false⟩ t
        let (ns, t) ← flowItems fuel depth false t
        .ok (n :: ns, t)

/-- Entries of a mapping between braces; a key alone has an empty value. -/
def flowEntries :
    (fuel depth : Nat) → (first : Bool) → Draft → Except Fault (List (Nat × Nat) × Draft)
  | 0, _, _, _ => .error .tooDeep
  | fuel + 1, depth, first, t => do
    let stops (k : Token) : Bool := k matches .flowEntry | .flowMappingEnd
    match ← t.peek with
    | .flowMappingEnd => .ok ([], t.drop)
    | k =>
      let t ← afterEntry first k t
      match ← t.peek with
      | .flowMappingEnd => .ok ([], t.drop)
      | .key =>
        let (k, t) ← nodeUnless fuel depth ⟨false, false⟩
          (fun (k : Token) => k matches .value | .flowEntry | .flowMappingEnd) t.drop
        let (v, t) ← value fuel depth ⟨false, false⟩ stops t
        let (es, t) ← flowEntries fuel depth false t
        .ok ((k, v) :: es, t)
      | _ =>
        let (k, t) ← node fuel depth ⟨false, false⟩ t
        let (v, t) := t.addEmpty
        let (es, t) ← flowEntries fuel depth false t
        .ok ((k, v) :: es, t)

end

/-- Directives in front of a document: the version once, and each handle once. -/
def directives : (fuel : Nat) → (versioned : Bool) → (handles : List (List Nat × List Nat)) → Draft →
    Except Fault Draft
  | 0, _, _, t => .error t.fault
  | fuel + 1, versioned, handles, t => do
    match ← t.peek with
    | .directive (.version major) =>
      if versioned || major != 1 then .error .malformed
      else directives fuel true handles t.drop
    | .directive (.handle name front) =>
      if (handles.lookup name).isSome then .error .malformed
      else directives fuel versioned ((name, front) :: handles) t.drop
    | .directive .other => directives fuel versioned handles t.drop
    | .documentStart => .ok { t.drop with handles := handles ++ standardHandles }
    | _ => .error .malformed

/-- Skips marks of ended documents. -/
def skipEnds (t : Draft) : Draft := { t with tokens := t.tokens.dropWhile (· == .documentEnd) }

def isBetween (k : Token) : Bool := k matches .directive _ | .documentStart | .documentEnd | .finish

/-- The first node of the only document of a text, if there is one, and all nodes. -/
def document (t : Draft) : Except Fault (Option (Nat × Graph)) := do
  let fuel := 8 * t.tokens.length + 8
  let finish (n : Nat) (t : Draft) : Except Fault (Option (Nat × Graph)) := do
    match ← t.skipEnds.peek with
    | .finish => .ok (some (n, t.nodes))
    | _ => .error .malformed
  match ← t.peek with
  | .directive _ | .documentStart =>
    let t ← t.directives fuel false []
    let (n, t) ← nodeUnless fuel maxDepth ⟨true, false⟩ isBetween t
    finish n t
  | .finish => .ok none
  | _ =>
    let (n, t) ← node fuel maxDepth ⟨true, false⟩ t
    finish n t

end Draft

/-- Reads the nodes of a text. -/
def Graph.read (ps : List Nat) : Except Fault (Option (Nat × Graph)) :=
  let (tokens, fault) := tokens ps
  Draft.document
    { tokens, fault := fault.getD .malformed, handles := Draft.standardHandles }

end FleetProbe.Yaml
