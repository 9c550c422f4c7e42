import FleetProbe.Yaml.Token
/-!
From a text to its tokens: indentation shows where collections begin and end, and what stands in
front of a colon turns out to be a key only when the colon comes.
-/

namespace FleetProbe.Yaml

/-- A token that may turn out to be the start of a key. -/
structure PossibleKey where
  /-- Tokens in front of it. -/
  position : Nat
  /-- Nothing but a key may stand there. -/
  required : Bool
  index : Nat
  line : Nat
  column : Nat
  deriving DecidableEq, Repr

structure Layout where
  source : Source
  /-- Tokens so far in reverse, and their number. -/
  tokens : List Token := []
  count : Nat := 0
  /-- Open brackets and braces. -/
  flow : Nat := 0
  indent : Int := -1
  /-- Indentations of the collections around. -/
  indents : List Int := []
  keyAllowed : Bool := true
  /-- Possible keys by the number of open brackets. -/
  keys : List (Nat × PossibleKey) := []
  deriving Repr

namespace Layout

def push (l : Layout) (t : Token) : Layout :=
  { l with tokens := t :: l.tokens, count := l.count + 1 }

/-- Puts a token behind the first `position` ones. -/
def insert (l : Layout) (position : Nat) (t : Token) : Layout :=
  let k := l.count - position
  { l with tokens := l.tokens.take k ++ t :: l.tokens.drop k, count := l.count + 1 }

/-- Longest distance from a key to its colon. -/
def keyReach : Nat := 1024

/-- Forgets keys that can have no colon any more. -/
def dropStale (l : Layout) : Except Fault Layout :=
  let stale (k : PossibleKey) : Bool :=
    k.line != l.source.line || keyReach < l.source.index - k.index
  if l.keys.any fun e => stale e.2 && e.2.required then .error .malformed
  else .ok { l with keys := l.keys.filter fun e => !stale e.2 }

/-- Forgets the possible key of this level. -/
def dropKey (l : Layout) : Except Fault Layout :=
  if l.keys.any fun e => e.1 == l.flow && e.2.required then .error .malformed
  else .ok { l with keys := l.keys.filter fun e => e.1 != l.flow }

/-- Takes note that a key may begin here. -/
def saveKey (l : Layout) : Except Fault Layout :=
  if l.keyAllowed then
    let required := l.flow == 0 && l.indent == (l.source.column : Int)
    l.dropKey.map fun l =>
      let k : PossibleKey :=
        ⟨l.count, required, l.source.index, l.source.line, l.source.column⟩
      { l with keys := (l.flow, k) :: l.keys }
  else .ok l

/-- Ends the collections that are indented more than a column. -/
def unwind (column : Int) (l : Layout) : Layout :=
  let rec close : Int → List Int → List Token → List Token × Int × List Int
    | indent, [], ended => (ended, indent, [])
    | indent, outer :: rest, ended =>
      if column < indent then close outer rest (.blockEnd :: ended)
      else (ended, indent, outer :: rest)
  if l.flow = 0 then
    let (ended, indent, indents) := close l.indent l.indents []
    { l with
      tokens := ended ++ l.tokens, count := l.count + ended.length, indent, indents }
  else l

/-- Begins a collection at a column unless one is there. -/
def isNested (l : Layout) (column : Nat) : Bool := l.indent < (column : Int)

def nest (l : Layout) (column : Nat) : Layout :=
  { l with indents := l.indent :: l.indents, indent := column }

def advance (l : Layout) (n : Nat) : Layout := { l with source := l.source.skip n }

def allow (l : Layout) (keyAllowed : Bool) : Layout := { l with keyAllowed }

/-- Skips blanks, comments and line ends; `fuel` bounds the lines. A new line may begin with a
key. -/
def skipGap : (fuel : Nat) → Layout → Layout
  | 0, l => l
  | fuel + 1, l =>
    let s := l.source.skipSpaces.skipComment
    match s.lineBreak? with
    | none => { l with source := s }
    | some (_, s) => skipGap fuel { l with source := s, keyAllowed := l.keyAllowed || l.flow == 0 }

/-- Ends all collections, for a directive or a mark between documents. -/
def outermost (l : Layout) : Except Fault Layout :=
  (l.unwind (-1)).dropKey.map fun l => l.allow false

def marker (l : Layout) (t : Token) : Except Fault Layout :=
  l.outermost.map fun l => (l.advance 3).push t

def openFlow (l : Layout) (t : Token) : Except Fault Layout :=
  l.saveKey.map fun l => (({ l with flow := l.flow + 1 }.allow true).advance 1).push t

def closeFlow (l : Layout) (t : Token) : Except Fault Layout :=
  if l.flow = 0 then .error .malformed
  else l.dropKey.map fun l => (({ l with flow := l.flow - 1 }.allow false).advance 1).push t

def flowEntry (l : Layout) : Except Fault Layout :=
  l.dropKey.map fun l => ((l.allow true).advance 1).push .flowEntry

/-- Begins a collection of a block at this column, where one may begin. -/
def beginBlock (l : Layout) (t : Token) : Except Fault Layout :=
  if l.flow ≠ 0 then .ok l
  else if ¬l.keyAllowed then .error .malformed
  else if l.isNested l.source.column then .ok ((l.nest l.source.column).push t)
  else .ok l

def blockEntry (l : Layout) : Except Fault Layout := do
  let l ← (← l.beginBlock .sequenceStart).dropKey
  .ok (((l.allow true).advance 1).push .entry)

/-- A key that a question mark announces. -/
def explicitKey (l : Layout) : Except Fault Layout := do
  let l ← (← l.beginBlock .mappingStart).dropKey
  .ok (((l.allow (l.flow == 0)).advance 1).push .key)

/-- A colon: what may have been a key is one. -/
def colon (l : Layout) : Except Fault Layout := do
  match l.keys.lookup l.flow with
  | some k =>
    let l := { l with keys := l.keys.filter fun e => e.1 != l.flow }.insert k.position .key
    let l :=
      if l.flow == 0 && l.isNested k.column then
        (l.nest k.column).insert k.position .mappingStart
      else l
    .ok (((l.allow false).advance 1).push .value)
  | none =>
    let l ← (← l.beginBlock .mappingStart).dropKey
    .ok (((l.allow (l.flow == 0)).advance 1).push .value)

/-- A token that may begin a key and is followed by none. -/
def word (l : Layout) (read : Source → Except Fault (Token × Source)) : Except Fault Layout := do
  let l ← l.saveKey
  let (t, source) ← read l.source
  .ok ({ l with source, keyAllowed := false }.push t)

def quotedToken (double : Bool) (s : Source) : Except Fault (Token × Source) :=
  (quoted double (s.rest.length + 1) s.next).map fun (ps, s) => (.scalar false ps, s)

def named (make : List Nat → Token) (s : Source) : Except Fault (Token × Source) :=
  (anchorName s.next).map fun (name, s) => (make name, s)

def blockScalar (l : Layout) (fold : Bool) : Except Fault Layout := do
  let l ← l.dropKey
  let (ps, source) ← block fold l.indent l.source.next
  .ok ({ l with source, keyAllowed := true }.push (.scalar false ps))

def plainScalar (l : Layout) : Except Fault Layout :=
  l.saveKey.map fun l =>
    let (ps, ended, source) :=
      plain (l.flow != 0) (l.indent + 1) (l.source.rest.length + 1) [] false l.source
    { l with source, keyAllowed := ended }.push (.scalar true ps)

/-- Whether a plain text may begin with a character. -/
def startsPlain (flow : Bool) (p : Nat) (next : Option Nat) : Bool :=
  let marks := "-?:,[]\x7b\x7d#&*!|>'\"%@".toList.map Char.toNat ++ [0x60]
  (!endsToken (some p) && !marks.contains p)
    || (!endsToken next && (p == 0x2d || (!flow && (p == 0x3f || p == 0x3a))))

/-- Reads the next token at a character. -/
def fetch (l : Layout) (p : Nat) : Except Fault Layout :=
  let s := l.source
  let block := l.flow == 0
  let gap := endsToken (s.peekAt 1)
  if p = 0x25 ∧ s.column = 0 then do
    let l ← l.outermost
    let (t, source) ← directiveToken l.source
    .ok ({ l with source }.push t)
  else if s.column = 0 ∧ s.isMarker 0x2d then l.marker .documentStart
  else if s.column = 0 ∧ s.isMarker 0x2e then l.marker .documentEnd
  else if p = 0x5b then l.openFlow .flowSequenceStart
  else if p = 0x7b then l.openFlow .flowMappingStart
  else if p = 0x5d then l.closeFlow .flowSequenceEnd
  else if p = 0x7d then l.closeFlow .flowMappingEnd
  else if p = 0x2c then l.flowEntry
  else if p = 0x2d ∧ gap then l.blockEntry
  else if p = 0x3f ∧ (¬block ∨ gap) then l.explicitKey
  else if p = 0x3a ∧ (¬block ∨ gap) then l.colon
  else if p = 0x2a then l.word (named .alias)
  else if p = 0x26 then l.word (named .anchor)
  else if p = 0x21 then l.word tagToken
  else if p = 0x7c ∧ block then l.blockScalar false
  else if p = 0x3e ∧ block then l.blockScalar true
  else if p = 0x27 then l.word (quotedToken false)
  else if p = 0x22 then l.word (quotedToken true)
  else if startsPlain (!block) p (s.peekAt 1) then l.plainScalar
  else .error .malformed

/-- Tokens so far in order. -/
def result (l : Layout) : List Token := l.tokens.reverse

/-- Tokens that are settled: a token that may turn out to be the start of a key, and all behind it,
have to wait for what follows. -/
def settled (l : Layout) : List Token :=
  let pending := l.keys.filter fun e =>
    e.2.line == l.source.line && l.source.index - e.2.index ≤ keyReach
  l.result.take (pending.foldl (fun n e => min n e.2.position) l.count)

/-- All tokens up to the end, or those that are settled before the first fault; `fuel` bounds their
number. -/
def run : (fuel : Nat) → Layout → List Token × Option Fault
  | 0, l => (l.result, some .malformed)
  | fuel + 1, l =>
    let gone := l.skipGap (l.source.rest.length + 1)
    match gone.dropStale with
    | .error f => (l.settled, some f)
    | .ok next =>
      let next := next.unwind next.source.column
      match next.source.peek with
      | none =>
        match (next.unwind (-1)).dropKey with
        | .error f => (l.settled, some f)
        | .ok next => ((next.push .finish).result, none)
      | some p =>
        match next.fetch p with
        | .error f => (l.settled, some f)
        | .ok next => run fuel next

end Layout

/-- The tokens of a text; without a fault the last one is `finish`. A mark of the byte order in
front does not count. -/
def tokens (ps : List Nat) : List Token × Option Fault :=
  if ps.any fun p => !isAllowed p then ([], some .malformed)
  else
    let s : Source := { rest := ps }
    let s := if s.peek = some 0xfeff then s.next else s
    Layout.run (ps.length + 2) { source := s }

end FleetProbe.Yaml
