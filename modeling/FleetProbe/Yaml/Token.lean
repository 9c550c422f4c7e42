import FleetProbe.Text.Utf8
import FleetProbe.Yaml.Scalar
/-!
Tokens of a YAML document, and how those that spell a name are read.
-/

namespace FleetProbe.Yaml

inductive Directive where
  | version (major : Nat)
  /-- A handle that stands for the front part of tags. -/
  | handle (name front : List Nat)
  | other
  deriving DecidableEq, Repr

inductive Token where
  | directive (d : Directive)
  | documentStart
  | documentEnd
  | sequenceStart
  | mappingStart
  /-- The end of a sequence or mapping that indentation shows. -/
  | blockEnd
  | entry
  | key
  | value
  | flowSequenceStart
  | flowSequenceEnd
  | flowMappingStart
  | flowMappingEnd
  | flowEntry
  | alias (name : List Nat)
  | anchor (name : List Nat)
  /-- A tag, with the handle that its front part stands for. -/
  | tag (handle : Option (List Nat)) (rest : List Nat)
  | scalar (plain : Bool) (text : List Nat)
  | finish
  deriving DecidableEq, Repr

/-- Characters that may follow a name. -/
def endsName (p : Option Nat) : Bool :=
  endsToken p || p.any fun p => [0x3f, 0x3a, 0x2c, 0x5d, 0x7d, 0x25, 0x40, 0x60].contains p

/-- The name of an anchor. -/
def anchorName (s : Source) : Except Fault (List Nat × Source) :=
  let (name, s) := s.span isNameChar
  if name.isEmpty || !endsName s.peek then .error .malformed else .ok (name, s)

def isUriChar (p : Nat) : Bool :=
  (isNameChar p && p != 0x2d && p != 0x5f)
    || ("-;/?:@&=+$,_.!~*'()[]".toList.map Char.toNat).contains p

/-- Bytes written as two hexadecimal digits behind a percent sign each. -/
def uriBytes : (fuel : Nat) → Source → Except Fault (List UInt8 × Source)
  | 0, s => .ok ([], s)
  | fuel + 1, s =>
    if s.peek = some 0x25 then
      let digits := s.next.rest.take 2
      match hex? digits with
      | some n =>
        if digits.length = 2 then
          (uriBytes fuel (s.skip 3)).map fun (bs, s) => (n.toUInt8 :: bs, s)
        else .error .malformed
      | none => .error .malformed
    else .ok ([], s)

/-- Characters of a tag, none of which need be there; `fuel` bounds its pieces. -/
def uriParts : (fuel : Nat) → Source → Except Fault (List Nat × Source)
  | 0, s => .ok ([], s)
  | fuel + 1, s =>
    let (run, s) := s.span isUriChar
    if s.peek = some 0x25 then
      match uriBytes s.rest.length s with
      | .error f => .error f
      | .ok (bs, s) =>
        match Text.decodePoints? bs with
        | none => .error .malformed
        | some ps => (uriParts fuel s).map fun (more, s) => (run ++ ps ++ more, s)
    else .ok (run, s)

def uri (s : Source) : Except Fault (List Nat × Source) :=
  match uriParts s.rest.length s with
  | .error f => .error f
  | .ok (ps, t) => if t.index = s.index then .error .malformed else .ok (ps, t)

/-- A handle: an exclamation mark, or a name between two of them. -/
def tagHandle (s : Source) : Except Fault (List Nat × Source) :=
  if s.peek ≠ some 0x21 then .error .malformed
  else if s.peekAt 1 = some 0x20 then .ok ([0x21], s.next)
  else
    let (name, t) := s.next.span isNameChar
    if t.peek = some 0x21 then .ok (0x21 :: name ++ [0x21], t.next) else .error .malformed

/-- Whether another exclamation mark follows in the same word. -/
def hasHandle (s : Source) : Bool :=
  (s.next.rest.takeWhile fun p => !endsWord (some p)).contains 0x21

def tagToken (s : Source) : Except Fault (Token × Source) :=
  let read : Except Fault (Token × Source) :=
    if s.peekAt 1 = some 0x3c then
      match uri (s.skip 2) with
      | .error f => .error f
      | .ok (ps, s) => if s.peek = some 0x3e then .ok (.tag none ps, s.next) else .error .malformed
    else if endsToken (s.peekAt 1) then .ok (.tag none [0x21], s.next)
    else
      match if hasHandle s then tagHandle s else .ok ([0x21], s.next) with
      | .error f => .error f
      | .ok (handle, s) => (uri s).map fun (ps, s) => (.tag (some handle) ps, s)
  match read with
  | .error f => .error f
  | .ok (t, s) => if endsWord s.peek then .ok (t, s) else .error .malformed

def digits (s : Source) : Except Fault (Nat × Source) :=
  let (ds, s) := s.span fun p => 0x30 ≤ p && p ≤ 0x39
  if ds.isEmpty then .error .malformed
  else .ok (ds.foldl (fun n p => n * 10 + (p - 0x30)) 0, s)

/-- A directive from its percent sign to the end of its line. -/
def directiveToken (s : Source) : Except Fault (Token × Source) := do
  let (name, s) := s.next.span isNameChar
  if name.isEmpty || !endsWord s.peek then .error .malformed
  else
    let (d, s) ←
      if name = "YAML".toList.map Char.toNat then do
        let (major, s) ← digits s.skipSpaces
        if s.peek = some 0x2e then
          let (_, s) ← digits s.next
          if endsWord s.peek then .ok (.version major, s) else .error .malformed
        else .error .malformed
      else if name = "TAG".toList.map Char.toNat then do
        let (handle, s) ← tagHandle s.skipSpaces
        if s.peek = some 0x20 then
          let (front, s) ← uri s.skipSpaces
          if endsWord s.peek then .ok (.handle handle front, s) else .error .malformed
        else .error .malformed
      else .ok (Directive.other, (s.span fun p => !isBreak p).2)
    s.finishLine.map fun s => (.directive d, s)

end FleetProbe.Yaml
