import FleetProbe.Text.Basic
/-!
A place in a YAML text: what is left of it, with the line and the column.
-/

namespace FleetProbe.Yaml

/-- Why a text cannot be read. -/
inductive Fault where
  /-- Not the YAML that a configuration may use. -/
  | malformed
  /-- An escape names a character beyond the last one. -/
  | noSuchCharacter
  /-- An escape is a number too large for any character. -/
  | hugeCharacter
  /-- A text marked as an integer is none in its base. -/
  | badInteger (base : Nat) (t : Text)
  | hugeInteger
  /-- A text marked as a number is none. -/
  | badNumber (t : Text)
  /-- A place of a number in sixties is beyond all numbers. -/
  | hugePlace
  /-- A text marked as a number has no digits at all. -/
  | noDigits
  /-- A text marked as a boolean is none. -/
  | badBoolean
  /-- A text marked as a date is none. -/
  | badDate
  /-- A mapping stands where a date must be. -/
  | mappingAsDate
  /-- There is no such day or time of day. -/
  | noSuchInstant (why : String)
  | tooDeep
  deriving DecidableEq, Repr

def isBreak (p : Nat) : Bool := p == 0xa || p == 0x85 || p == 0x2028 || p == 0x2029

/-- Whether a line ends here; the text may end too. -/
def endsLine (p : Option Nat) : Bool := p.all isBreak

/-- Whether a word ends here at a blank. -/
def endsWord (p : Option Nat) : Bool := p.all fun p => p == 0x20 || isBreak p

/-- Whether a word ends here; a tab counts. -/
def endsToken (p : Option Nat) : Bool := p.all fun p => p == 0x20 || p == 0x9 || isBreak p

/-- Characters that a text may hold. -/
def isAllowed (p : Nat) : Bool :=
  p == 0x9 || p == 0xa || p == 0xd || (0x20 ≤ p && p ≤ 0x7e) || p == 0x85
    || (0xa0 ≤ p && p ≤ 0xd7ff) || (0xe000 ≤ p && p ≤ 0xfffd) || 0x10000 ≤ p

/-- Characters of names. -/
def isNameChar (p : Nat) : Bool :=
  (0x30 ≤ p && p ≤ 0x39) || (0x41 ≤ p && p ≤ 0x5a) || (0x61 ≤ p && p ≤ 0x7a) || p == 0x2d
    || p == 0x5f

structure Source where
  rest : List Nat
  index : Nat := 0
  line : Nat := 0
  column : Nat := 0
  deriving DecidableEq, Repr

namespace Source

def peek (s : Source) : Option Nat := s.rest.head?

def peekAt (s : Source) (n : Nat) : Option Nat := s.rest[n]?

def next (s : Source) : Source :=
  match s.rest with
  | [] => s
  | p :: rest =>
    if isBreak p then ⟨rest, s.index + 1, s.line + 1, 0⟩
    else ⟨rest, s.index + 1, s.line, if p = 0xfeff then s.column else s.column + 1⟩

def skip : (n : Nat) → Source → Source
  | 0, s => s
  | n + 1, s => skip n s.next

/-- Characters of one kind at the front, and the place behind them. -/
def span (s : Source) (kind : Nat → Bool) : List Nat × Source :=
  let run := s.rest.takeWhile kind
  (run, s.skip run.length)

def skipSpaces (s : Source) : Source := (s.span (· == 0x20)).2

/-- Skips the rest of a line if it is a comment. -/
def skipComment (s : Source) : Source :=
  if s.peek = some 0x23 then (s.span fun p => !isBreak p).2 else s

/-- A line end: most become the usual one. -/
def lineBreak? (s : Source) : Option (Nat × Source) :=
  s.peek.bind fun p =>
    if p = 0xa ∨ p = 0x85 then some (0xa, s.next)
    else if isBreak p then some (p, s.next)
    else none

/-- Goes behind a line end, if one is here. -/
def skipBreak (s : Source) : Source := (s.lineBreak?.map Prod.snd).getD s

/-- Three characters that separate documents. -/
def isMarker (s : Source) (p : Nat) : Bool :=
  s.rest.take 3 == [p, p, p] && endsToken (s.peekAt 3)

def isSeparator (s : Source) : Bool := s.isMarker 0x2d || s.isMarker 0x2e

/-- Nothing but blanks and a comment may be left on the line, which is skipped. -/
def finishLine (s : Source) : Except Fault Source :=
  let s := s.skipSpaces.skipComment
  if endsLine s.peek then .ok s.skipBreak else .error .malformed

end Source

end FleetProbe.Yaml
