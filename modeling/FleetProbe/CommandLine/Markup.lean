import FleetProbe.CommandLine.Sign
import FleetProbe.Text.Case
/-!
Texts with marks for style, as the terminal shows them. A mark stands in brackets and begins with a
small letter or one of three signs; one that begins with a slash ends the style of an earlier mark.
A backslash in front of a bracket makes it a bracket.
-/

namespace FleetProbe.CommandLine.Markup

/-- Pieces of a text with marks. -/
inductive Piece where
  | plain (ps : List Nat)
  | mark (name : List Nat)
  deriving DecidableEq, Repr

def beginsMark (p : Nat) : Bool :=
  (0x61 ≤ p && p ≤ 0x7a) || p == 0x23 || p == 0x2f || p == 0x40

/-- What a mark holds, and what is behind it, from its first character on. -/
def mark? (ps : List Nat) : Option (List Nat × List Nat) :=
  if ps.head?.any beginsMark then
    let inner := ps.takeWhile fun p => p != 0x5b && p != 0x5d
    match ps.drop inner.length with
    | 0x5d :: rest => some (inner, rest)
    | _ => none
  else none

/-- Splits a text; `plain` holds characters in reverse, and `fuel` bounds the characters. -/
def pieces : (fuel : Nat) → (plain : List Nat) → List Nat → List Piece
  | 0, plain, _ => [.plain plain.reverse]
  | _, plain, [] => [.plain plain.reverse]
  | fuel + 1, plain, p :: ps =>
    let slashes := (p :: ps).takeWhile (· == 0x5c)
    match (p :: ps).drop slashes.length with
    | 0x5b :: rest =>
      match mark? rest with
      | some (name, after) =>
        let half := List.replicate (slashes.length / 2) 0x5c
        if slashes.length % 2 = 1 then
          [.plain plain.reverse, .plain half, .plain (0x5b :: name ++ [0x5d])]
            ++ pieces fuel [] after
        else [.plain plain.reverse, .plain half, .mark name] ++ pieces fuel [] after
      | none => pieces fuel (0x5b :: slashes ++ plain) rest
    | _ => pieces fuel (p :: plain) ps

/-- Brackets that no mark uses lose a backslash. -/
def unescape : List Nat → List Nat
  | 0x5c :: 0x5b :: ps => 0x5b :: unescape ps
  | p :: ps => p :: unescape ps
  | [] => []

/-- Characters that only move the cursor. -/
def isMotion (p : Nat) : Bool := p == 0x7 || p == 0x8 || p == 0xb || p == 0xc || p == 0xd

def shownPlain (ps : List Nat) : List Nat :=
  let ps := unescape ps
  (Sign.replace ps.length ps).filter fun p => !isMotion p

/-- Traits of letters, each with its short name, in the order in which a style tells them. -/
def traits : List (Text × Text) :=
  [("bold", "b"), ("dim", "d"), ("italic", "i"), ("underline", "u"), ("blink", "blink"),
    ("blink2", "blink2"), ("reverse", "r"), ("conceal", "c"), ("strike", "s"),
    ("underline2", "uu"), ("frame", "frame"), ("encircle", "encircle"), ("overline", "o")]

/-- The name of a style, which may have a value behind it. Styles of the same traits are one style,
and all others go by how they are written. -/
def styleName (ps : List Nat) : List Nat :=
  let name := (Text.trimBy Text.isBlank (ps.takeWhile (· != 0x3d))).map Text.lowerPoint
  let words := (name.splitBy fun a b => Text.isBlank a == Text.isBlank b).filter
    fun w => !w.any Text.isBlank
  let isNamed (t : Text × Text) (w : List Nat) := w == t.1.points || w == t.2.points
  if words.all fun w => traits.any (isNamed · w) then
    (Text.join " " ((traits.filter fun t => words.any (isNamed t)).map Prod.fst)).points
  else name

/-- What is shown of pieces; `styles` are the open styles, the newest first. A mark must not end a
style that is not open. -/
def shown? (styles : List (List Nat)) : List Piece → Option (List Nat)
  | [] => some []
  | .plain ps :: rest => (shown? styles rest).map (shownPlain ps ++ ·)
  | .mark (0x2f :: name) :: rest =>
    let name := styleName name
    if name.isEmpty then
      match styles with
      | [] => none
      | _ :: styles => shown? styles rest
    else if styles.contains name then shown? (styles.erase name) rest
    else none
  | .mark name :: rest => shown? (styleName name :: styles) rest

/-- The text that is shown; `none` when a mark ends a style that is not open. -/
def read? (t : Text) : Option Text :=
  (shown? [] (pieces (t.length + 1) [] t.points)).map Text.mk

/-- Blanks up to the next multiple of eight columns stand for a tab. -/
def spread (column : Nat) : List Nat → List Nat
  | [] => []
  | p :: ps =>
    if p = 0x9 then
      let width := 8 - column % 8
      List.replicate width 0x20 ++ spread (column + width) ps
    else p :: spread (column + 1) ps

/-- The first line of what is shown. -/
def firstLine (t : Text) : Text := ⟨spread 0 (t.points.takeWhile (· != 0xa))⟩

end FleetProbe.CommandLine.Markup
