import FleetProbe.Text.Basic
import FleetProbe.Text.Classes
/-!
Files of variables: a name, an equals sign and a value on each line, with comments and quotes. A
line that cannot be read is passed over. A value may refer to variables by `${name}` or, with a
default, `${name:-default}`.
-/

namespace FleetProbe.Settings.EnvFile

def isBreak (p : Nat) : Bool := p == 0xa || p == 0xd

/-- Blanks that do not end a line. -/
def isInner (p : Nat) : Bool := Text.isBlank p && !isBreak p

def skipBlanks (ps : List Nat) : List Nat := ps.dropWhile Text.isBlank

def skipInner (ps : List Nat) : List Nat := ps.dropWhile isInner

/-- Drops what is left of a line. -/
def dropLine (ps : List Nat) : List Nat := (ps.dropWhile fun p => !isBreak p).drop 1

/-- Characters up to a quote that no backslash hides; `none` when there is no such quote. A backslash
hides another one as well. -/
def quotedPart? (quote : Nat) : List Nat → Option (List Nat × List Nat)
  | [] => none
  | 0x5c :: p :: ps =>
    if p = quote ∨ p = 0x5c then (quotedPart? quote ps).map fun (a, b) => (0x5c :: p :: a, b)
    else (quotedPart? quote (p :: ps)).map fun (a, b) => (0x5c :: a, b)
  | p :: ps =>
    if p = quote then some ([], ps) else (quotedPart? quote ps).map fun (a, b) => (p :: a, b)

/-- Splits at the last quote. -/
def lastQuote? (quote : Nat) : List Nat → Option (List Nat × List Nat)
  | [] => none
  | p :: ps =>
    match lastQuote? quote ps with
    | some (a, b) => some (p :: a, b)
    | none => if p = quote then some ([], ps) else none

/-- What stands between quotes: up to the first quote that is not escaped or, if all are, up to the
last one. -/
def between? (quote : Nat) (ps : List Nat) : Option (List Nat × List Nat) :=
  (quotedPart? quote ps).or (lastQuote? quote ps)

/-- Characters that a backslash stands for within double quotes. -/
def escapes : List (Nat × Nat) :=
  [(0x5c, 0x5c), (0x27, 0x27), (0x22, 0x22), (0x61, 0x7), (0x62, 0x8), (0x66, 0xc), (0x6e, 0xa),
    (0x72, 0xd), (0x74, 0x9), (0x76, 0xb)]

/-- Within single quotes a backslash hides a quote or another backslash only. -/
def plainEscapes : List (Nat × Nat) := escapes.take 2

def unescape (table : List (Nat × Nat)) : List Nat → List Nat
  | 0x5c :: p :: ps =>
    match table.lookup p with
    | some q => q :: unescape table ps
    | none => 0x5c :: unescape table (p :: ps)
  | p :: ps => p :: unescape table ps
  | [] => []

/-- The part in front of a comment, which starts with a blank. -/
def dropComment : List Nat → List Nat
  | [] => []
  | p :: ps =>
    if Text.isBlank p && (skipBlanks ps).head? == some 0x23 then [] else p :: dropComment ps

def trimRight (ps : List Nat) : List Nat := (ps.reverse.dropWhile Text.isBlank).reverse

/-- A value and the blanks in front of it; `none` when its quote is not closed. -/
def value? (ps : List Nat) : Option (List Nat × List Nat) :=
  match skipInner ps with
  | 0x27 :: rest => (between? 0x27 rest).map fun (v, rest) => (unescape plainEscapes v, rest)
  | 0x22 :: rest => (between? 0x22 rest).map fun (v, rest) => (unescape escapes v, rest)
  | _ =>
    some (trimRight (skipInner (dropComment (ps.takeWhile fun p => !isBreak p))),
      ps.dropWhile fun p => !isBreak p)

/-- Drops the word that marks a variable for export. -/
def dropExport (ps : List Nat) : List Nat :=
  let word := "export".toList.map Char.toNat
  if ps.take 6 == word && (ps.drop 6).head?.any isInner then skipInner (ps.drop 6) else ps

/-- A name, if the line has one; a comment has none. -/
def name? (ps : List Nat) : Option (Option (List Nat) × List Nat) :=
  match ps with
  | 0x23 :: _ => some (none, ps)
  | 0x27 :: rest =>
    match rest.dropWhile (· != 0x27) with
    | _ :: after =>
      if rest.head? == some 0x27 then none else some (some (rest.takeWhile (· != 0x27)), after)
    | [] => none
  | _ =>
    let plain (p : Nat) := p != 0x3d && p != 0x23 && !Text.isBlank p
    let name := ps.takeWhile plain
    if name.isEmpty then none else some (some name, ps.dropWhile plain)

/-- The end of a line, with a comment in front of it; `none` when something else is there. -/
def lineEnd? (ps : List Nat) : Option (List Nat) :=
  let rest := match skipInner ps with
    | 0x23 :: more => more.dropWhile fun p => !isBreak p
    | rest => rest
  match rest with
  | [] => some []
  | p :: rest => if isBreak p then some rest else none

/-- One line: what it binds, if anything, and what follows it. -/
def line (ps : List Nat) : Option (List Nat × Option (List Nat)) × List Nat :=
  match name? (dropExport ps) with
  | none => (none, dropLine (dropExport ps))
  | some (name, rest) =>
    match skipInner rest with
    | 0x3d :: rest =>
      match value? rest with
      | none => (none, dropLine rest)
      | some (v, rest) =>
        match lineEnd? rest with
        | some rest => (name.map fun n => (n, some v), rest)
        | none => (none, dropLine rest)
    | rest =>
      match lineEnd? rest with
      | some rest => (name.map fun n => (n, none), rest)
      | none => (none, dropLine rest)

/-- All lines; `fuel` bounds their number. -/
def lines : (fuel : Nat) → List Nat → List (List Nat × Option (List Nat))
  | 0, _ => []
  | fuel + 1, ps =>
    match skipBlanks ps with
    | [] => []
    | ps =>
      let (binding, rest) := line ps
      binding.toList ++ lines fuel rest

/-- Replaces references to variables; `fuel` bounds their number. -/
def expand (lookup : List Nat → Option (List Nat)) : (fuel : Nat) → List Nat → List Nat
  | 0, ps => ps
  | _, [] => []
  | fuel + 1, 0x24 :: 0x7b :: ps =>
    let name := ps.takeWhile fun p => p != 0x7d && p != 0x3a
    match ps.dropWhile fun p => p != 0x7d && p != 0x3a with
    | 0x7d :: rest => (lookup name).getD [] ++ expand lookup fuel rest
    | 0x3a :: 0x2d :: more =>
      match more.dropWhile (· != 0x7d) with
      | _ :: rest => (lookup name).getD (more.takeWhile (· != 0x7d)) ++ expand lookup fuel rest
      | [] => 0x24 :: expand lookup fuel (0x7b :: ps)
    | _ => 0x24 :: expand lookup fuel (0x7b :: ps)
  | fuel + 1, p :: ps => p :: expand lookup fuel ps

/-- Names in order of first appearance, with the value bound last; a name without one is bound to
nothing. -/
abbrev Bindings := List (List Nat × Option (List Nat))

namespace Bindings

def put (name : List Nat) (value : Option (List Nat)) : Bindings → Bindings
  | [] => [(name, value)]
  | (n, v) :: rest => if n = name then (n, value) :: rest else (n, v) :: put name value rest

end Bindings

def bind (environment bound : Bindings) (b : List Nat × Option (List Nat)) : Bindings :=
  let lookup (name : List Nat) : Option (List Nat) :=
    ((bound.lookup name).or (environment.lookup name)).map fun v => v.getD []
  bound.put b.1 (b.2.map fun v => expand lookup (v.length + 1) v)

/-- The variables of a file. A mark of the byte order in front does not count. -/
def read (environment : List (Text × Text)) (file : List Nat) : List (Text × Option Text) :=
  let known : Bindings := environment.map fun (n, v) => (n.points, some v.points)
  let ps := Text.unifyLines (if file.head? = some 0xfeff then file.tail else file)
  let bound := (lines (ps.length + 1) ps).foldl (bind known) []
  bound.map fun (n, v) => (⟨n⟩, v.map Text.mk)

end FleetProbe.Settings.EnvFile
