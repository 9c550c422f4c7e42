import FleetProbe.Yaml.Source
import FleetProbe.Json.Reader
/-!
The texts of a YAML document: quoted, plain, and in blocks. Line ends within a text are folded, one
alone to a blank and each further one to itself.
-/

namespace FleetProbe.Yaml

/-! ## Quoted texts -/

/-- Characters that stand behind a backslash, with what they stand for. -/
def escapes : List (Nat × Nat) :=
  [(0x30, 0x0), (0x61, 0x7), (0x62, 0x8), (0x74, 0x9), (0x9, 0x9), (0x6e, 0xa), (0x76, 0xb),
    (0x66, 0xc), (0x72, 0xd), (0x65, 0x1b), (0x20, 0x20), (0x22, 0x22), (0x5c, 0x5c), (0x2f, 0x2f),
    (0x4e, 0x85), (0x5f, 0xa0), (0x4c, 0x2028), (0x50, 0x2029)]

/-- Letters behind a backslash, with the number of hexadecimal digits that follow. -/
def codeWidths : List (Nat × Nat) := [(0x78, 2), (0x75, 4), (0x55, 8)]

/-- The value of hexadecimal digits. -/
def hex? (ps : List Nat) : Option Nat :=
  ps.foldlM (fun n p => (Json.hexValue? p).map (n * 16 + ·)) 0

/-- The character with a number. -/
def characterOf (ps : List Nat) (width : Nat) : Except Fault Nat :=
  match hex? ps with
  | none => .error .malformed
  | some n =>
    if ps.length ≠ width then .error .malformed
    else if 0x80000000 ≤ n then .error .hugeCharacter
    else if 0x10ffff < n then .error .noSuchCharacter
    else .ok n

/-- Line ends and blanks up to other characters; `fuel` bounds the lines. No line may separate
documents. -/
def foldBreaks : (fuel : Nat) → Source → Except Fault (List Nat × Source)
  | 0, s => .ok ([], s)
  | fuel + 1, s =>
    if s.isSeparator then .error .malformed
    else
      let s := (s.span fun p => p == 0x20 || p == 0x9).2
      match s.lineBreak? with
      | none => .ok ([], s)
      | some (b, s) => (foldBreaks fuel s).map fun (bs, s) => (b :: bs, s)

/-- Folds a line end with those that follow it. -/
def folded (first : Nat) (more : List Nat) : List Nat :=
  (if first ≠ 0xa then [first] else if more.isEmpty then [0x20] else []) ++ more

/-- The rest of a quoted text behind its opening quote; `fuel` bounds its pieces. -/
def quoted (double : Bool) : (fuel : Nat) → Source → Except Fault (List Nat × Source)
  | 0, _ => .error .malformed
  | fuel + 1, s =>
    let followed (read : List Nat) (s : Source) :=
      (quoted double fuel s).map fun (ps, s) => (read ++ ps, s)
    match s.peek with
    | none => .error .malformed
    | some p =>
      if p = 0x27 ∧ ¬double then
        if s.peekAt 1 = some 0x27 then followed [0x27] (s.skip 2) else .ok ([], s.next)
      else if p = 0x22 ∧ double then .ok ([], s.next)
      else if p = 0x5c ∧ double then
        let s := s.next
        match s.peek with
        | none => .error .malformed
        | some e =>
          match escapes.lookup e, codeWidths.lookup e with
          | some q, _ => followed [q] s.next
          | none, some width =>
            match characterOf (s.next.rest.take width) width with
            | .ok q => followed [q] (s.next.skip width)
            | .error f => .error f
          | none, none =>
            if isBreak e then
              match foldBreaks s.rest.length s.skipBreak with
              | .ok (bs, s) => followed bs s
              | .error f => .error f
            else .error .malformed
      else if p = 0x20 ∨ p = 0x9 ∨ isBreak p then
        let (blanks, s) := s.span fun p => p == 0x20 || p == 0x9
        match s.lineBreak? with
        | none => if s.peek.isNone then .error .malformed else followed blanks s
        | some (b, s) =>
          match foldBreaks s.rest.length s with
          | .ok (bs, s) => followed (folded b bs) s
          | .error f => .error f
      else
        let (run, s) := s.span fun p =>
          !(p == 0x27 || p == 0x22 || p == 0x5c || p == 0x20 || p == 0x9 || isBreak p)
        if run.isEmpty then followed [p] s.next else followed run s

/-! ## Plain texts -/

def isFlowMark (p : Nat) : Bool := p == 0x2c || p == 0x5b || p == 0x5d || p == 0x7b || p == 0x7d

/-- Characters of a plain text up to a blank or a mark that ends it. -/
def plainRun (flow : Bool) : List Nat → List Nat
  | [] => []
  | p :: ps =>
    let colonEnds := p == 0x3a && (endsToken ps.head? || (flow && ps.head?.any isFlowMark))
    if endsToken (some p) || colonEnds || (flow && (isFlowMark p || p == 0x3f)) then []
    else p :: plainRun flow ps

/-- Blanks and line ends behind a line end; the list is absent at the start of another document. -/
def plainBreaks : (fuel : Nat) → Source → Option (List Nat) × Source
  | 0, s => (some [], s)
  | fuel + 1, s =>
    let s := s.skipSpaces
    match s.lineBreak? with
    | none => (some [], s)
    | some (b, s) =>
      if s.isSeparator then (none, s)
      else
        let (bs, s) := plainBreaks fuel s
        (bs.map (b :: ·), s)

/-- What stands between two runs of a plain text, and whether a line ended. Nothing at all ends the
text. -/
def plainGap (s : Source) : List Nat × Bool × Source :=
  let (blanks, s) := s.span (· == 0x20)
  match s.lineBreak? with
  | none => (blanks, false, s)
  | some (b, s) =>
    if s.isSeparator then ([], true, s)
    else
      let (bs, s) := plainBreaks s.rest.length s
      ((bs.map (folded b)).getD [], true, s)

/-- A plain text from here on, indented at least by `indent`; says whether it ended with a line. -/
def plain (flow : Bool) (indent : Int) : (fuel : Nat) → (gap : List Nat) → (ended : Bool) →
    Source → List Nat × Bool × Source
  | 0, _, ended, s => ([], ended, s)
  | fuel + 1, gap, ended, s =>
    if s.peek = some 0x23 then ([], ended, s)
    else
      let run := plainRun flow s.rest
      if run.isEmpty then ([], ended, s)
      else
        let (next, broke, s) := plainGap (s.skip run.length)
        if next.isEmpty || s.peek == some 0x23 || (!flow && (s.column : Int) < indent) then
          (gap ++ run, broke, s)
        else
          let (more, ended, s) := plain flow indent fuel next broke s
          (gap ++ run ++ more, ended, s)

/-! ## Blocks -/

/-- What happens to the line ends behind a block. -/
inductive Chomping where
  | clip
  | strip
  | keep
  deriving DecidableEq, Repr

/-- Head of a block: what happens at its end, and how far it is indented if that is said. -/
def blockHead (s : Source) : Except Fault (Chomping × Option Nat × Source) :=
  let chomping? (p : Option Nat) : Option Chomping :=
    if p = some 0x2b then some .keep else if p = some 0x2d then some .strip else none
  let digit? (p : Option Nat) : Option Nat :=
    p.bind fun p => if 0x30 ≤ p ∧ p ≤ 0x39 then some (p - 0x30) else none
  let (c, d, s) := match chomping? s.peek with
    | some c =>
      match digit? s.next.peek with
      | some d => (c, some d, s.skip 2)
      | none => (c, none, s.next)
    | none =>
      match digit? s.peek with
      | some d =>
        match chomping? s.next.peek with
        | some c => (c, some d, s.skip 2)
        | none => (.clip, some d, s.next)
      | none => (.clip, none, s)
  if d = some 0 ∨ ¬endsWord s.peek then .error .malformed
  else s.finishLine.map fun s => (c, d, s)

/-- Empty lines in front of a block, and the widest indentation among them. -/
def blockIndent : (fuel : Nat) → (widest : Nat) → Source → List Nat × Nat × Source
  | 0, widest, s => ([], widest, s)
  | fuel + 1, widest, s =>
    match s.lineBreak? with
    | some (b, s) =>
      let (bs, widest, s) := blockIndent fuel widest s
      (b :: bs, widest, s)
    | none =>
      if s.peek = some 0x20 then blockIndent fuel (max widest s.next.column) s.next
      else ([], widest, s)

/-- Skips spaces up to a column. -/
def skipIndent : (n : Nat) → Source → Source
  | 0, s => s
  | n + 1, s => if s.peek = some 0x20 then skipIndent n s.next else s

/-- Empty lines within a block, and the indentation of the line behind them. -/
def blockBreaks (indent : Nat) : (fuel : Nat) → Source → List Nat × Source
  | 0, s => ([], s)
  | fuel + 1, s =>
    let s := skipIndent (indent - s.column) s
    match s.lineBreak? with
    | none => ([], s)
    | some (b, s) =>
      let (bs, s) := blockBreaks indent fuel s
      (b :: bs, s)

/-- Lines of a block from here on, with the line ends in front of them. The last line end and the
empty lines behind it are left to the caller. -/
def blockLines (fold : Bool) (indent : Nat) : (fuel : Nat) → (before : List Nat) → Source →
    List Nat × List Nat × List Nat × Source
  | 0, before, s => ([], [], before, s)
  | fuel + 1, before, s =>
    if s.column ≠ indent ∨ s.peek.isNone then ([], [], before, s)
    else
      let blank (p : Option Nat) := p == some 0x20 || p == some 0x9
      let startsBlank := blank s.peek
      let (run, s) := s.span fun p => !isBreak p
      let ending := (s.lineBreak?.map fun e => [e.1]).getD []
      let (breaks, s) := blockBreaks indent s.rest.length s.skipBreak
      if s.column = indent ∧ s.peek.isSome then
        let joint :=
          if fold && ending == [0xa] && !startsBlank && !blank s.peek then
            if breaks.isEmpty then [0x20] else []
          else ending
        let (more, last, after, s) := blockLines fold indent fuel breaks s
        (before ++ run ++ joint ++ more, last, after, s)
      else (before ++ run, ending, breaks, s)

/-- A block behind its mark, within a collection indented by `outer`. -/
def block (fold : Bool) (outer : Int) (s : Source) : Except Fault (List Nat × Source) :=
  (blockHead s).map fun (chomping, increment, s) =>
    let least := (max (outer + 1) 1).toNat
    let (indent, breaks, s) := match increment with
      | some n =>
        let indent := least + n - 1
        let (breaks, s) := blockBreaks indent s.rest.length s
        (indent, breaks, s)
      | none =>
        let (breaks, widest, s) := blockIndent s.rest.length 0 s
        (max least widest, breaks, s)
    let (ps, last, after, s) := blockLines fold indent (s.rest.length + 1) breaks s
    let tail := match chomping with
      | .strip => []
      | .clip => last
      | .keep => last ++ after
    (ps ++ tail, s)

end FleetProbe.Yaml
