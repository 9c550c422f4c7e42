import FleetProbe.CommandLine.Help
import FleetProbe.Number.Numeral
import FleetProbe.Settings.Folder
import FleetProbe.Text.Similarity
import FleetProbe.Value
/-!
Reading the command line: first the switches with their values, then what the values stand for.
-/

namespace FleetProbe.CommandLine

/-- What is wrong with a command line. -/
inductive Misuse where
  /-- There is no such switch; some may be alike. -/
  | unknown (name : Text) (near : List Text)
  | needsValue (name : Text)
  | takesNoValue (name : Text)
  | badValue (name : Text) (why : Text)
  | extra (words : List Text)
  /-- A path cannot be written for the system. -/
  | unwritablePath
  | zeroInPath
  deriving DecidableEq, Repr

namespace Misuse

def suggestion : List Text → Text
  | [] => ""
  | [t] => " Did you mean " ++ t.quoted ++ "?"
  | ts => " (Did you mean one of: " ++ Text.join ", " (ts.map Text.quoted) ++ "?)"

def message : Misuse → Text
  | unknown name near => "No such option " ++ name.quoted ++ "." ++ suggestion near
  | needsValue name => "Option " ++ name.quoted ++ " requires an argument."
  | takesNoValue name => "Option " ++ name.quoted ++ " does not take a value."
  | badValue name why => "Invalid value for " ++ name.quoted ++ ": " ++ why
  | extra [w] => "Got unexpected extra argument (" ++ w ++ ")"
  | extra ws => "Got unexpected extra arguments (" ++ Text.join " " ws ++ ")"
  | unwritablePath => "The path cannot be encoded"
  | zeroInPath => "The path holds a zero character"

end Misuse

/-- A switch as it was used. -/
structure Use where
  switch : Switch
  value : Text

/-- All that a command line says. -/
structure Said where
  uses : List Use := []
  extra : List Text := []

namespace Said

def use (u : Use) (s : Said) : Said := { s with uses := u :: s.uses }

end Said

def findLong (name : Text) : Option Switch := switches.find? fun s => Text.ofString s.long == name

def findLetter (p : Nat) : Option Switch :=
  switches.find? fun s => s.letter.any fun c => c.toNat == p

def unknownLong (name : Text) : Misuse :=
  .unknown name (Text.closest name (switches.map fun s => Text.ofString s.long))

/-- Switches given by their letters behind one dash; none of them takes a value. -/
def letters : List Nat → Except Misuse (List Use)
  | [] => .ok []
  | p :: ps =>
    match findLetter p with
    | none => .error (.unknown ⟨[0x2d, p]⟩ [])
    | some s => (letters ps).map (⟨s, ""⟩ :: ·)

/-- A name and, behind an equals sign, a value. -/
def splitEquals (t : Text) : Text × Option Text :=
  let name := t.points.takeWhile (· != 0x3d)
  match t.points.dropWhile (· != 0x3d) with
  | [] => (t, none)
  | _ :: value => (⟨name⟩, some ⟨value⟩)

/-- Reads words from left to right. -/
def said : List Text → Except Misuse Said
  | [] => .ok {}
  | word :: words =>
    if word = "--" then .ok { extra := words }
    else if word.points.head? ≠ some 0x2d ∨ word.length = 1 then
      (said words).map fun s => { s with extra := word :: s.extra }
    else
      let (name, value) := splitEquals word
      match findLong name, value with
      | none, _ =>
        if word.points.take 2 = [0x2d, 0x2d] then .error (unknownLong name)
        else do
          let uses ← letters (word.points.drop 1)
          (said words).map fun s => { s with uses := uses ++ s.uses }
      | some s, some v =>
        if s.takesValue then (said words).map (Said.use ⟨s, v⟩)
        else .error (.takesNoValue name)
      | some s, none =>
        if s.takesValue then
          match words with
          | [] => .error (.needsValue name)
          | v :: words => (said words).map (Said.use ⟨s, v⟩)
        else (said words).map (Said.use ⟨s, ""⟩)

/-- Why a value is none of some words. -/
def notAmong (value : Text) (words : List String) : Text :=
  let shown := words.map fun w => (Text.ofString w).quoted
  value.quoted ++ " is not one of " ++ Text.join ", " shown ++ "."

/-- Whether a path can only lead to a folder. -/
def wantsFolder (path : Text) : Bool :=
  path.points.getLast? == some 0x2f || (path.points.reverse.take 2 == [0x2e, 0x2f])

/-- A path as it is named to the user, where a sign of its own stands for what is no text. -/
def pathName (path : Text) : Text :=
  Text.quoted ⟨path.points.map fun p => if Text.isSurrogate p then 0xfffd else p⟩

/-- A path at which there is a file. -/
def readFile (folder : Folder) (path : Text) (bad : Text → Except Misuse Value) :
    Except Misuse Value :=
  let missing := bad ("File " ++ pathName path ++ " does not exist.")
  if (Path.bytes? path.points).isNone then .error .unwritablePath
  else if path.points.contains 0 then .error .zeroInPath
  else if path.isEmpty then missing
  else
    match folder.read (.ofText path) with
    | .ok _ => if wantsFolder path then missing else .ok (.text path)
    | .error .isFolder => bad ("File " ++ pathName path ++ " is a directory.")
    | .error _ => missing

/-- What the value of a switch stands for. -/
def read (folder : Folder) (u : Use) : Except Misuse Value :=
  let bad (why : Text) : Except Misuse Value := .error (.badValue u.switch.long why)
  match u.switch.kind with
  | .integer =>
    match Text.integer? u.value with
    | .ok i => .ok (.int i)
    | .error _ => bad (u.value.quoted ++ " is not a valid integer.")
  | .number =>
    match Number.number? u.value with
    | some x => .ok (.real x)
    | none => bad (u.value.quoted ++ " is not a valid float.")
  | .choice words anyCase =>
    let form (s : String) : String := if anyCase then Text.fold s else s
    match words.find? fun w => u.value.toString?.map form == some (form w) with
    | some w => .ok w
    | none => bad (notAmong u.value (words.map form))
  | .file => readFile folder u.value bad
  | _ => .ok (.text u.value)

/-- The last use of every switch, in the order of their first uses. -/
def lastUses (uses : List Use) : List Use :=
  ((uses.map Use.switch).eraseDups).filterMap fun s => uses.reverse.find? (·.switch == s)

/-- What the user wants. -/
inductive Request where
  | version
  | help
  | serve (config : Option Text) (overrides : List (Text × Value))

/-- Reads a command line. -/
def request (folder : Folder) (words : List Text) : Except Misuse Request := do
  let s ← said words
  match s.uses.find? fun u => u.switch.isEager with
  | some u => .ok (if u.switch.kind = .help then .help else .version)
  | none =>
    let uses := lastUses s.uses
    let values ← uses.mapM fun u => (read folder u).map fun v => (u.switch, v)
    if s.extra.isEmpty then
      let config := values.findSome? fun (s, v) => match s.kind, v with
        | .file, .text t => some t
        | _, _ => none
      let overrides := values.filterMap fun (s, v) =>
        if s.kind = .file then none else some (Text.ofString s.setting, v)
      .ok (.serve config overrides)
    else .error (.extra s.extra)

end FleetProbe.CommandLine
