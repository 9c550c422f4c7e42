import FleetProbe.CommandLine.Switch
import FleetProbe.Text.Case
/-!
What the program says of itself: its version, and its switches in two columns.
-/

namespace FleetProbe.CommandLine

def programName : String := "mempoke"

def programVersion : String := "0.4.0"

/-- Title of the table of settings. -/
def title : String := "MemPoke " ++ programVersion

namespace Help

/-- Width of the page, and of its left column with the gap behind it. -/
def pageWidth : Nat := 80

def columnWidth : Nat := 32

def gap : Nat := 2

/-- Breaks words into lines no longer than a width. -/
def wrap (width : Nat) (line : String) : List String → List String
  | [] => if line.isEmpty then [] else [line]
  | w :: ws =>
    if line.isEmpty then wrap width w ws
    else if line.length + 1 + w.length ≤ width then wrap width (line ++ " " ++ w) ws
    else line :: wrap width w ws

/-- Words as the help shows them. -/
def shownWords (words : List String) (anyCase : Bool) : List String :=
  if anyCase then words.map Text.fold else words

/-- What stands for the value of a switch. -/
def valueName : Kind → String
  | .text => " TEXT"
  | .integer => " INTEGER"
  | .number => " FLOAT"
  | .choice words anyCase => " [" ++ "|".intercalate (shownWords words anyCase) ++ "]"
  | .file => " FILE"
  | .version | .help => ""

def label (s : Switch) : String :=
  (match s.letter with
    | some c => "-" ++ String.singleton c ++ ", "
    | none => "") ++ s.long ++ valueName s.kind

/-- The lines of a switch. A label too long for its column has a line of its own. -/
def lines (s : Switch) : List String :=
  let name := label s
  let about := wrap (pageWidth - columnWidth - gap) "" (s.about.splitOn " ")
  let indent := "".pushn ' ' (columnWidth + gap)
  if name.length + gap ≤ columnWidth then
    match about with
    | [] => ["  " ++ name]
    | first :: more =>
      ("  " ++ name ++ "".pushn ' ' (columnWidth - name.length) ++ first) :: more.map (indent ++ ·)
  else ("  " ++ name) :: about.map (indent ++ ·)

def text : String :=
  "\n".intercalate
    (["Usage: " ++ programName ++ " [OPTIONS]", "", "  Memcached Probe (MemPoke).", "", "Options:"]
      ++ switches.flatMap lines) ++ "\n"

end Help

def versionText : String := programName ++ ", version " ++ programVersion ++ "\n"

end FleetProbe.CommandLine
