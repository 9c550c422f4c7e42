import FleetProbe.CommandLine.Start
import FleetProbe.CommandLine.Table
import FleetProbe.Json.Reader
import FleetProbe.Metrics.Exposition
import FleetProbe.Rehearsal.Script
import FleetProbe.Service.Start
/-!
The program. Where the command line asks for the service, the service is rehearsed: standard input
holds a script of the catalog, the nodes and the signals, and time is virtual. What went over the
network and the metrics at the end go to standard output, what is said to the operator goes to the
error output.
-/

namespace FleetProbe

open CommandLine Rehearsal

/-- Variables that the program looks at. -/
def variableNames : List String :=
  ["LOG_LEVEL", "LOG_FORMAT"] ++ Settings.names.map fun n => "MEMPOKE_" ++ n.toUpper

/-- Paths that a command line may name. -/
def pathsIn (words : List String) : List String :=
  words.flatMap fun w => [w, (splitEquals w).2.elim "" Text.display]

/-- When a rehearsal without a signal of its own is asked to end. -/
def rehearsalEnd : Float := 600

def rehearse (script : Value) (service : Service Float) : Serving :=
  let s := Script.serving Script.condition script service
  let s := if s.signals.isEmpty then { s with signals := [rehearsalEnd] } else s
  s.serve (Script.fault? Script.condition script "bind_error")

def tableLines (rows : List (Text × Text)) : List String :=
  Table.lines title ("Setting", "Value") rows

/-- What is said of a command line that cannot be read. -/
def misuseLines (m : Misuse) : List String :=
  ["Usage: " ++ programName ++ " [OPTIONS]", "Try '" ++ programName ++ " -h' for help.", "",
    "Error: " ++ m.message.display]

/-- The file at a path, if it can be read. -/
def readFile? (path : String) : IO (Option (Path × List UInt8)) := do
  try
    return some (Path.ofText path, (← IO.FS.readBinFile path).toList)
  catch _ =>
    return none

def surroundings (words : List String) : IO Settings.Surroundings := do
  let environment ← variableNames.filterMapM fun n => do
    return (← IO.getEnv n).map fun v => (Text.ofString n, Text.ofString v)
  let files ← (".env" :: pathsIn words).filterMapM readFile?
  return { environment, folder := ⟨files⟩ }

def tell (lines : List String) : IO Unit := lines.forM fun l => IO.eprintln l

def serve (settings : Settings) : IO UInt32 := do
  match Service.ofSettings settings 0 with
  | .error fault =>
    tell [(fault.failure?.map fun f => (pacingLine f).display).getD
      "The service cannot be prepared"]
    return 1
  | .ok service =>
    let input ← (← IO.getStdin).readToEnd
    let script := match Json.read input with
      | .ok v => v
      | .error _ => .null
    let served := rehearse script service
    served.journal.forM fun l => IO.println l
    IO.print served.service.crew.metrics.exposition.display
    match served.service.stage with
    | .served .returned => return 0
    | _ => return 1

end FleetProbe

open FleetProbe

/-- Shows what was asked for, or serves. -/
def main (args : List String) : IO UInt32 := do
  match CommandLine.start (← surroundings args) (args.map Text.ofString) with
  | .shown t =>
    IO.print t
    return 0
  | .misused m =>
    tell (misuseLines m)
    return 2
  | .refused f =>
    match f.complaint with
    | .line t =>
      tell [t.display]
      return 2
    | _ =>
      tell ["The configuration cannot be read"]
      return 1
  | .ready settings _ table =>
    match table with
    | some rows =>
      tell (tableLines rows)
      serve settings
    | none =>
      tell ["The settings cannot be shown"]
      return 1
