import FleetProbe.CommandLine.Arguments
import FleetProbe.CommandLine.Markup
import FleetProbe.Failure
import FleetProbe.Log.Sink
import FleetProbe.Settings.Load
/-!
What the program does with a command line before it serves.
-/

namespace FleetProbe

namespace Settings.LoadFault

/-- What an operator is told. -/
inductive Complaint where
  | line (t : Text)
  /-- A mark in the text ends a style that is not open. -/
  | unshowable
  /-- It is not the configuration that is at fault. -/
  | nothing
  deriving DecidableEq, Repr

/-- What is said of a configuration that is of no use. -/
def complaint (f : LoadFault) : Complaint :=
  let said := match f with
    | .refused (.issues is) => some (report is)
    | f => f.fileMessage?
  match said with
  | none => .nothing
  | some t =>
    match CommandLine.Markup.read? ("[bold red]Invalid configuration:[/bold red] " ++ t) with
    | some t => .line (CommandLine.Markup.firstLine t)
    | none => .unshowable

end Settings.LoadFault

namespace CommandLine

/-- Where a command line leads to. -/
inductive Start where
  /-- Something is shown, and that is all. -/
  | shown (t : String)
  | misused (m : Misuse)
  | refused (f : Settings.LoadFault)
  /-- The service can be started; the settings are shown in a table first, unless a mark in it ends a
  style that is not open. -/
  | ready (settings : Settings) (sink : Log.Sink) (table : Option (List (Text × Text)))

/-- The rows of a table as they are shown. -/
def shownRows? (rows : List (Text × Text)) : Option (List (Text × Text)) :=
  rows.mapM fun (k, v) => (Markup.read? v).map fun v => (k, v)

def start (s : Settings.Surroundings) (words : List Text) : Start :=
  match request s.folder words with
  | .error .unwritablePath => .refused .unwritablePath
  | .error .zeroInPath => .refused .zeroInPath
  | .error m => .misused m
  | .ok .help => .shown Help.text
  | .ok .version => .shown versionText
  | .ok (.serve config overrides) =>
    match Settings.load s config overrides with
    | .error f => .refused f
    | .ok settings =>
      .ready settings
        (Log.Sink.configure s.environment settings.serviceName settings.logLevel settings.logFormat)
        (shownRows? settings.summary)

/-- What is said of a pace that the bucket does not allow. -/
def pacingLine (f : Failure) : Text := "Invalid discovery pacing: " ++ f.message

/-- What is said when a user interrupts the program. -/
def interruptedLine : Text := "Interrupted"

end CommandLine

end FleetProbe
