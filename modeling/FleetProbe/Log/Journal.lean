import FleetProbe.Log.Document
import FleetProbe.Log.Sink
/-!
Sinks set up one after another, each of which writes to a stream of its own.
-/

namespace FleetProbe.Log

structure Journal where
  /-- Variables that a set-up looks at. -/
  environment : List (Text × Text) := []
  /-- The sink in force. -/
  sink : Option Sink := none
  /-- What was written, the stream of the sink in force last. -/
  streams : List Text := []

namespace Journal

/-- Sets variables to texts; what is not set to a text is unset. -/
def setVariables (j : Journal) (given : List (Text × Value)) : Journal :=
  let set := given.filterMap fun (k, v) =>
    match v with
    | .text t => some (k, t)
    | _ => none
  let kept := j.environment.filter fun e => !given.any (·.1 == e.1)
  { j with environment := set ++ kept }

/-- Sets up a sink with a stream of its own, unless its level or its form is no text. -/
def configure? (j : Journal) (service level format : Value) : Option (Sink × Journal) :=
  (Sink.configure? j.environment service level format).map fun sink =>
    (sink, { j with sink := some sink, streams := j.streams ++ [Text.empty] })

/-- Writes a record where the sink in force writes. -/
def write (j : Journal) (r : Record) : Journal :=
  match j.sink, j.streams.getLast? with
  | some sink, some t => { j with streams := j.streams.dropLast ++ [t ++ sink.line r] }
  | _, _ => j

end Journal

end FleetProbe.Log
