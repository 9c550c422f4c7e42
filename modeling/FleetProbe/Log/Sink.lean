import FleetProbe.Log.Line
import FleetProbe.Number.Amount
/-!
Where log records go: from which level on, in which form, and under the name of which service.
-/

namespace FleetProbe.Log

structure Sink where
  service : Value
  level : Int
  isJson : Bool

namespace Sink

/-- A variable of the environment, or what is given. -/
def chosen {α : Type} (environment : List (Text × α)) (name : Text) (given : α) : α :=
  (environment.lookup name).getD given

/-- A sink for records from a level on, in a form. -/
def ofTexts (service : Value) (level format : Text) : Sink :=
  { service, level := Level.ofName level, isJson := Text.lower format.display == "json" }

/-- Sets up a sink. The environment may choose another level and another form. -/
def configure (environment : List (Text × Text)) (service level format : Text) : Sink :=
  ofTexts (.text service) (chosen environment "LOG_LEVEL" level)
    (chosen environment "LOG_FORMAT" format)

/-- Sets up a sink for any values, unless its level or its form is no text. -/
def configure? (environment : List (Text × Text)) (service level format : Value) : Option Sink :=
  let environment := environment.map fun (k, t) => (k, Value.text t)
  match chosen environment "LOG_LEVEL" level, chosen environment "LOG_FORMAT" format with
  | .text level, .text format => some (ofTexts service level format)
  | _, _ => none

/-- Whether a logger belongs to a family: it has its name, or a name below it. -/
def isWithin (family logger : Text) : Bool :=
  logger == family || (family ++ ".").points.isPrefixOf logger.points

/-- Whether records of a level are let through. Records of HTTP requests need to be warnings. -/
def isEnabled (sink : Option Sink) (ofRequest : Bool) (level : Amount Float) : Bool :=
  let least := match sink with
    | some s => if ofRequest then Level.quiet else s.level
    | none => Level.quiet
  level.isPositive && Amount.le (.whole least) level

/-- The line of a record; a record that cannot be written leaves none. -/
def line (s : Sink) (r : Record) : Text :=
  let r := { r with service := some s.service }
  match if s.isJson then r.json else r.plain with
  | .ok t => t ++ "\n"
  | .error _ => ""

end Sink

end FleetProbe.Log
