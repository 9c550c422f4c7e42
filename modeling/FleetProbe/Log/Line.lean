import FleetProbe.Json.Writer
import FleetProbe.Log.Record
/-!
The two forms of a log record: an object on one line, in which attached values follow the fields of
the record, and plain text.
-/

namespace FleetProbe.Log

namespace Record

def troubleValue (t : Option Trouble) : Value :=
  let part (f : Trouble → Text) : Value := (t.map fun t => Value.text (f t)).getD .null
  Value.ofFields [("type", part Trouble.name), ("message", part Trouble.text),
    ("traceback", .text (trace t))]

/-- Fields of the record itself. -/
def own (r : Record) : Except Fault (List (Value × Value)) := do
  let stamp ← match Stamp.precise r.created with
    | .ok t => .ok t
    | .error f => .error (.time f)
  let message ← r.text
  let cause ← r.cause?
  let fields : List (String × Value) :=
    [("timestamp", .text stamp), ("level", r.levelName), ("service", r.service.getD "unknown"),
      ("logger", r.logger), ("message", .text message), ("module", r.module),
      ("function", r.function), ("line", r.line)]
  let trouble := cause.toList.map fun t => ("exception", troubleValue t)
  .ok ((fields ++ trouble).map fun (k, v) => (Value.ofString k, v))

/-- Everything in the object. -/
def entries (r : Record) : Except Fault (List (Value × Value)) :=
  r.own.map fun own => r.extras.foldl (fun es (k, v) => putField k v es) own

/-- The object on one line. -/
def json (r : Record) : Except Fault Text :=
  r.entries.map fun es => Json.write Json.readable (.map es)

def plainTemplate : Text :=
  "%(time)s - %(level)s - [%(service)s] - [%(logger)s] - [%(module)s.%(function)s:%(line)d] - "
    ++ "%(message)s"

def fillOr (template : Text) (s : Template.Supply) : Except Fault Text :=
  match Template.fill template s with
  | .ok t => .ok t
  | .error f => .error (.message f)

/-- Day and time of day with milliseconds. -/
def time (r : Record) : Except Fault Text :=
  match Stamp.coarse r.created with
  | .error f => .error (.time f)
  | .ok t => fillOr "%s,%03d" (.ofList [.text t, r.milliseconds])

/-- Puts a text on lines of its own. -/
def below (t : Text) : Value → Except Fault Text
  | .text more => .ok ((if t.points.getLast? = some 0xa then t else t ++ "\n") ++ more)
  | v => if v.isTruthy then .error .tail else .ok t

/-- A text that follows, unless it is empty. -/
def follow (t : Text) (v : Value) : Except Fault Text := if v.isTruthy then below t v else .ok t

/-- Plain text. -/
def plain (r : Record) : Except Fault Text := do
  let message ← r.text
  let time ← r.time
  let line ← fillOr plainTemplate (.ofValue (Value.ofFields
    [("time", .text time), ("level", r.levelName), ("service", r.service.getD .null),
      ("logger", r.logger), ("module", r.module), ("function", r.function), ("line", r.line),
      ("message", .text message)]))
  let given := (r.tail.lookup "exc_text").getD .null
  let cause ← if given.isTruthy then .ok given
    else r.cause?.map fun c => (c.map fun t => Value.text (trace t)).getD .null
  let line ← follow line cause
  follow line ((r.tail.lookup "stack_info").getD .null)

end Record

end FleetProbe.Log
