import FleetProbe.Log.Record
import FleetProbe.Value.Access
import FleetProbe.Value.Key
/-!
Log records as documents: what a document does not say has a default.
-/

namespace FleetProbe.Log

open Value

/-- Other names of levels. -/
def otherNames : List (Text × Int) := [("WARN", 30), ("FATAL", 50)]

/-- The level in a document: any value, or a name of a level. -/
def levelOf (o : Value) : Value :=
  match o.field? "level" with
  | some (.text t) => .int ((otherNames.lookup t).getD (Level.ofName t))
  | some v => v
  | none => .int Level.standard

/-- The name of a level; what equals a number is named as the number. -/
def nameOfLevel (v : Value) : Value :=
  match (v.wholeKey?.map Level.name).filter (Level.names.map Prod.fst).contains with
  | some name => name
  | none => .text ("Level " ++ (v.shown?).getD "")

/-- What decides whether the record of a document is let through: its logger and its level, or what
is attached over them. -/
def gate (o : Value) : Value × Value :=
  let attached (k : String) (v : Value) : Value := ((o.field "extra").field? k).getD v
  (attached "name" (o.field "logger"), attached "levelno" (levelOf o))

/-- The record of a document. What went wrong stands in it as a name with arguments; `known` says
what that means. -/
def Record.ofDocument {ε : Type} (known : String → List Value → Except ε Trouble) (o : Value) :
    Except ε Record := do
  let value (k : String) (v : Value) : Value := (o.field? k).getD v
  let cause ← match o.field? "exc" with
    | some (.list []) => .ok (some none)
    | some (.list (name :: args)) => (known name.asString args).map fun t => some (some t)
    | _ => .ok none
  let created := value "created" (.real 0)
  let r : Record :=
    { logger := value "logger" ""
      levelName := nameOfLevel (levelOf o)
      module := match value "path" "" with
        | .text t => .text (moduleOf t)
        | _ => "Unknown module"
      function := value "func" ""
      line := value "line" (.int 0)
      message := value "msg" ""
      arguments := .ofList (o.itemsOf "args")
      created, milliseconds := .int (Stamp.milliseconds created)
      cause := .ok cause }
  .ok ((o.entriesOf "extra").foldl (fun r (k, v) => r.attach k v) r)

end FleetProbe.Log
