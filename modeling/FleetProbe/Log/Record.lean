import FleetProbe.Log.Level
import FleetProbe.Log.Stamp
import FleetProbe.Value.Template
/-!
Log records: what was said, where and when, and anything else that was attached under a name of its
own.
-/

namespace FleetProbe.Log

/-- What went wrong, as a record shows it. -/
structure Trouble where
  name : Text
  /-- The name with the place it belongs to. -/
  fullName : Text
  text : Text
  deriving DecidableEq, Repr

/-- Why a value is not taken for a cause. -/
inductive CauseFault where
  /-- What should be a kind has no name, or something has no place. -/
  | nameless
  | tooShort
  /-- Its parts have names, not numbers. -/
  | unnumbered
  /-- It has no parts. -/
  | single
  deriving DecidableEq, Repr

/-- What a record says of its cause: nothing, or that there is one, of which nothing may be known. -/
abbrev Cause := Except CauseFault (Option (Option Trouble))

/-- What a value says of a cause: an empty one nothing, and three times nothing that it is unknown. -/
def Cause.ofValue (v : Value) : Cause :=
  if !v.isTruthy then .ok none
  else
    match v with
    | .list (kind :: rest) =>
      if kind.isTruthy then .error .nameless
      else
        match rest with
        | .null :: .null :: _ => .ok (some none)
        | _ :: _ :: _ => .error .nameless
        | _ => .error .tooShort
    | .text _ | .bytes _ => .error .nameless
    | .map _ => .error .unnumbered
    | _ => .error .single

/-- The values for the places of a message. -/
inductive Arguments where
  | several (vs : List Value)
  | one (v : Value)

namespace Arguments

/-- A mapping on its own gives its entries by name. -/
def ofList : List Value → Arguments
  | [.map (e :: es)] => .one (.map (e :: es))
  | vs => .several vs

def supply? : Arguments → Option Template.Supply
  | .several [] => none
  | .several vs => some (.ofList vs)
  | .one v => if v.isTruthy then some (.ofValue v) else none

end Arguments

structure Record where
  logger : Value
  levelName : Value
  module : Value
  function : Value
  line : Value
  message : Value
  arguments : Arguments
  created : Value
  milliseconds : Value
  service : Option Value := none
  cause : Cause := .ok none
  /-- Texts that follow the plain form. -/
  tail : List (String × Value) := []
  extras : List (Text × Value) := []

/-- Why a record cannot be written. -/
inductive Fault where
  | time (f : TimeFault)
  | message (f : Template.Fault)
  | cause (f : CauseFault)
  /-- What follows the plain form is no text. -/
  | tail
  deriving DecidableEq, Repr

/-- The last part of a path, less what follows its last point. -/
def moduleOf (path : Text) : Text :=
  let name := (path.points.reverse.takeWhile (· != 0x2f)).reverse
  let stem := (name.reverse.dropWhile (· != 0x2e)).drop 1
  if stem.all (· == 0x2e) then ⟨name⟩ else ⟨stem.reverse⟩

namespace Record

/-- Fields of a record that a name can be attached over. -/
def fields : List (String × (Value → Record → Record)) :=
  [("name", fun v r => { r with logger := v }),
    ("levelname", fun v r => { r with levelName := v }),
    ("module", fun v r => { r with module := v }),
    ("funcName", fun v r => { r with function := v }),
    ("lineno", fun v r => { r with line := v }),
    ("msg", fun v r => { r with message := v }),
    ("args", fun v r => { r with arguments := .one v }),
    ("created", fun v r => { r with created := v }),
    ("msecs", fun v r => { r with milliseconds := v }),
    ("service_name", fun v r => { r with service := some v }),
    ("exc_info", fun v r => { r with cause := .ofValue v }),
    ("exc_text", fun v r => { r with tail := ("exc_text", v) :: r.tail }),
    ("stack_info", fun v r => { r with tail := ("stack_info", v) :: r.tail })]

/-- Fields that are not shown. -/
def hidden : List String :=
  ["levelno", "pathname", "filename", "relativeCreated", "thread", "threadName", "processName",
    "process", "message", "asctime", "taskName"]

/-- Attaches a value under a name. -/
def attach (r : Record) (name : Text) (v : Value) : Record :=
  match fields.lookup name.display with
  | some put => put v r
  | none =>
    if hidden.contains name.display then r
    else
      { r with extras :=
          if r.extras.any (·.1 == name) then
            r.extras.map fun e => if e.1 == name then (name, v) else e
          else r.extras ++ [(name, v)] }

/-- The message with its places filled. -/
def text (r : Record) : Except Fault Text :=
  match r.message.shown? with
  | none => .error (.message .tooManyDigits)
  | some t =>
    match r.arguments.supply? with
    | none => .ok t
    | some s =>
      match Template.fill t s with
      | .ok t => .ok t
      | .error f => .error (.message f)

/-- What the record says of its cause. -/
def cause? (r : Record) : Except Fault (Option (Option Trouble)) :=
  match r.cause with
  | .ok c => .ok c
  | .error f => .error (.cause f)

end Record

/-- What is shown of something that went wrong. -/
def trace : Option Trouble → Text
  | none => "NoneType: None"
  | some t => if t.text.isEmpty then t.fullName else t.fullName ++ ": " ++ t.text

end FleetProbe.Log
