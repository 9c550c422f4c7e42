import FleetProbe.Failure
import FleetProbe.Value.Access
import FleetProbe.Value.Display
/-!
Failures told with values of any kind: every value is shown as a reader of logs sees it.
-/

namespace FleetProbe.Failure

/-- A failure with its text and what it was told with. -/
structure Told where
  kind : FailureKind
  text : Text
  parts : List Value

/-- Why a failure cannot be told. -/
inductive TellFault where
  | wrongNumber
  /-- A value cannot be shown in hexadecimal; some kinds of value are named. -/
  | notWhole (kind : Option String)
  | tooManyDigits
  deriving DecidableEq, Repr

namespace TellFault

def message? : TellFault → Option String
  | notWhole (some kind) => some ("Unknown format code 'x' for object of type '" ++ kind ++ "'")
  | _ => none

end TellFault

/-- The text of a value. -/
def shown (v : Value) : Except TellFault Text := (v.shown?.map .ok).getD (.error .tooManyDigits)

def hexOf : Value → Except TellFault String
  | .int n => .ok (hexText n)
  | .bool b => .ok (hexText b.toNat)
  | .real _ => .error (.notWhole (some "float"))
  | .text _ => .error (.notWhole (some "str"))
  | _ => .error (.notWhole none)

/-- The text of several values: none at all, one as it is, or a list between brackets. -/
def joint : List Value → Except TellFault Text
  | [] => .ok ""
  | [v] => shown v
  | vs =>
    match Value.quotedItems? vs with
    | some ts => .ok ("(" ++ Text.join ", " ts ++ ")")
    | none => .error .tooManyDigits

/-- The text of a system condition: its number, a reason, and a path or two if they are given. -/
def systemText (vs : List Value) : Except TellFault Text :=
  let known (number reason : Value) (paths : List Value) : Except TellFault Text := do
    let front := "[Errno " ++ (← shown number) ++ "] " ++ (← shown reason)
    match Value.quotedItems? paths with
    | some [] => .ok front
    | some ts => .ok (front ++ ": " ++ Text.join " -> " ts)
    | none => .error .tooManyDigits
  match vs with
  | [number, reason] | [number, reason, .null] => known number reason []
  | [number, reason, .null, _] | [number, reason, .null, _, _] => known number reason []
  | [number, reason, path] | [number, reason, path, _] | [number, reason, path, _, .null] =>
    known number reason [path]
  | [number, reason, path, _, other] => known number reason [path, other]
  | vs => joint vs

/-- Text of a query that failed. A status counts unless it is absent, a reason unless it is empty. -/
def queryText (url status reason : Value) : Except TellFault Text := do
  let withStatus ← match status with
    | .null => .ok Text.empty
    | s => (shown s).map fun t => (" - status code: " : Text) ++ t
  let withReason ←
    if reason.isTruthy then (shown reason).map fun t => (" - " : Text) ++ t else .ok Text.empty
  .ok ("Issue query: " ++ (← shown url) ++ withStatus ++ withReason)

/-- The text of a kind of failure, and the values that it keeps. -/
def tellText : FailureKind → List Value → Except TellFault (Text × List Value)
  | .mismatch, [magic] =>
    (hexOf magic).map fun t =>
      (Text.ofString ("Unexpected magic byte 0x" ++ t ++ " in response header"), [magic])
  | .reset, [n] =>
    (shown n).map fun t => ("Connection reset by peer with " ++ t ++ " bytes pending", [n])
  | .noResponse, [] => .ok (Failure.noResponse.message, [])
  | .timedOut, [command, seconds] => do
    .ok ((← shown command) ++ " command timed out after " ++ (← shown seconds) ++ "s",
      [command, seconds])
  | .query, [url] => (queryText url .null .null).map (·, [url, .null, .null])
  | .query, [url, status] => (queryText url status .null).map (·, [url, status, .null])
  | .query, [url, status, reason] =>
    (queryText url status reason).map (·, [url, status, reason])
  | .overCapacity, [requested, capacity] => do
    .ok ("Number of requested token (" ++ (← shown requested) ++ ") is greater than the capacity ("
      ++ (← shown capacity) ++ ") of the token bucket", [requested, capacity])
  | .any, vs | .configuration, vs | .framing, vs | .incomplete, vs | .connection, vs =>
    (joint vs).map (·, [])
  | _, _ => .error .wrongNumber

/-- What a failure keeps. -/
def parts : Failure → List Value
  | plain .. | noResponse => []
  | mismatch magic => [.int magic]
  | reset buffered => [.int buffered]
  | timedOut command limit =>
    [.text command, match limit with
      | .within a => .ofAmount a
      | _ => .null]
  | query url status reason =>
    [.text url, (status.map .int).getD .null, (reason.map .text).getD .null]
  | overCapacity requested capacity => [.ofAmount requested, .ofAmount capacity]

def tell (kind : FailureKind) (vs : List Value) : Except TellFault Told :=
  (tellText kind vs).map fun (text, parts) => ⟨kind, text, parts⟩

end FleetProbe.Failure
