import FleetProbe.Text.Quoted
import FleetProbe.TimeLimit
/-!
Everything that can go wrong and has a name of its own, with its wording and its place among the
kinds of failure.
-/

namespace FleetProbe

/-- Kinds of failure; each but the first belongs to a wider one. -/
inductive FailureKind where
  | any
  | configuration
  | framing
  | incomplete
  | mismatch
  | connection
  | reset
  | noResponse
  | timedOut
  | query
  | overCapacity
  deriving DecidableEq, Repr

namespace FailureKind

/-- The next wider kind. -/
def wider? : FailureKind → Option FailureKind
  | any => none
  | incomplete | mismatch => some framing
  | reset | noResponse => some connection
  | configuration | framing | connection | timedOut | query | overCapacity => some any

/-- A kind and all wider ones, narrowest first. -/
def lineage (k : FailureKind) : List FailureKind :=
  k :: match k.wider? with
    | none => []
    | some w =>
      w :: match w.wider? with
        | none => []
        | some v => [v]

end FailureKind

inductive Failure where
  /-- A failure that says no more than its text. -/
  | plain (kind : FailureKind) (text : Text)
  /-- Buffered bytes do not start with the byte of a response. -/
  | mismatch (magic : Int)
  /-- The peer ended the connection inside a frame. -/
  | reset (buffered : Int)
  /-- The peer ended the connection before any answer. -/
  | noResponse
  /-- A command outlived its deadline. -/
  | timedOut (command : Text) (limit : TimeLimit Float)
  /-- The catalog could not be queried. -/
  | query (url : Text) (status : Option Int) (reason : Option Text)
  /-- More tokens were asked for than the bucket can ever hold. -/
  | overCapacity (requested capacity : Amount Float)
  deriving Repr

namespace Failure

def kind : Failure → FailureKind
  | plain k _ => k
  | mismatch _ => .mismatch
  | reset _ => .reset
  | noResponse => .noResponse
  | timedOut .. => .timedOut
  | query .. => .query
  | overCapacity .. => .overCapacity

/-- Hexadecimal digits of a number, at least two characters with its sign. -/
def hexText (n : Int) : String :=
  let digits := String.ofList (Nat.toDigits 16 n.natAbs)
  let signed := if n < 0 then "-" ++ digits else digits
  if signed.length < 2 then "0" ++ signed else signed

def message : Failure → Text
  | plain _ text => text
  | mismatch magic => "Unexpected magic byte 0x" ++ hexText magic ++ " in response header"
  | reset buffered => "Connection reset by peer with " ++ toString buffered ++ " bytes pending"
  | noResponse => "Connection closed before any response was received"
  | timedOut command limit =>
    command ++ " command timed out after " ++ Text.ofString limit.text ++ "s"
  | query url status reason =>
    let withStatus := match status with
      | some s => " - status code: " ++ Text.ofString (toString s)
      | none => Text.empty
    let withReason := match reason with
      | some r => if r.isEmpty then Text.empty else " - " ++ r
      | none => Text.empty
    "Issue query: " ++ url ++ withStatus ++ withReason
  | overCapacity requested capacity =>
    "Number of requested token (" ++ requested.text ++ ") is greater than the capacity ("
      ++ capacity.text ++ ") of the token bucket"

end Failure

end FleetProbe
