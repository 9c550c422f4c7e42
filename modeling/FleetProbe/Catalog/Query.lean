import FleetProbe.Catalog.Cursor
import FleetProbe.Failure
import FleetProbe.Fault
import FleetProbe.Json.Reader
import FleetProbe.Notice
import FleetProbe.Text.Case
import FleetProbe.Text.Integer
import FleetProbe.Text.Utf8
import FleetProbe.Wire.Bytes
/-!
One query of the catalog: the address it is sent to, and what its answer comes to.
-/

namespace FleetProbe.Catalog

/-- Where the catalog is, and how long it may hold a query. -/
structure Source where
  base : Text
  wait : Text
  deriving DecidableEq, Repr

namespace Source

/-- Slashes at the end of an address do not count. -/
def ofAddress (address wait : Text) : Source :=
  ⟨⟨(address.points.reverse.dropWhile (· == 0x2f)).reverse⟩, wait⟩

end Source

/-- A path below the address and the index to wait behind. -/
structure Request where
  path : Text
  index : Int
  deriving DecidableEq, Repr

namespace Request

def address (r : Request) (s : Source) : Text := s.base ++ r.path

/-- The address with its parameters. -/
def url (r : Request) (s : Source) : Text :=
  r.address s ++ "?index=" ++ Text.ofString (toString r.index) ++ "&wait=" ++ s.wait

end Request

/-- Characters that stand for themselves in an address. -/
def isUnreserved (b : UInt8) : Bool :=
  (0x30 ≤ b && b ≤ 0x39) || (0x41 ≤ b && b ≤ 0x5a) || (0x61 ≤ b && b ≤ 0x7a)
    || b == 0x2d || b == 0x2e || b == 0x5f || b == 0x7e

/-- One byte of a part of an address. -/
def escapeByte (b : UInt8) : List Nat :=
  if isUnreserved b then [b.toNat]
  else 0x25 :: (Text.hexDigits 2 b.toNat).map fun c => c.toUpper.toNat

def escape (bs : Bytes) : Text := ⟨bs.flatMap escapeByte⟩

/-- The answer to a query. Its body is read last, and that can fail. -/
structure Response where
  status : Int
  headers : List (Text × Text)
  body : Except Fault Bytes

abbrev Outcome := Except Fault Response

/-- How a query ends when it yields nothing. -/
inductive QueryFault where
  /-- The catalog did not answer as it should. -/
  | failed (f : Failure)
  /-- A condition that nobody expects of a query. -/
  | escaped (f : Fault)
  /-- The name of a service cannot be written in an address. -/
  | unencodable
  /-- The answer is nested too deeply to be read. -/
  | tooDeep
  deriving Repr

namespace Query

def refused : Notice := ⟨.error, "Failed to query consul, http status code %s"⟩

def noIndex : Notice := ⟨.warning, "Missing %s header. Setting index to 0"⟩

def notJson : Notice := ⟨.warning, "Http response body is not json parsable: %r"⟩

def indexHeader : Text := "X-Consul-Index"

/-- Names of headers are compared without regard to case. -/
def header? (headers : List (Text × Text)) (name : Text) : Option Text :=
  let small (t : Text) := t.points.map Text.lowerPoint
  (headers.find? fun h => small h.1 == small name).map Prod.snd

/-- A condition met during a query. -/
def faultOf (url : Text) (f : Fault) : QueryFault :=
  if f.isQuery then .failed (.query url none (some f.text)) else .escaped f

/-- The index that came back, checked against the one that was sent. -/
def readIndex (url : Text) (sent : Int) (headers : List (Text × Text)) :
    Except QueryFault (Int × List Notice) :=
  match header? headers indexHeader with
  | none => .ok (0, [noIndex])
  | some raw =>
    match Text.integer? raw with
    | .ok index => .ok (Cursor.check sent index)
    | .error _ =>
      let why := "invalid " ++ indexHeader ++ " header " ++ raw.quoted
      .error (.failed (.query url none (some why)))

/-- The document in a body. One that cannot be read counts as empty. -/
def readBody (body : Bytes) : Except QueryFault (Value × List Notice) :=
  match Text.decode? body with
  | none => .ok (.null, [notJson])
  | some t =>
    match Json.read t with
    | .ok v => .ok (v, [])
    | .error .tooDeep => .error .tooDeep
    | .error _ => .ok (.null, [notJson])

/-- What a query comes to: the index to go on with and the document. -/
def read (s : Source) (r : Request) (o : Outcome) :
    Except QueryFault (Int × Value) × List Notice :=
  let url := r.url s
  match o with
  | .error f => (.error (faultOf url f), [])
  | .ok a =>
    if a.status < 200 ∨ 300 ≤ a.status then
      (.error (.failed (.query url (some a.status) none)), [refused])
    else
      match a.body with
      | .error f => (.error (faultOf url f), [])
      | .ok body =>
        match readIndex url r.index a.headers with
        | .error e => (.error e, [])
        | .ok (index, notes) =>
          match readBody body with
          | .error e => (.error e, notes)
          | .ok (v, more) => (.ok (index, v), notes ++ more)

end Query

end FleetProbe.Catalog
