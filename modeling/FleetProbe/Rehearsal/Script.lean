import FleetProbe.Probe.Task
import FleetProbe.Rehearsal.Cast
import FleetProbe.Rehearsal.Serving
import FleetProbe.Settings.Load
import FleetProbe.Value.Access
/-!
Scripts of a rehearsal as documents: what nodes and the catalog answer, and when. Conditions stand
in a script by name; what a name means is a parameter.
-/

namespace FleetProbe.Rehearsal

namespace Script

open Value

/-- Bytes from pairs of hexadecimal digits, with blanks between them. -/
def unhex : List Nat → Bytes
  | 0x20 :: rest => unhex rest
  | a :: b :: rest =>
    ((Json.hexValue? a).getD 0 * 16 + (Json.hexValue? b).getD 0).toUInt8 :: unhex rest
  | _ => []

def hexBytes (v : Value) : Bytes := unhex v.asText.points

/-- Bytes in hexadecimal, or an object with its one field naming the form. -/
def content : Value → Wire.Content
  | .text t => .bytes (unhex t.points)
  | .map ((k, v) :: _) =>
    let times : List Nat := match v.asItems with
      | [a, n] => (List.replicate n.asInt.toNat a.asText.points).flatten
      | _ => []
    match k.asString with
    | "hex" => .bytes (hexBytes v)
    | "text" => .text v.asText
    | "rep_hex" => .bytes (unhex times)
    | _ => .text ⟨times⟩
  | _ => .bytes []

def bytesOf (o : Value) (k : String) : Bytes :=
  ((o.field? k).bind fun v => (content v).bytes?).getD []

/-- Fields of the header of a request; the first four must be given. -/
def headerFields : List String :=
  ["opcode", "key_length", "extra_length", "value_length", "opaque", "cas", "data_type", "vbucket"]

/-- The length of the body that a header announces, if the lengths of all parts are numbers. -/
def bodyLength? (o : Value) : Option (Amount Float) :=
  (((headerFields.take 4).drop 1).mapM fun k => (o.field k).amount?).bind fun ns =>
    ns.foldlM Amount.add? (.whole 0)

/-- The header of a request, with the length of the body. A field that is no integer has no place
in a header. -/
def header? (o : Value) : Option (Option Wire.RequestHeader × Amount Float) :=
  let given := o.asEntries
  let n (k : String) : Int := o.intOr k 0
  let h : Wire.RequestHeader :=
    { opcode := n "opcode", keyLength := n "key_length", extraLength := n "extra_length"
      valueLength := n "value_length", serial := n "opaque", cas := n "cas"
      dataType := n "data_type", bucket := n "vbucket" }
  if given.all (fun e => headerFields.contains e.1.display)
      && (headerFields.take 4).all (fun k => (o.field? k).isSome) then
    (bodyLength? o).map fun length => (if given.all (·.2.isWhole) then some h else none, length)
  else none

def payload (o : Value) : Wire.Payload :=
  let part k := ((o.field? k).map content).getD (.text "mempoke")
  { key := part "key", value := part "value"
    ttl := match o.field? "ttl" with
      | none => some 60
      | some (.int n) => some n
      | some (.bool b) => some b.toNat
      | _ => none }

/-- A key that is a plain text stands for itself. -/
def probePayload (o : Value) : Wire.Payload :=
  match o.field "key" with
  | .text t => { payload o with key := .text t }
  | _ => payload o

/-- A limit of time under a name; null stands for none. -/
def limitOr (o : Value) (k : String) (standard : Float) : TimeLimit Float :=
  match o.field? k with
  | none => .within (.real standard)
  | some .null => .endless
  | some v => (v.amount?.map .within).getD .unusable

def probeConfig (o : Value) : Probe.Config Float :=
  { interval := limitOr o "probe_interval" 1
    timeout := limitOr o "command_timeout" 1
    connectTimeout := limitOr o "connect_timeout" 1
    backoff := limitOr o "reconnect_backoff" 0.5
    payload := probePayload o }

def frame (o : Value) : FrameScript :=
  { magic := o.natOr "magic" 0x81, key := bytesOf o "key", extra := bytesOf o "extra"
    value := bytesOf o "value", status := o.natOr "status" 0
    serial := (o.field? "opaque").map fun n => n.asInt.toNat, delta := o.intOr "opaque_delta" 0
    slice := match o.itemsOf "slice" with
      | [a, b] => some (a.asInt, b.asInt)
      | _ => none }

def node (v : Value) : Catalog.Node :=
  match v.asItems with
  | [service, ip, port] => ⟨service.asText, ip.asText, port.asInt⟩
  | _ => ⟨"", "", 0⟩

def snapshot (o : Value) : Catalog.Snapshot :=
  ((o.itemsOf "nodes").map node).foldl Catalog.Snapshot.add { index := o.intOr "index" 0 }

/-- A failed query of the catalog, with a status and a reason if they are given. -/
def query (args : List Value) : Failure :=
  let part (k : Nat) : Option Value := match args[k]? with
    | some .null => none
    | v => v
  .query (((part 0).map asText).getD "") ((part 1).map asInt) ((part 2).map asText)

/-- What the program is started with: variables, and files as text or as bytes. -/
def surroundings (o : Value) : Settings.Surroundings :=
  let bytes (v : Value) : Bytes :=
    match v with
    | .text t => (t.encode?).getD []
    | v => ((content v).bytes?).getD []
  { environment := (o.entriesOf "env").map fun (k, v) => (k, v.asText)
    folder := ⟨(o.entriesOf "files").map fun (k, v) => (.ofText k, bytes v)⟩ }

/-- Signals that ask the service to shut down. -/
def heeded : List String := ["SIGINT", "SIGTERM"]

/-- Instants of the signals that reach the service. -/
def signals (o : Value) : List Float :=
  if (o.field "no_signals").isTruthy then []
  else (o.itemsOf "signals").filterMap fun s => match s.asItems with
    | [t, name] => if heeded.contains name.asString then some t.asReal else none
    | _ => none

section

variable (named : String → Text → Fault)

/-- The condition under a name, with its message. -/
def fault? (o : Value) (k : String) : Option Fault :=
  (o.field? k).map fun l => named l.asString (o.textOr "message" "")

def action (o : Value) : Action :=
  { after := o.realOr "after" 0
    deed := match fault? named o "reset", o.field? "hex" with
      | some f, _ => .reset f
      | none, some h => .send (hexBytes h)
      | none, none => if (o.field "eof").isTruthy then .finish else .answer (frame o) }

def connection (o : Value) : ConnectionScript :=
  let actions (v : Value) := v.asItems.map (action named)
  let standard : ConnectionScript := {}
  { delay := o.realOr "delay" 0
    opening :=
      if (o.field "hang").isTruthy then .hangs
      else match fault? named o "fail" with
        | some f => .fails f
        | none => .opens
    replies := ((o.field? "replies").map fun r => r.asItems.map actions).getD standard.replies
    greeting := actions (o.field "greeting") }

def nodes (o : Value) : NodeScripts :=
  (o.entriesOf "nodes").map fun (address, cs) => (address, cs.asItems.map (connection named))

def reply (o : Value) : Reply :=
  let body := match o.field? "body_hex" with
    | some h => hexBytes h
    | none => ((o.textOr "body" "").encode?).getD []
  let headers := (o.entriesOf "headers").map fun (k, v) => (k, v.asText)
  let response (body : Except Fault Bytes) : Catalog.Response :=
    ⟨o.intOr "status" 200, headers, body⟩
  { delay := o.realOr "delay" 0
    outcome := match fault? named o "raise" with
      | none => .ok (response (.ok body))
      | some f =>
        if o.word "raise_at" == "read" then .ok (response (.error f)) else .error f }

def web (o : Value) : Web :=
  (o.entriesOf "http").map fun (path, rs) => (path, rs.asItems.map (reply named))

/-- The world around a service. -/
def serving (o : Value) (service : Service Float) : Serving :=
  { service, web := web named o, wiring := { net := { scripts := nodes named o } }
    signals := signals o }

end

/-- The condition that a name stands for where names are those of kinds. -/
def condition (label : String) (detail : Text) : Fault :=
  let kind : FaultKind := match label with
    | "deadline" => .deadline
    | "system" => .system
    | "exchange" => .exchange
    | _ => .other
  ⟨kind, label, detail⟩

/-- Scripted probes of nodes. -/
def parts (o : Value) : List (Text × List Part) :=
  (o.entriesOf "probes").map fun (key, l) => (key, l.asItems.map fun x =>
    { life := (x.field? "life").map asReal, crash := (x.field "crash").isTruthy
      linger := x.realOr "linger" 0 })

end Script

end FleetProbe.Rehearsal
