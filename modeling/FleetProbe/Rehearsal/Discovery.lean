import FleetProbe.Catalog.Listing
import FleetProbe.Catalog.Session
import FleetProbe.Catalog.Wait
import FleetProbe.Rehearsal.Web
import FleetProbe.Value.Access
/-!
A client of a scripted catalog that makes one call after the other in virtual time.
-/

namespace FleetProbe.Rehearsal

open Catalog

/-- Why there can be no client of a catalog. -/
inductive SetupFault where
  /-- The address of the catalog is no text, or the longest wait is none. -/
  | notText
  | wait (t : Text) (f : Wait.Fault)
  /-- The time for an exchange is no number. -/
  | noTime
  /-- The time for an exchange is beyond all numbers. -/
  | farTime
  deriving Repr

structure Discovery where
  source : Source
  /-- Longest a query may take. -/
  limit : Float := 0
  /-- What the client proves its rights with. -/
  token : Value := .null
  now : Float := 0
  web : Web
  sessions : Sessions := Sessions.init
  /-- Queries sent since the last report, in order. -/
  sent : List Sent := []
  notices : List Notice := []

namespace Discovery

/-- A client as a document describes it. -/
def ofDocument (client : Value) (web : Web) : Except SetupFault Discovery := do
  let .text base := (client.field? "base_url").getD (.text Text.empty) | .error .notText
  let .text wait := (client.field? "wait").getD (.text Wait.standard) | .error .notText
  let hold ← (Wait.seconds wait).mapError (SetupFault.wait wait)
  let some exchange := ((client.field? "request_timeout").getD (.int 10)).amount?
    | .error .noTime
  let some exchange := exchange.real? | .error .farTime
  .ok { source := Source.ofAddress base wait, limit := Session.limit hold exchange,
        token := client.field "token", web }

/-- Sends one query and waits for its answer. -/
def query (d : Discovery) (r : Request) : Outcome × Discovery :=
  let (reply, web) := d.web.take r.path
  (reply.outcome, { d with
    now := d.now + reply.delay, web, sessions := d.sessions.acquire,
    sent := d.sent ++ [Sent.ofRequest d.now d.source r] })

/-- Goes on with a poll; `fuel` bounds its queries. -/
def follow : (fuel : Nat) → Discovery → Listing → Except QueryFault Snapshot × Discovery
  | 0, d, _ => (.error .tooDeep, d)
  | fuel + 1, d, l =>
    let (o, d) := d.query l.request
    let (turn, notes) := l.step d.source o
    let d := { d with notices := d.notices ++ notes }
    match turn with
    | .finish r => (r, d)
    | .ask l => follow fuel d l

/-- Queries that a poll is known to need. -/
def queries : Listing → Nat
  | .services .. => 1
  | .nodes _ _ remaining => remaining.length + 1

/-- A whole poll. -/
def list (d : Discovery) (previous : Int) (tag : Text) : Except QueryFault Snapshot × Discovery :=
  let l := Listing.services previous tag
  let (o, d) := d.query l.request
  let (turn, notes) := l.step d.source o
  let d := { d with notices := d.notices ++ notes }
  match turn with
  | .finish r => (r, d)
  | .ask l => follow (queries l) d l

/-- The nodes of one service. -/
def nodes (d : Discovery) (service : Text) : Except QueryFault (List Node) × Discovery :=
  if (Text.encode? service).isSome then
    let (o, d) := d.query (Listing.nodesRequest service)
    let (r, notes) := Listing.nodesOf d.source service o
    (r, { d with notices := d.notices ++ notes })
  else (.error .unencodable, d)

end Discovery

/-- Checks an index that came back, both being numbers of any kind; `none` when one is no number. -/
def checkIndex? (previous index : Value) : Option (Value × List Notice) := do
  let sent ← previous.amount?
  let back ← index.amount?
  if back.lt sent then some (.int 0, [Cursor.backward])
  else if back.lt (.whole 0) then some (.int 0, [Cursor.negative])
  else some (index, [])

end FleetProbe.Rehearsal
