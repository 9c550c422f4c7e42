import FleetProbe.Catalog.Query
/-!
A catalog that answers from a script: for every path a list of answers, taken one per query, the
last of them again and again.
-/

namespace FleetProbe.Rehearsal

/-- An answer that comes some time after its query. -/
structure Reply where
  delay : Float
  outcome : Catalog.Outcome

namespace Reply

/-- The answer for a path without a script. -/
def notFound : Reply := ⟨0, .ok ⟨404, [], .ok []⟩⟩

end Reply

abbrev Web := List (Text × List Reply)

namespace Web

/-- Takes the next answer of a path. -/
def take (path : Text) : Web → Reply × Web
  | [] => (.notFound, [])
  | (p, replies) :: rest =>
    if p = path then
      match replies with
      | [] => (.notFound, (p, []) :: rest)
      | [r] => (r, (p, [r]) :: rest)
      | r :: more => (r, (p, more) :: rest)
    else
      let (r, rest) := take path rest
      (r, (p, replies) :: rest)

end Web

/-- A query as it was sent. -/
structure Sent where
  instant : Float
  address : Text
  index : Int
  wait : Text

namespace Sent

def ofRequest (now : Float) (s : Catalog.Source) (r : Catalog.Request) : Sent :=
  ⟨now, r.address s, r.index, s.wait⟩

end Sent

end FleetProbe.Rehearsal
