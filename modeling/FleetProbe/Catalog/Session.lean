/-!
HTTP sessions of a catalog client: one is opened for a query when none is open, and the client
closes only those it opened itself.
-/

namespace FleetProbe.Catalog

structure Session where
  /-- The session came from the caller. -/
  given : Bool
  isOpen : Bool
  deriving DecidableEq, Repr

/-- Longest a query may take: the time the catalog may hold it, the spread of a sixteenth that the
catalog adds to it, and some time for the exchange itself. -/
def Session.limit (hold exchange : Float) : Float := hold + hold / 16 + exchange

/-- All sessions a client has had, newest first; the newest is the one in use. -/
abbrev Sessions := List Session

namespace Sessions

def init : Sessions := []

def initGiven (isOpen : Bool) : Sessions := [⟨true, isOpen⟩]

/-- Makes sure that the newest session is open. -/
def acquire : Sessions → Sessions
  | s :: rest => if s.isOpen then s :: rest else ⟨false, true⟩ :: s :: rest
  | [] => [⟨false, true⟩]

/-- The client closes its own session. -/
def close : Sessions → Sessions
  | s :: rest => (if s.given then s else { s with isOpen := false }) :: rest
  | [] => []

/-- Somebody else closes the session. -/
def drop : Sessions → Sessions
  | s :: rest => { s with isOpen := false } :: rest
  | [] => []

end Sessions

end FleetProbe.Catalog
