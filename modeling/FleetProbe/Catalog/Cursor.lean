import FleetProbe.Notice
/-!
The index that a poll starts from. One that went backward or below zero starts again at zero.
-/

namespace FleetProbe.Catalog.Cursor

def backward : Notice :=
  ⟨.warning, "Consul index querying list of services is lower than previous one (%s < %s). "
    ++ "Will need to reset it to 0"⟩

def negative : Notice := ⟨.warning, "Consul index < 0 (%s). Will need to reset it to 0"⟩

/-- The index to go on with, after one that was sent and one that came back. -/
def check (previous index : Int) : Int × List Notice :=
  if index < previous then (0, [backward])
  else if index < 0 then (0, [negative])
  else (index, [])

end FleetProbe.Catalog.Cursor
