import FleetProbe.Text.Basic
import FleetProbe.Text.Case
/-!
Levels of log records: numbers, some of which have a name.
-/

namespace FleetProbe.Log

namespace Level

def names : List (String × Int) :=
  [("CRITICAL", 50), ("ERROR", 40), ("WARNING", 30), ("INFO", 20), ("DEBUG", 10), ("NOTSET", 0)]

/-- Above every named level. -/
def off : Int := 51

def standard : Int := 20

/-- Level in force before anything is set up, and that of records nobody wants to see. -/
def quiet : Int := 30

/-- The level under a name, whatever its case; an unknown name stands for the standard level. -/
def ofName (t : Text) : Int :=
  let name := Text.upper t.display
  if name = "OFF" then off else (names.lookup name).getD standard

/-- The name of a level. -/
def name (n : Int) : String :=
  ((names.find? fun e => e.2 == n).map Prod.fst).getD ("Level " ++ toString n)

end Level

end FleetProbe.Log
