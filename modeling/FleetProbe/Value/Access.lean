import FleetProbe.Number.Quantity
import FleetProbe.Value
/-!
Reading a document by name and kind. What is absent or of another kind becomes a default.
-/

namespace FleetProbe.Value

/-- What an object holds under a name. -/
def field? (o : Value) (k : String) : Option Value :=
  match o with
  | .map es => entry? es k
  | _ => none

def field (o : Value) (k : String) : Value := (o.field? k).getD .null

def asText : Value → Text
  | .text t => t
  | _ => ""

def asString (v : Value) : String := v.asText.display

def asInt : Value → Int
  | .int i => i
  | .bool b => b.toNat
  | .real x => ((Number.Binary64.truncate? x).map Prod.fst).getD 0
  | _ => 0

/-- Integers and what counts as one. -/
def isWhole : Value → Bool
  | .int _ | .bool _ => true
  | _ => false

def asItems : Value → List Value
  | .list vs => vs
  | _ => []

def asEntries : Value → List (Text × Value)
  | .map es => es.map fun (k, v) => (k.asText, v)
  | _ => []

/-- Integers stay integers. -/
def asAmount : Value → Amount Float
  | .real x => .real x
  | v => .whole v.asInt

/-- A number as an amount. -/
def amount? : Value → Option (Amount Float)
  | .real x => some (.real x)
  | .int i => some (.whole i)
  | .bool b => some (.whole b.toNat)
  | _ => none

def ofAmount : Amount Float → Value
  | .whole n => .int n
  | .real x => .real x

def asReal (v : Value) : Float := v.asAmount.real?.getD 0

def word (o : Value) (k : String) : String := (o.field k).asString

/-- What an object holds under a name, read in some way. -/
def readOr {β : Type} (read : Value → β) (o : Value) (k : String) (standard : β) : β :=
  ((o.field? k).map read).getD standard

def intOr : Value → String → Int → Int := readOr asInt

def natOr (o : Value) (k : String) (n : Nat) : Nat := (o.intOr k n).toNat

def textOr : Value → String → Text → Text := readOr asText

def realOr : Value → String → Float → Float := readOr asReal

def amountOr : Value → String → Amount Float → Amount Float := readOr asAmount

/-- The items under a name. -/
def itemsOf (o : Value) (k : String) : List Value := (o.field k).asItems

def entriesOf (o : Value) (k : String) : List (Text × Value) := (o.field k).asEntries

end FleetProbe.Value
