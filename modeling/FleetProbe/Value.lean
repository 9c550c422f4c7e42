import FleetProbe.Text.Basic
/-!
What a JSON or YAML document holds. Integers are unbounded and differ from reals; the entries of a
mapping keep the order in which their keys first came.
-/

namespace FleetProbe

inductive Value where
  | null
  | bool (b : Bool)
  | int (i : Int)
  | real (x : Float)
  | text (t : Text)
  | bytes (bs : List UInt8)
  /-- A date, with or without a time of day, in its written form. A time of day may be known as an
  instant, in microseconds of universal time. -/
  | date (timed : Bool) (instant : Option Int) (t : Text)
  | list (items : List Value)
  | map (entries : List (Value × Value))
  /-- A list or a mapping that stands within itself and is not opened again. -/
  | again (mapping : Bool)
  deriving Inhabited

namespace Value

def ofString (s : String) : Value := .text (Text.ofString s)

instance : Coe String Value := ⟨ofString⟩

/-- A mapping with text keys. -/
def ofFields (fields : List (String × Value)) : Value :=
  .map (fields.map fun (k, v) => (ofString k, v))

/-- Whether a key is the given text. -/
def isText (t : Text) : Value → Bool
  | .text u => u == t
  | _ => false

/-- The value stored under a text key. -/
def entry? (entries : List (Value × Value)) (key : Text) : Option Value :=
  (entries.find? fun e => e.1.isText key).map Prod.snd

/-- Empty or zero values count as absent; NaN does not. -/
def isTruthy : Value → Bool
  | .null => false
  | .bool b => b
  | .int i => i != 0
  | .real x => !(x == 0)
  | .text t => !t.isEmpty
  | .bytes bs => !bs.isEmpty
  | .date _ _ _ => true
  | .list items => !items.isEmpty
  | .map entries => !entries.isEmpty
  | .again _ => true

end Value

/-- Puts a text key into entries kept in order of first appearance; a known key keeps its place. -/
def putField (key : Text) (value : Value) : List (Value × Value) → List (Value × Value)
  | [] => [(.text key, value)]
  | e :: es =>
    if e.1.isText key then (e.1, value) :: es else e :: putField key value es

end FleetProbe
