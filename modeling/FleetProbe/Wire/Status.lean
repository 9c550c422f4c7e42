import FleetProbe.Value.Display
import FleetProbe.Value.Key
/-!
Status codes of responses.
-/

namespace FleetProbe.Wire

/-- Statuses with a name. -/
inductive Status where
  | noError
  | keyNotFound
  | keyExists
  | valueTooLarge
  | invalidArguments
  | itemNotStored
  | notNumeric
  | unknownCommand
  | outOfMemory
  deriving DecidableEq, Repr

namespace Status

def code : Status → Nat
  | noError => 0x00
  | keyNotFound => 0x01
  | keyExists => 0x02
  | valueTooLarge => 0x03
  | invalidArguments => 0x04
  | itemNotStored => 0x05
  | notNumeric => 0x06
  | unknownCommand => 0x81
  | outOfMemory => 0x82

def name : Status → String
  | noError => "NoError"
  | keyNotFound => "KeyNotFound"
  | keyExists => "KeyExists"
  | valueTooLarge => "ValueTooLarge"
  | invalidArguments => "InvalidArguments"
  | itemNotStored => "ItemNotStored"
  | notNumeric => "IncrDecrOnNonNumericValue"
  | unknownCommand => "UnknownCommand"
  | outOfMemory => "OutOfMemory"

def all : List Status :=
  [noError, keyNotFound, keyExists, valueTooLarge, invalidArguments, itemNotStored, notNumeric,
    unknownCommand, outOfMemory]

/-- The status with a code. -/
def ofCode? (n : Int) : Option Status := all.find? fun s => (s.code : Int) == n

/-- A code is shown by its name, or as its number when it has none. -/
def label (n : Int) : String :=
  match ofCode? n with
  | some s => s.name
  | none => toString n

/-- The label of anything given as a code: what equals a code is one, and the rest is shown as it
is. A number with too many digits cannot be shown. -/
def labelOf? (v : Value) : Option Text :=
  match v.wholeKey?.bind ofCode? with
  | some s => some s.name
  | none => v.shown?

end Status

end FleetProbe.Wire
