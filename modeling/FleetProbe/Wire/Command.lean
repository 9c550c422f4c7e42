import FleetProbe.Wire.Header
/-!
The two requests of a probe: store a value under a key, then read it back.
-/

namespace FleetProbe.Wire

inductive Command where
  | get (key : Bytes) (serial : Int)
  | set (key value : Bytes) (ttl : Nat) (serial : Int)
  deriving DecidableEq, Repr

namespace Command

/-- Bytes of extras that a store carries: the time to live as an unsigned number. -/
def setExtraLength : Nat := 8

/-- A time to live is an integer of 64 bits. -/
def ttl? (n : Int) : Option Nat := if 0 ≤ n ∧ n < 0x10000000000000000 then some n.toNat else none

def name : Command → String
  | get .. => "get"
  | set .. => "set"

def opcode : Command → Nat
  | get .. => 0x00
  | set .. => 0x01

def serial : Command → Int
  | get _ serial => serial
  | set _ _ _ serial => serial

def header : Command → RequestHeader
  | get key serial =>
    { opcode := 0x00, keyLength := key.length, extraLength := 0, valueLength := 0,
      serial := serial }
  | set key value _ serial =>
    { opcode := 0x01, keyLength := key.length, extraLength := setExtraLength,
      valueLength := value.length, serial := serial }

/-- Extras, key and value in wire order. -/
def body : Command → Bytes
  | get key _ => key
  | set key value ttl _ => Bytes.ofNat setExtraLength ttl ++ key ++ value

/-- `none` when the key, the body or the serial does not fit its field. -/
def encode? (c : Command) : Option Bytes := c.header.encode?.map (· ++ c.body)

end Command

end FleetProbe.Wire
