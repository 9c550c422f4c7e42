import FleetProbe.Fault
import FleetProbe.Wire.Header
/-!
Scripted peers: how each connection to a node opens, and what the node does some time after the
connection opened or a request came in.
-/

namespace FleetProbe.Rehearsal

/-- A response frame, written against the request it answers. -/
structure FrameScript where
  magic : Nat := Wire.responseMagic
  key : Bytes := []
  extra : Bytes := []
  value : Bytes := []
  status : Nat := 0
  /-- A serial of its own instead of that of the request. -/
  serial : Option Nat := none
  /-- What is added to the serial of the request. -/
  delta : Int := 0
  /-- Only this part of the frame is sent. -/
  slice : Option (Int × Int) := none

namespace FrameScript

def bytes (s : FrameScript) (opcode serial : Nat) : Bytes :=
  let header : Wire.ResponseHeader :=
    { magic := s.magic, opcode, keyLength := s.key.length, extraLength := s.extra.length,
      dataType := 0, status := s.status,
      bodyLength := s.extra.length + s.key.length + s.value.length,
      serial := s.serial.getD (((serial : Int) + s.delta) % 0x100000000).toNat, cas := 0 }
  let frame := header.encode ++ s.extra ++ s.key ++ s.value
  match s.slice with
  | some (a, b) => Bytes.slice frame a b
  | none => frame

end FrameScript

inductive Deed where
  /-- The peer ends its stream. -/
  | finish
  | reset (f : Fault)
  | send (bs : Bytes)
  | answer (s : FrameScript)

/-- Something a peer does a while after it was set off. -/
structure Action where
  after : Float
  deed : Deed

/-- How opening a connection goes. -/
inductive Opening where
  | opens
  /-- Nothing ever happens. -/
  | hangs
  | fails (f : Fault)

structure ConnectionScript where
  delay : Float := 0
  opening : Opening := .opens
  /-- Actions set off by each request in turn, the last again and again. -/
  replies : List (List Action) := [[⟨0.0625, .answer {}⟩]]
  /-- Actions set off by the opening. -/
  greeting : List Action := []

namespace ConnectionScript

/-- The actions for the `i`-th request. -/
def reply (s : ConnectionScript) (i : Nat) : List Action :=
  (s.replies[i]?).getD (s.replies.getLast?.getD [])

end ConnectionScript

/-- Scripts of the connections to an address in turn, the last again and again. -/
abbrev NodeScripts := List (Text × List ConnectionScript)

namespace NodeScripts

/-- The script of the `i`-th connection to an address. -/
def script (n : NodeScripts) (address : Text) (i : Nat) : ConnectionScript :=
  match List.find? (fun e => e.1 == address) n with
  | some (_, scripts) => (scripts[i]?).getD (scripts.getLast?.getD {})
  | none => {}

end NodeScripts

end FleetProbe.Rehearsal
