import FleetProbe.Text.Utf8
import FleetProbe.Wire.Command
/-!
What a probe stores: a key, a value and a time to live, as they are configured. Not every
configuration can be written on the wire.
-/

namespace FleetProbe.Wire

/-- Bytes, or text that stands for its UTF-8 bytes. -/
inductive Content where
  | bytes (b : Bytes)
  | text (t : Text)
  deriving DecidableEq, Repr

/-- `none` when a surrogate stands in the text. -/
def Content.bytes? : Content → Option Bytes
  | .bytes b => some b
  | .text t => t.encode?

/-- Why a command cannot be written. -/
inductive CommandFault where
  /-- A text has no UTF-8 form. -/
  | unencodable
  /-- A number or a length does not fit its field. -/
  | outOfRange
  deriving DecidableEq, Repr

structure Payload where
  key : Content
  value : Content
  /-- Nothing when the time to live is no integer. -/
  ttl : Option Int
  deriving DecidableEq, Repr

namespace Payload

/-- The store command. -/
def set (p : Payload) (serial : Int) : Except CommandFault Command :=
  match p.key.bytes?, p.value.bytes? with
  | some key, some value =>
    match p.ttl.bind Command.ttl? with
    | some ttl => .ok (.set key value ttl serial)
    | none => .error .outOfRange
  | _, _ => .error .unencodable

/-- The command that reads the key back. -/
def get (p : Payload) (serial : Int) : Except CommandFault Command :=
  match p.key.bytes? with
  | some key => .ok (.get key serial)
  | none => .error .unencodable

end Payload

/-- The bytes of a command. -/
def Command.encode (c : Command) : Except CommandFault Bytes :=
  match c.encode? with
  | some bs => .ok bs
  | none => .error .outOfRange

end FleetProbe.Wire
