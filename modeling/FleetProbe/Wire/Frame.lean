import FleetProbe.Wire.Header
import FleetProbe.Wire.Status
/-!
Response frames. `Frame.check` measures the frame at an offset of a buffer, `Frame.parse` decodes
one that was measured, and `Frame.walk` takes frame after frame off a buffer.
-/

namespace FleetProbe.Wire

structure Frame where
  header : ResponseHeader
  extra : Bytes
  key : Bytes
  value : Bytes
  deriving DecidableEq, Repr

namespace Frame

def status (f : Frame) : String := Status.label f.header.status

def length (f : Frame) : Nat := headerSize + f.header.bodyLength

def encode (f : Frame) : Bytes := f.header.encode ++ f.extra ++ f.key ++ f.value

/-- Length of the frame at an offset, once all of it is buffered. -/
def check (buffer : Bytes) (offset : Int) : Except FrameFault Nat :=
  match ResponseHeader.check buffer offset with
  | .error e => .error e
  | .ok total => if buffer.length - offset < total then .error .incomplete else .ok total

/-- Decodes the frame at an offset where `check` succeeded. -/
def parse (buffer : Bytes) (offset : Int) : Except FrameFault Frame :=
  match ResponseHeader.parse buffer offset with
  | .error e => .error e
  | .ok h =>
    let start := offset + headerSize
    let keyStart := start + h.extraLength
    let valueStart := keyStart + h.keyLength
    let valueEnd := start + h.bodyLength
    .ok { header := h, extra := Bytes.slice buffer start keyStart,
          key := Bytes.slice buffer keyStart valueStart,
          value := Bytes.slice buffer valueStart valueEnd }

/-- The frames found one after the other, the offset reached, and what ended the walk. -/
structure Walk where
  frames : List Frame
  offset : Int
  fault : FrameFault
  deriving DecidableEq, Repr

/-- Walks from an offset; every frame has 24 bytes, so `fuel` bounds the frames of a buffer. -/
def walkFrom (buffer : Bytes) : (fuel : Nat) → (offset : Int) → Walk
  | 0, offset => ⟨[], offset, .incomplete⟩
  | fuel + 1, offset =>
    match check buffer offset with
    | .error e => ⟨[], offset, e⟩
    | .ok total =>
      match parse buffer offset with
      | .error e => ⟨[], offset, e⟩
      | .ok f =>
        let rest := walkFrom buffer fuel (offset + total)
        { rest with frames := f :: rest.frames }

/-- Checks, parses and advances until no complete frame is left. -/
def walk (buffer : Bytes) (offset : Int) : Walk :=
  walkFrom buffer (buffer.length + offset.natAbs + 1) offset

end Frame

end FleetProbe.Wire
