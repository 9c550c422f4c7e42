import FleetProbe.Wire.Bytes
/-!
The header of the binary protocol: 24 bytes in network order before every body.

    magic 1, opcode 1, key length 2, extra length 1, data type 1, status or bucket 2,
    body length 4, serial 4, cas 8
-/

namespace FleetProbe.Wire

def headerSize : Nat := 24

def requestMagic : Nat := 0x80

def responseMagic : Nat := 0x81

/-- Header of a request. The body length is that of the three parts together. -/
structure RequestHeader where
  opcode : Int
  keyLength : Int
  extraLength : Int
  valueLength : Int
  serial : Int := 0
  cas : Int := 0
  dataType : Int := 0
  bucket : Int := 0
  deriving DecidableEq, Repr

namespace RequestHeader

def bodyLength (h : RequestHeader) : Int := h.keyLength + h.extraLength + h.valueLength

/-- Fields in wire order, each with its width. -/
def fields (h : RequestHeader) : List (Nat × Int) :=
  [(1, requestMagic), (1, h.opcode), (2, h.keyLength), (1, h.extraLength), (1, h.dataType),
    (2, h.bucket), (4, h.bodyLength), (4, h.serial), (8, h.cas)]

end RequestHeader

/-- Writes an unsigned field; `none` when the number does not fit its width. -/
def writeField? (width : Nat) (n : Int) : Option Bytes :=
  if 0 ≤ n ∧ n < (Nat.pow 256 width : Nat) then some (Bytes.ofNat width n.toNat) else none

/-- Writes fields one after the other. -/
def writeFields? : List (Nat × Int) → Option Bytes
  | [] => some []
  | (width, n) :: rest =>
    match writeField? width n, writeFields? rest with
    | some a, some b => some (a ++ b)
    | _, _ => none

/-- `none` when a field does not fit. -/
def RequestHeader.encode? (h : RequestHeader) : Option Bytes := writeFields? h.fields

/-- Header of a response. -/
structure ResponseHeader where
  magic : Nat
  opcode : Nat
  keyLength : Nat
  extraLength : Nat
  dataType : Nat
  status : Nat
  bodyLength : Nat
  serial : Nat
  cas : Nat
  deriving DecidableEq, Repr

namespace ResponseHeader

/-- What the body leaves for the value; negative when the other lengths exceed the body. -/
def valueLength (h : ResponseHeader) : Int := h.bodyLength - h.keyLength - h.extraLength

def encode (h : ResponseHeader) : Bytes :=
  Bytes.ofNat 1 h.magic ++ Bytes.ofNat 1 h.opcode ++ Bytes.ofNat 2 h.keyLength
    ++ Bytes.ofNat 1 h.extraLength ++ Bytes.ofNat 1 h.dataType ++ Bytes.ofNat 2 h.status
    ++ Bytes.ofNat 4 h.bodyLength ++ Bytes.ofNat 4 h.serial ++ Bytes.ofNat 8 h.cas

/-- Reads the fields of 24 bytes. -/
def ofBytes (bs : Bytes) : ResponseHeader :=
  let field (first width : Nat) := Bytes.toNat ((bs.drop first).take width)
  { magic := field 0 1, opcode := field 1 1, keyLength := field 2 2, extraLength := field 4 1,
    dataType := field 5 1, status := field 6 2, bodyLength := field 8 4, serial := field 12 4,
    cas := field 16 8 }

end ResponseHeader

/-- Why no frame can be read. -/
inductive FrameFault where
  /-- More bytes are needed. -/
  | incomplete
  /-- The first byte is not that of a response. -/
  | mismatch (magic : Nat)
  /-- A negative offset lies before the start of the buffer. -/
  | noSuchByte
  /-- The bytes of a field are not all there. -/
  | shortField
  /-- The bytes are not there, and the machine cannot even hold the offset. -/
  | farOffset
  deriving DecidableEq, Repr

namespace FrameFault

/-- The two faults that a growing buffer can have; the others mean a wrong offset. -/
def isFraming : FrameFault → Bool
  | incomplete | mismatch _ => true
  | noSuchByte | shortField | farOffset => false

end FrameFault

namespace ResponseHeader

/-- Whether an offset fits into a signed word. -/
def isHeld (offset : Int) : Bool := -0x8000000000000000 ≤ offset && offset < 0x8000000000000000

/-- The header at an offset where 24 bytes are buffered. -/
def parse (buffer : Bytes) (offset : Int) : Except FrameFault ResponseHeader :=
  match Bytes.field? buffer offset headerSize with
  | some bs => .ok (ofBytes bs)
  | none => .error (if isHeld offset then .shortField else .farOffset)

/-- Length of the frame announced at an offset. -/
def check (buffer : Bytes) (offset : Int) : Except FrameFault Nat :=
  if buffer.length - offset < headerSize then .error .incomplete
  else
    match Bytes.at? buffer offset with
    | none => .error .noSuchByte
    | some magic =>
      if magic.toNat ≠ responseMagic then .error (.mismatch magic.toNat)
      else
        match Bytes.field? buffer (offset + 8) 4 with
        | some bs => .ok (headerSize + Bytes.toNat bs)
        | none => .error .shortField

end ResponseHeader

end FleetProbe.Wire
