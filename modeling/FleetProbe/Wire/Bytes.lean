/-!
Byte strings, big-endian numbers, and reading at an offset. A negative offset counts from the end.
-/

namespace FleetProbe

abbrev Bytes := List UInt8

namespace Bytes

/-- The `width` lowest bytes of a number, highest first. -/
def ofNat : (width : Nat) → Nat → Bytes
  | 0, _ => []
  | width + 1, n => (n / Nat.pow 256 width).toUInt8 :: ofNat width n

/-- The number that bytes spell, highest first. -/
def toNat (bs : Bytes) : Nat := bs.foldl (fun n b => n * 256 + b.toNat) 0

/-- A bound of a slice, clamped to the string. -/
def bound (size : Nat) (i : Int) : Nat :=
  if i < 0 then (size + i).toNat else min size i.toNat

/-- The bytes between two bounds; none when the bounds are inverted. -/
def slice (bs : Bytes) (first last : Int) : Bytes :=
  let a := bound bs.length first
  let b := bound bs.length last
  (bs.drop a).take (b - a)

/-- The byte at an offset. -/
def at? (bs : Bytes) (i : Int) : Option UInt8 :=
  if i < 0 then (if 0 ≤ bs.length + i then bs[(bs.length + i).toNat]? else none)
  else bs[i.toNat]?

/-- `width` bytes from an offset, all of them or none. A field cannot start before the end and
reach past it. -/
def field? (bs : Bytes) (offset : Int) (width : Nat) : Option Bytes :=
  let start : Int := if offset < 0 then bs.length + offset else offset
  if offset < 0 ∧ 0 < offset + width then none
  else if start < 0 then none
  else
    let found := (bs.drop start.toNat).take width
    if found.length = width then some found else none

end Bytes

end FleetProbe
