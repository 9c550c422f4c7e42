/-!
Bytes written with 64 characters of six bits each. Other characters do not count; padding fills the
last group of four, and what follows it does not count either.
-/

namespace FleetProbe.Text.Base64

/-- The six bits of a character. -/
def sextet? (p : Nat) : Option Nat :=
  if 0x41 ≤ p ∧ p ≤ 0x5a then some (p - 0x41)
  else if 0x61 ≤ p ∧ p ≤ 0x7a then some (p - 0x61 + 26)
  else if 0x30 ≤ p ∧ p ≤ 0x39 then some (p - 0x30 + 52)
  else if p = 0x2b then some 62
  else if p = 0x2f then some 63
  else none

/-- Reads on within a group: `place` characters of it are read, `pads` marks of padding stand behind
them, and `left` holds the bits that make no byte yet. A group must not stop short. -/
def decodeFrom? (place pads left : Nat) : List Nat → Option (List UInt8)
  | [] => if place = 0 then some [] else none
  | p :: ps =>
    if p = 0x3d then
      if place < 2 then decodeFrom? place pads left ps
      else if 4 ≤ place + pads + 1 then some []
      else decodeFrom? place (pads + 1) left ps
    else
      match sextet? p with
      | none => decodeFrom? place pads left ps
      | some v =>
        match place with
        | 0 => decodeFrom? 1 0 v ps
        | 1 => (decodeFrom? 2 0 (v % 16) ps).map ((left * 4 + v / 16).toUInt8 :: ·)
        | 2 => (decodeFrom? 3 0 (v % 4) ps).map ((left * 16 + v / 4).toUInt8 :: ·)
        | _ => (decodeFrom? 0 0 0 ps).map ((left * 64 + v).toUInt8 :: ·)

/-- The bytes that a text spells. -/
def decode? (ps : List Nat) : Option (List UInt8) := decodeFrom? 0 0 0 ps

end FleetProbe.Text.Base64
