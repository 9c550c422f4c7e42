import FleetProbe.Text.Basic
/-!
UTF-8: `encode` refuses exactly the texts with a surrogate, `decode` exactly the byte strings that
no text encodes to.
-/

namespace FleetProbe.Text

/-- Bytes of one code point. -/
def encodePoint (p : Nat) : List UInt8 :=
  if p < 0x80 then [p.toUInt8]
  else if p < 0x800 then [(0xc0 + p / 64).toUInt8, (0x80 + p % 64).toUInt8]
  else if p < 0x10000 then
    [(0xe0 + p / 4096).toUInt8, (0x80 + p / 64 % 64).toUInt8, (0x80 + p % 64).toUInt8]
  else
    [(0xf0 + p / 262144).toUInt8, (0x80 + p / 4096 % 64).toUInt8, (0x80 + p / 64 % 64).toUInt8,
      (0x80 + p % 64).toUInt8]

/-- `none` when a surrogate stands in the text. -/
def encode? (t : Text) : Option (List UInt8) :=
  if t.points.any isSurrogate then none else some (t.points.flatMap encodePoint)

/-- Six bits of a byte that continues a character. -/
def continuation? (b : UInt8) : Option Nat :=
  if 0x80 ≤ b ∧ b < 0xc0 then some (b.toNat - 0x80) else none

/-- Overlong forms, surrogates and numbers beyond the last code point are refused. -/
def decodePoints? : List UInt8 → Option (List Nat)
  | [] => some []
  | a :: rest =>
    if a < 0x80 then (decodePoints? rest).map (a.toNat :: ·)
    else if a < 0xc2 then none
    else if a < 0xe0 then
      match rest with
      | b :: rest =>
        match continuation? b with
        | some x => (decodePoints? rest).map (((a.toNat - 0xc0) * 64 + x) :: ·)
        | none => none
      | [] => none
    else if a < 0xf0 then
      match rest with
      | b :: c :: rest =>
        match continuation? b, continuation? c with
        | some x, some y =>
          let p := (a.toNat - 0xe0) * 4096 + x * 64 + y
          if p < 0x800 ∨ isSurrogate p then none else (decodePoints? rest).map (p :: ·)
        | _, _ => none
      | _ => none
    else if a < 0xf5 then
      match rest with
      | b :: c :: d :: rest =>
        match continuation? b, continuation? c, continuation? d with
        | some x, some y, some z =>
          let p := (a.toNat - 0xf0) * 262144 + x * 4096 + y * 64 + z
          if p < 0x10000 ∨ 0x10ffff < p then none else (decodePoints? rest).map (p :: ·)
        | _, _, _ => none
      | _ => none
    else none

def decode? (bytes : List UInt8) : Option Text := (decodePoints? bytes).map Text.mk

end FleetProbe.Text
