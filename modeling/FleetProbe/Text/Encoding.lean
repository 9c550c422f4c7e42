import FleetProbe.Text.SmallLetters
import FleetProbe.Text.Utf8
/-!
Encodings by their names. A name may be written in capitals, and any mark may stand between its
parts.
-/

namespace FleetProbe.Text

inductive Encoding where
  | utf8
  /-- A mark of the byte order in front does not count. -/
  | utf8Marked
  | ascii
  | latin1
  | windows1252
  /-- Two bytes for a unit; a mark of the byte order comes first, or low bytes do. -/
  | utf16
  | utf16Low
  | utf16High
  deriving DecidableEq, Repr

namespace Encoding

def names : List (String × Encoding) :=
  [("utf_8", utf8), ("utf8", utf8), ("u8", utf8), ("utf", utf8), ("cp65001", utf8),
    ("utf_8_sig", utf8Marked), ("utf8_sig", utf8Marked), ("ascii", ascii), ("us_ascii", ascii),
    ("646", ascii), ("latin_1", latin1), ("latin1", latin1), ("latin", latin1), ("l1", latin1),
    ("iso_8859_1", latin1), ("iso8859_1", latin1), ("iso8859", latin1), ("8859", latin1),
    ("cp819", latin1), ("cp1252", windows1252), ("1252", windows1252),
    ("windows_1252", windows1252), ("utf_16", utf16), ("utf16", utf16), ("u16", utf16),
    ("utf_16_le", utf16Low), ("utf_16le", utf16Low), ("utf_16_be", utf16High),
    ("utf_16be", utf16High)]

def isAlphanumeric (p : Nat) : Bool := (0x30 ≤ p && p ≤ 0x39) || (0x61 ≤ p && p ≤ 0x7a)

/-- The parts of a name with one mark between them. -/
def plainName (ps : List Nat) : List Nat :=
  let parts := (inSmallLetters false ps).splitBy fun p q => isAlphanumeric p == isAlphanumeric q
  (join "_" ((parts.filter fun part => part.head?.any isAlphanumeric).map Text.mk)).points

def ofName? (t : Text) : Option Encoding :=
  (names.find? fun e => (Text.ofString e.1).points == plainName t.points).map Prod.snd

/-- Characters of the bytes from 0x80 to 0x9f; five bytes have none. -/
def windowsMarks : List Nat :=
  [0x20ac, 0, 0x201a, 0x192, 0x201e, 0x2026, 0x2020, 0x2021, 0x2c6, 0x2030, 0x160, 0x2039, 0x152,
    0, 0x17d, 0, 0, 0x2018, 0x2019, 0x201c, 0x201d, 0x2022, 0x2013, 0x2014, 0x2dc, 0x2122, 0x161,
    0x203a, 0x153, 0, 0x17e, 0x178]

def windowsPoint? (b : UInt8) : Option Nat :=
  if b < 0x80 ∨ 0xa0 ≤ b then some b.toNat
  else (windowsMarks[b.toNat - 0x80]?).filter (· ≠ 0)

/-- Characters of units of two bytes each. -/
def decodeUnits? (lowFirst : Bool) : List UInt8 → Option (List Nat)
  | [] => some []
  | a :: b :: rest =>
    let u := if lowFirst then b.toNat * 256 + a.toNat else a.toNat * 256 + b.toNat
    if isSurrogate u then
      match rest with
      | c :: d :: rest =>
        let v := if lowFirst then d.toNat * 256 + c.toNat else c.toNat * 256 + d.toNat
        if u < 0xdc00 ∧ 0xdc00 ≤ v ∧ v ≤ 0xdfff then
          (decodeUnits? lowFirst rest).map ((0x10000 + (u - 0xd800) * 1024 + (v - 0xdc00)) :: ·)
        else none
      | _ => none
    else (decodeUnits? lowFirst rest).map (u :: ·)
  | [_] => none

/-- The text that bytes spell, if they spell one. -/
def decode? (e : Encoding) (bytes : List UInt8) : Option (List Nat) :=
  match e with
  | utf8 => decodePoints? bytes
  | utf8Marked =>
    decodePoints? (if bytes.take 3 = [0xef, 0xbb, 0xbf] then bytes.drop 3 else bytes)
  | ascii => if bytes.all (· < 0x80) then some (bytes.map UInt8.toNat) else none
  | latin1 => some (bytes.map UInt8.toNat)
  | windows1252 => bytes.mapM windowsPoint?
  | utf16Low => decodeUnits? true bytes
  | utf16High => decodeUnits? false bytes
  | utf16 =>
    match bytes with
    | 0xfe :: 0xff :: rest => decodeUnits? false rest
    | 0xff :: 0xfe :: rest => decodeUnits? true rest
    | bytes => decodeUnits? true bytes

end Encoding

end FleetProbe.Text
