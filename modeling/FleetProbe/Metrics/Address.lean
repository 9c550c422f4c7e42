import FleetProbe.Json.Reader
import FleetProbe.Text.Integer
/-!
The path that the address of a request leads to. An address may have a scheme and a host in front of
its path, and parameters behind it.
-/

namespace FleetProbe.Metrics

/-- Why a text is no address. -/
inductive AddressFault where
  | loneBracket
  /-- What stands between brackets is no address of a host. -/
  | bracketed (named : Bool)
  | portMalformed
  | portOutOfRange
  | noHost (scheme : Text)
  deriving DecidableEq, Repr

namespace AddressFault

def message : AddressFault → Text
  | loneBracket => "Invalid IPv6 URL"
  | bracketed named =>
    if named then "IPvFuture address is invalid"
    else "The IPv6 content between brackets is not valid"
  | portMalformed => "Invalid URL: port can't be converted to integer"
  | portOutOfRange => "Port out of range 0-65535"
  | noHost scheme =>
    "Invalid URL: host is required for absolute urls with the " ++ scheme ++ " scheme"

end AddressFault

namespace Address

/-- What comes in front of a character and what comes behind it, if it occurs. -/
def cut (p : Nat) (ps : List Nat) : List Nat × List Nat :=
  (ps.takeWhile (· != p), (ps.dropWhile (· != p)).drop 1)

/-- White space in front and line ends anywhere do not count. -/
def clean (ps : List Nat) : List Nat :=
  (ps.dropWhile (· ≤ 0x20)).filter fun p => p != 0x9 && p != 0xa && p != 0xd

def isSchemePoint (p : Nat) : Bool :=
  (0x61 ≤ p && p ≤ 0x7a) || (0x41 ≤ p && p ≤ 0x5a) || (0x30 ≤ p && p ≤ 0x39)
    || [0x2b, 0x2d, 0x2e].contains p

def lowerAscii (p : Nat) : Nat := if 0x41 ≤ p ∧ p ≤ 0x5a then p + 0x20 else p

/-- A scheme, which ends in a colon, and what follows it. -/
def scheme (ps : List Nat) : List Nat × List Nat :=
  match ps.takeWhile isSchemePoint, ps.dropWhile isSchemePoint with
  | p :: front, 0x3a :: rest => ((p :: front).map lowerAscii, rest)
  | _, _ => ([], ps)

def endsHost (p : Nat) : Bool := [0x2f, 0x3f, 0x23].contains p

/-- A host with its port, which follows two slashes, and what follows it. -/
def authority : List Nat → List Nat × List Nat
  | 0x2f :: 0x2f :: ps => (ps.takeWhile (!endsHost ·), ps.dropWhile (!endsHost ·))
  | ps => ([], ps)

/-- Schemes that make no sense without a host. -/
def hostSchemes : List Text := ["http", "https", "ws", "wss", "ftp"]

/-- Between brackets stands an address with colons, or one of a later version. -/
def checkBracketed (ps : List Nat) : Except AddressFault Unit :=
  match ps with
  | 0x76 :: ps =>
    let (version, rest) := cut 0x2e ps
    if version.isEmpty || rest.isEmpty || version.any (Json.hexValue? · |>.isNone) then
      .error (.bracketed true)
    else .ok ()
  | ps => if ps.contains 0x3a then .ok () else .error (.bracketed false)

/-- The host and the text of the port. -/
def hostAndPort (ps : List Nat) : List Nat × List Nat :=
  let ps := (ps.reverse.takeWhile (· != 0x40)).reverse
  if ps.contains 0x5b then
    let (host, rest) := cut 0x5d (cut 0x5b ps).2
    (host, (cut 0x3a rest).2)
  else cut 0x3a ps

def checkPort (ps : List Nat) : Except AddressFault Unit :=
  if ps.isEmpty then .ok ()
  else
    match Text.integer? ⟨ps⟩ with
    | .error _ => .error .portMalformed
    | .ok n => if n < 0 ∨ 65535 < n then .error .portOutOfRange else .ok ()

def checkAuthority (scheme ps : List Nat) : Except AddressFault Unit := do
  if ps.contains 0x5b != ps.contains 0x5d then .error .loneBracket
  if ps.contains 0x5b then checkBracketed (cut 0x5d (cut 0x5b ps).2).1
  let (host, port) := hostAndPort ps
  checkPort port
  if !ps.isEmpty && host.isEmpty && hostSchemes.contains ⟨scheme⟩ then .error (.noHost ⟨scheme⟩)

/-- Replaces escapes by the characters they stand for; an escaped slash stays escaped. -/
def unescape : List Nat → List Nat
  | 0x25 :: a :: b :: rest =>
    match Json.hexValue? a, Json.hexValue? b with
    | some x, some y =>
      if x * 16 + y = 0x2f then 0x25 :: a :: b :: unescape rest
      else (x * 16 + y) :: unescape rest
    | _, _ => 0x25 :: unescape (a :: b :: rest)
  | p :: rest => p :: unescape rest
  | [] => []

/-- Parts between slashes. -/
def segments : List Nat → List (List Nat)
  | [] => [[]]
  | p :: ps =>
    if p = 0x2f then [] :: segments ps
    else
      match segments ps with
      | part :: parts => (p :: part) :: parts
      | [] => [[p]]

/-- A single point stays where it is, two go back to the folder above. -/
def stepInto (folders : List (List Nat)) (part : List Nat) : List (List Nat) :=
  if part = [0x2e, 0x2e] then folders.drop 1 else if part = [0x2e] then folders else part :: folders

/-- Follows points in the path of a host; one at the end leads to a folder. -/
def follow (ps : List Nat) : List Nat :=
  let parts := segments (if ps.head? = some 0x2f then ps.drop 1 else ps)
  let last := if [[0x2e], [0x2e, 0x2e]].contains (parts.getLastD []) then [[]] else []
  let reached := (parts.foldl stepInto []).reverse ++ last
  (if ps.head? = some 0x2f then [0x2f] else []) ++ (List.intersperse [0x2f] reached).flatten

/-- The path of an address. What no encoding can write is passed over. -/
def path (t : Text) : Except AddressFault Text := do
  let (scheme, ps) := scheme (clean t.points)
  let (host, ps) := authority ps
  checkAuthority scheme host
  let ps := (unescape (ps.takeWhile fun p => p != 0x3f && p != 0x23)).filter (!Text.isSurrogate ·)
  .ok ⟨if host.isEmpty then ps else follow ps⟩

end Address

end FleetProbe.Metrics
