import FleetProbe.Value
import FleetProbe.Number.Shortest
import FleetProbe.Value.Display
/-!
Writing JSON on one line, with a blank after commas and colons.
-/

namespace FleetProbe.Json

/-- How the writer shows characters and numbers. -/
structure Style where
  /-- Escape everything outside ASCII, in UTF-16 units. -/
  asciiOnly : Bool
  /-- Write as texts what not every reader of numbers keeps: reals and wide integers. -/
  guarded : Bool := false
  deriving DecidableEq, Repr

def readable : Style := { asciiOnly := false }

def portable : Style := { asciiOnly := true }

def exact : Style := { asciiOnly := true, guarded := true }

/-- Integers below this bound are kept by readers of binary numbers. -/
def wideInteger : Nat := 9007199254740992

def escapeUnit (u : Nat) : List Nat := [0x5c, 0x75] ++ (Text.hexDigits 4 u).map Char.toNat

/-- One character between the quotes of a string. -/
def writePoint (s : Style) (p : Nat) : List Nat :=
  if p = 0x22 ∨ p = 0x5c then [0x5c, p]
  else if p = 0xa then [0x5c, 0x6e]
  else if p = 0xd then [0x5c, 0x72]
  else if p = 0x9 then [0x5c, 0x74]
  else if p = 0xc then [0x5c, 0x66]
  else if p = 0x8 then [0x5c, 0x62]
  else if p < 0x20 then escapeUnit p
  else if s.asciiOnly && 0x7f ≤ p then
    if p < 0x10000 then escapeUnit p
    else escapeUnit (0xd800 + (p - 0x10000) / 1024) ++ escapeUnit (0xdc00 + (p - 0x10000) % 1024)
  else [p]

def writeText (s : Style) (t : Text) : Text :=
  ⟨[0x22] ++ t.points.flatMap (writePoint s) ++ [0x22]⟩

/-- Numbers read back as they were; infinities and NaN have names. -/
def realLayout : Number.Layout :=
  { Number.plainLayout with infinite := "Infinity", notANumber := "NaN" }

mutual

def write (s : Style) : Value → Text
  | .null => "null"
  | .bool b => if b then "true" else "false"
  | .int i =>
    if s.guarded && wideInteger ≤ i.natAbs then writeText s (toString i) else toString i
  | .real x => if s.guarded then writeText s (Number.text x) else realLayout.render x
  | .text t => writeText s t
  | .bytes bs => writeText s (Value.quotedBytes bs)
  | .date _ _ t => writeText s t
  | .list items => "[" ++ Text.join ", " (writeItems s items) ++ "]"
  | .map entries => "\x7b" ++ Text.join ", " (writeEntries s entries) ++ "\x7d"
  | .again mapping => writeText s (if mapping then "\x7b...\x7d" else "[...]")

def writeItems (s : Style) : List Value → List Text
  | [] => []
  | v :: vs => write s v :: writeItems s vs

/-- Keys that are not text are written as the text of their value. -/
def writeEntries (s : Style) : List (Value × Value) → List Text
  | [] => []
  | (k, v) :: es =>
    let key := match k with
      | .text t => writeText s t
      | k => "\"" ++ write s k ++ "\""
    (key ++ ": " ++ write s v) :: writeEntries s es

end

end FleetProbe.Json
