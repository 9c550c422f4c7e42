import FleetProbe.Text.Basic
import FleetProbe.Text.Classes
/-!
Quoted display of a text: single quotes unless the text holds one and no double quote; what cannot
be shown is escaped.
-/

namespace FleetProbe.Text

/-- The lowest `width` hexadecimal digits. -/
def hexDigits (width n : Nat) : List Char :=
  (List.range width).reverse.map fun i =>
    let d := n / Nat.pow 16 i % 16
    Char.ofNat (if d < 10 then 48 + d else 87 + d)

/-- One character between quotes. -/
def quotePoint (quote p : Nat) : List Nat :=
  if p = quote ∨ p = 0x5c then [0x5c, p]
  else if p = 0x9 then [0x5c, 0x74]
  else if p = 0xa then [0x5c, 0x6e]
  else if p = 0xd then [0x5c, 0x72]
  else if isPrintable p then [p]
  else
    let hex (mark width : Nat) := [0x5c, mark] ++ (hexDigits width p).map Char.toNat
    if p < 0x100 then hex 0x78 2 else if p < 0x10000 then hex 0x75 4 else hex 0x55 8

/-- The text between quotes. -/
def quoted (t : Text) : Text :=
  let quote := if t.points.contains 0x27 && !t.points.contains 0x22 then 0x22 else 0x27
  ⟨[quote] ++ t.points.flatMap (quotePoint quote) ++ [quote]⟩

end FleetProbe.Text
