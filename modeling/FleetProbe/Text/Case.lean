/-!
Case mappings as a comparison with an ASCII word sees them: besides the ASCII letters, exactly the
letters of other scripts that map to ASCII letters matter, and every other letter can stay as it is.
-/

namespace FleetProbe.Text

/-- Lower case; the Kelvin sign is the only letter outside ASCII with an ASCII lower case. -/
def lowerPoint (p : Nat) : Nat :=
  if 0x41 ≤ p ∧ p ≤ 0x5a then p + 32 else if p = 0x212a then 0x6b else p

def lower (s : String) : String :=
  String.ofList (s.toList.map fun c => Char.ofNat (lowerPoint c.toNat))

/-- Ligatures and letters outside ASCII whose upper case is made of ASCII letters. -/
def upperPoint (c : Char) : List Char :=
  match c.toNat with
  | 0xdf => ['S', 'S']
  | 0x131 => ['I']
  | 0x17f => ['S']
  | 0xfb00 => ['F', 'F']
  | 0xfb01 => ['F', 'I']
  | 0xfb02 => ['F', 'L']
  | 0xfb03 => ['F', 'F', 'I']
  | 0xfb04 => ['F', 'F', 'L']
  | 0xfb05 => ['S', 'T']
  | 0xfb06 => ['S', 'T']
  | p => if 0x61 ≤ p ∧ p ≤ 0x7a then [Char.ofNat (p - 32)] else [c]

def upper (s : String) : String := String.ofList (s.toList.flatMap upperPoint)

/-- The form in which two words that differ by case alone are equal. -/
def foldPoint (c : Char) : List Char :=
  match c.toNat with
  | 0xdf => ['s', 's']
  | 0x1e9e => ['s', 's']
  | 0x17f => ['s']
  | 0x212a => ['k']
  | 0xfb00 => ['f', 'f']
  | 0xfb01 => ['f', 'i']
  | 0xfb02 => ['f', 'l']
  | 0xfb03 => ['f', 'f', 'i']
  | 0xfb04 => ['f', 'f', 'l']
  | 0xfb05 => ['s', 't']
  | 0xfb06 => ['s', 't']
  | p => [Char.ofNat (lowerPoint p)]

def fold (s : String) : String := String.ofList (s.toList.flatMap foldPoint)

end FleetProbe.Text
