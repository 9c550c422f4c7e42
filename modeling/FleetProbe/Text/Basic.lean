/-!
Text as a list of code points. Unlike `String` it can hold a surrogate that stands alone, which an
escape in a JSON document can produce and which no encoding can write.
-/

namespace FleetProbe

/-- A sequence of code points, each below `0x110000`; a lone surrogate is allowed. -/
structure Text where
  points : List Nat
  deriving DecidableEq, Repr, Inhabited

namespace Text

def ofString (s : String) : Text := ⟨s.toList.map Char.toNat⟩

instance : Coe String Text := ⟨ofString⟩

def empty : Text := ⟨[]⟩

def append (a b : Text) : Text := ⟨a.points ++ b.points⟩

instance : Append Text := ⟨append⟩

def isEmpty (t : Text) : Bool := t.points.isEmpty

def length (t : Text) : Nat := t.points.length

def isSurrogate (p : Nat) : Bool := 0xd800 ≤ p && p ≤ 0xdfff

/-- `none` when a surrogate stands in the text. -/
def toString? (t : Text) : Option String :=
  if t.points.all (fun p => decide p.isValidChar) then
    some (String.ofList (t.points.map Char.ofNat))
  else none

/-- Surrogates are shown as the replacement character. -/
def display (t : Text) : String :=
  String.ofList (t.points.map fun p => if isSurrogate p then '\ufffd' else Char.ofNat p)

/-- Lexicographic order by code point. -/
def before : List Nat → List Nat → Bool
  | _, [] => false
  | [], _ :: _ => true
  | a :: as, b :: bs => a < b || (a == b && before as bs)

def lt (a b : Text) : Bool := before a.points b.points

/-- Joins texts with a separator between them. -/
def join (separator : Text) : List Text → Text
  | [] => empty
  | [t] => t
  | t :: ts => t ++ separator ++ join separator ts

/-- Texts in alphabetical order, by code point. -/
def sorted (ts : List Text) : List Text := ts.mergeSort fun a b => !lt b a

/-- Line ends are one character each. -/
def unifyLines : List Nat → List Nat
  | 0xd :: 0xa :: ps => 0xa :: unifyLines ps
  | p :: ps => (if p = 0xd then 0xa else p) :: unifyLines ps
  | [] => []

end Text

end FleetProbe
