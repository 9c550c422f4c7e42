import FleetProbe.Text.Utf8
import FleetProbe.Value.Display
/-!
What can be wrong with a setting, with the name and the wording of each problem, and what is said of
all problems together.
-/

namespace FleetProbe

namespace Settings

inductive Problem where
  | missing
  | notText
  /-- A surrogate stands alone in the text. -/
  | notUnicode
  | tooShort (least : Nat)
  | tooLong (most : Nat)
  | notInteger
  | fraction
  | unreadableInteger
  | hugeInteger
  | notFinite
  | notNumber
  | unreadableNumber
  | atMost (bound : Int)
  | atLeast (bound : Int)
  | above (bound : Int)
  /-- A rule of its own is broken. -/
  | refused (why : Text)
  deriving DecidableEq, Repr

namespace Problem

def name : Problem → String
  | missing => "missing"
  | notText => "string_type"
  | notUnicode => "string_unicode"
  | tooShort _ => "string_too_short"
  | tooLong _ => "string_too_long"
  | notInteger => "int_type"
  | fraction => "int_from_float"
  | unreadableInteger => "int_parsing"
  | hugeInteger => "int_parsing_size"
  | notFinite => "finite_number"
  | notNumber => "float_type"
  | unreadableNumber => "float_parsing"
  | atMost _ => "less_than_equal"
  | atLeast _ => "greater_than_equal"
  | above _ => "greater_than"
  | refused _ => "value_error"

def characters (n : Nat) : String := toString n ++ if n = 1 then " character" else " characters"

def message : Problem → Text
  | missing => "Field required"
  | notText => "Input should be a valid string"
  | notUnicode => "Input should be a valid string, unable to parse raw data as a unicode string"
  | tooShort n => "String should have at least " ++ characters n
  | tooLong n => "String should have at most " ++ characters n
  | notInteger => "Input should be a valid integer"
  | fraction => "Input should be a valid integer, got a number with a fractional part"
  | unreadableInteger => "Input should be a valid integer, unable to parse string as an integer"
  | hugeInteger => "Unable to parse input string as an integer, exceeded maximum size"
  | notFinite => "Input should be a finite number"
  | notNumber => "Input should be a valid number"
  | unreadableNumber => "Input should be a valid number, unable to parse string as a number"
  | atMost n => "Input should be less than or equal to " ++ toString n
  | atLeast n => "Input should be greater than or equal to " ++ toString n
  | above n => "Input should be greater than " ++ toString n
  | refused why => "Value error, " ++ why

end Problem

/-- The first points that take up no more than some bytes. -/
def firstBytes : Nat → List Nat → List Nat
  | _, [] => []
  | n, p :: ps =>
    let width := (Text.encodePoint p).length
    if width ≤ n then p :: firstBytes (n - width) ps else []

/-- No more than fifty bytes of a text; what is longer loses its middle. -/
def excerpt (t : Text) : Text :=
  if (t.points.flatMap Text.encodePoint).length ≤ 50 then t
  else
    ⟨firstBytes 25 t.points⟩ ++ "..." ++ ⟨(firstBytes 24 t.points.reverse).reverse⟩

/-- What a setting is given as: how it is shown, and of what kind it is. -/
structure Given where
  shown : Text
  kind : String
  deriving DecidableEq, Repr

namespace Given

def kindOf : Value → String
  | .null => "NoneType"
  | .bool _ => "bool"
  | .int _ => "int"
  | .real _ => "float"
  | .text _ => "str"
  | .bytes _ => "bytes"
  | .date timed _ _ => if timed then "datetime" else "date"
  | .list _ | .again false => "list"
  | .map _ | .again true => "dict"

def ofValue (v : Value) : Given :=
  let kind := kindOf v
  ⟨excerpt ((v.quoted?).getD ("<unprintable " ++ Text.ofString kind ++ " object>")), kind⟩

end Given

/-- A problem of one setting. -/
structure Issue where
  setting : String
  problem : Problem
  given : Given
  deriving DecidableEq, Repr

namespace Issue

/-- The lines that tell of a problem. -/
def report (i : Issue) : Text :=
  "\n" ++ Text.ofString i.setting ++ "\n  " ++ i.problem.message ++ " [type=" ++ i.problem.name
    ++ ", input_value=" ++ i.given.shown ++ ", input_type=" ++ i.given.kind ++ "]"

end Issue

/-- What is said of problems: how many there are, and each of them. -/
def report (issues : List Issue) : Text :=
  issues.foldl (fun t i => t ++ i.report)
    (toString issues.length ++ " validation error" ++ (if issues.length = 1 then "" else "s")
      ++ " for ProbeSettings")

end Settings

end FleetProbe
