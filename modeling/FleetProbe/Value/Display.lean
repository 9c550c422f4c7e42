import FleetProbe.Number.Shortest
import FleetProbe.Text.Integer
import FleetProbe.Text.Quoted
import FleetProbe.Value
/-!
The text that shows a value to a reader of logs. Within a list or a mapping texts are quoted.
-/

namespace FleetProbe.Value

/-- Decimal digits; `none` when they are too many to be written. -/
def digits? (i : Int) : Option Text :=
  let t := toString i
  if Text.maxIntegerDigits < (toString i.natAbs).length then none else some t

/-- Bytes between quotes; only printable ASCII is shown as it is. -/
def quotedBytes (bs : List UInt8) : Text :=
  let quote := if bs.contains 0x27 && !bs.contains 0x22 then 0x22 else 0x27
  let shown (p : Nat) : List Nat :=
    if p < 0x7f then Text.quotePoint quote p
    else [0x5c, 0x78] ++ (Text.hexDigits 2 p).map Char.toNat
  ⟨[0x62, quote] ++ bs.flatMap (fun b => shown b.toNat) ++ [quote]⟩

mutual

/-- A value as it is shown within another one. -/
def quoted? : Value → Option Text
  | .null => some "None"
  | .bool b => some (if b then "True" else "False")
  | .int i => digits? i
  | .real x => some (Number.text x)
  | .text t => some t.quoted
  | .bytes bs => some (quotedBytes bs)
  | .date _ _ t => some t
  | .list items => (quotedItems? items).map fun ts => "[" ++ Text.join ", " ts ++ "]"
  | .map entries => (quotedEntries? entries).map fun ts => "\x7b" ++ Text.join ", " ts ++ "\x7d"
  | .again mapping => some (if mapping then "\x7b...\x7d" else "[...]")

def quotedItems? : List Value → Option (List Text)
  | [] => some []
  | v :: vs =>
    match quoted? v, quotedItems? vs with
    | some t, some ts => some (t :: ts)
    | _, _ => none

def quotedEntries? : List (Value × Value) → Option (List Text)
  | [] => some []
  | (k, v) :: es =>
    match quoted? k, quoted? v, quotedEntries? es with
    | some t, some u, some ts => some ((t ++ ": " ++ u) :: ts)
    | _, _, _ => none

end

/-- A value on its own; a text is shown as it is. -/
def shown? : Value → Option Text
  | .text t => some t
  | v => v.quoted?

end FleetProbe.Value
