import FleetProbe.Calendar
import FleetProbe.Value
import FleetProbe.Number.Binary64
/-!
The time of a log record, in seconds since the start of 1970, as text.
-/

namespace FleetProbe.Log

/-- Why a time has no text. -/
inductive TimeFault where
  | notNumber
  | notANumber
  /-- Beyond the seconds that can be counted. -/
  | tooFar
  /-- Beyond the years that can be counted. -/
  | farYear
  /-- Beyond the years of the calendar. -/
  | noSuchYear (year : Int)
  deriving DecidableEq, Repr

namespace Stamp

/-- Seconds of a value, and the fraction of a second on top as a double of the same sign. -/
def split : Value → Except TimeFault (Int × Float)
  | .int i => .ok (i, 0)
  | .bool b => .ok (b.toNat, 0)
  | .real x =>
    match Number.Binary64.parts x with
    | none => .error (if x.isNaN then .notANumber else .tooFar)
    | some p =>
      let (n, d) := p.ratio
      let whole : Int := n / d
      .ok (if p.negative then -whole else whole,
        Number.Binary64.ofRatio p.negative (n % d) d)
  | _ => .error .notNumber

/-- Nearest integer; a half goes to the even neighbour. -/
def nearest (x : Float) : Int :=
  match Number.Binary64.parts x with
  | none => 0
  | some p =>
    let (n, d) := p.ratio
    let q : Int := Number.Binary64.roundHalfEven n d
    if p.negative then -q else q

/-- Seconds and microseconds of a value. -/
def microseconds (v : Value) : Except TimeFault (Int × Nat) :=
  (split v).map fun (seconds, fraction) =>
    let micro := nearest (fraction * 1000000)
    if 1000000 ≤ micro then (seconds + 1, (micro - 1000000).toNat)
    else if micro < 0 then (seconds - 1, (micro + 1000000).toNat)
    else (seconds, micro.toNat)

/-- Milliseconds of a value, cut off; of no use for what is no time. -/
def milliseconds (v : Value) : Int :=
  match split v with
  | .ok (_, fraction) => ((Number.Binary64.truncate? (fraction * 1000)).map Prod.fst).getD 0
  | .error _ => 0

/-- The second a number of seconds stands for, if it can be counted. -/
def moment (seconds : Int) : Except TimeFault Moment :=
  if seconds < -0x8000000000000000 ∨ 0x8000000000000000 ≤ seconds then .error .tooFar
  else
    let m := Moment.ofSeconds seconds
    if m.year - 1900 < -0x80000000 ∨ 0x80000000 ≤ m.year - 1900 then .error .farYear else .ok m

/-- The first second of the year 1, a day later. -/
def firstSecond : Int := -62135596800 + 86400

/-- A time with its microseconds, if there are any. -/
def precise (v : Value) : Except TimeFault Text := do
  let (seconds, micro) ← microseconds v
  let m ← moment seconds
  if m.year < 1 ∨ 9999 < m.year then .error (.noSuchYear m.year)
  else if seconds < firstSecond then .error (.noSuchYear 0)
  else
    .ok (m.text (Calendar.digits 4 m.year.toNat) "T"
      ++ if micro = 0 then "" else "." ++ Calendar.digits 6 micro)

/-- A time to the second, cut off. -/
def coarse (v : Value) : Except TimeFault Text := do
  let (seconds, fraction) ← split v
  let m ← moment (if fraction < 0 then seconds - 1 else seconds)
  .ok (m.text (toString m.year) " ")

end Stamp

end FleetProbe.Log
