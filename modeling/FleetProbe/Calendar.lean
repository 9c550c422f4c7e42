/-!
Days and times of day in universal time, in the Gregorian calendar, which is taken to hold in all
the past and the future.
-/

namespace FleetProbe

namespace Calendar

def isLeap (year : Nat) : Bool := year % 4 == 0 && (year % 100 != 0 || year % 400 == 0)

/-- Number of days of a month. -/
def monthLength (year month : Nat) : Nat :=
  if month = 2 then (if isLeap year then 29 else 28)
  else if [4, 6, 9, 11].contains month then 30
  else 31

/-- A number with at least some digits. -/
def digits (width n : Nat) : String :=
  let t := toString n
  "".pushn '0' (width - t.length) ++ t

end Calendar

/-- A second of universal time. -/
structure Moment where
  year : Int
  month : Nat
  day : Nat
  hour : Nat
  minute : Nat
  second : Nat
  deriving DecidableEq, Repr

namespace Moment

/-- The day some days after the first of January 1970. Years are counted from March, so that the
leap day comes last; cycles of 400 years have 146097 days each. -/
def ofDays (days : Int) : Int × Nat × Nat :=
  let shifted := days + 719468
  let cycle := Int.fdiv shifted 146097
  let n := (Int.fmod shifted 146097).toNat
  let year := (n - n / 1460 + n / 36524 - n / 146096) / 365
  let dayOfYear := n - (365 * year + year / 4 - year / 100)
  let march := (5 * dayOfYear + 2) / 153
  let day := dayOfYear - (153 * march + 2) / 5 + 1
  let month := if march < 10 then march + 3 else march - 9
  (cycle * 400 + year + (if month ≤ 2 then 1 else 0), month, day)

/-- Days from the first of January 1970 to a date. -/
def days (year month day : Nat) : Int :=
  let fromMarch : Int := if month ≤ 2 then (year : Int) - 1 else year
  let march := (month + 9) % 12
  let dayOfYear := (153 * march + 2) / 5 + day - 1
  fromMarch * 365 + Int.fdiv fromMarch 4 - Int.fdiv fromMarch 100 + Int.fdiv fromMarch 400
    + dayOfYear - 719468

/-- The second some seconds after the start of 1970. -/
def ofSeconds (seconds : Int) : Moment :=
  let (year, month, day) := ofDays (Int.fdiv seconds 86400)
  let rest := (Int.fmod seconds 86400).toNat
  { year, month, day, hour := rest / 3600, minute := rest / 60 % 60, second := rest % 60 }

/-- Day and time of day with a mark between them. -/
def text (m : Moment) (year : String) (mark : String) : String :=
  year ++ "-" ++ Calendar.digits 2 m.month ++ "-" ++ Calendar.digits 2 m.day ++ mark
    ++ Calendar.digits 2 m.hour ++ ":" ++ Calendar.digits 2 m.minute ++ ":"
    ++ Calendar.digits 2 m.second

end Moment

end FleetProbe
