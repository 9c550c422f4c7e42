import FleetProbe.Number.Amount
/-!
How long something may take, and the instant by which it has taken too long.
-/

namespace FleetProbe

inductive TimeLimit (α : Type) where
  | endless
  | within (a : Amount α)
  /-- What was given is no time. -/
  | unusable
  deriving DecidableEq, Repr

/-- Why a limit cannot be kept. -/
inductive TimeLimitFault where
  | unusable
  /-- The limit is beyond all numbers. -/
  | tooLarge
  deriving DecidableEq, Repr

namespace TimeLimit

variable {α : Type} [Quantity α]

/-- There was never any time. -/
def isOver : TimeLimit α → Bool
  | within a => Amount.le a (.whole 0)
  | _ => false

/-- The limit as a number of seconds. -/
def seconds : TimeLimit α → Except TimeLimitFault α
  | within a => (a.real?.map .ok).getD (.error .tooLarge)
  | _ => .error .unusable

/-- When what begins now has taken too long; `none` stands for never. -/
def deadline (now : α) (l : TimeLimit α) : Except TimeLimitFault (Option α) :=
  if l.isOver then .ok (some now)
  else
    match l with
    | endless => .ok none
    | l => l.seconds.map fun x => some (now + x)

/-- The limit as it is shown. -/
def text : TimeLimit Float → String
  | within a => a.text
  | _ => "None"

end TimeLimit

end FleetProbe
