import FleetProbe.Number.Quantity
import FleetProbe.Notice
/-!
A token bucket. Tokens come in at a fixed rate up to a capacity, and a caller takes some of them or
sleeps until they are there. The level is brought up to date only when somebody asks.

`request` is the part of a call before its sleep and `wake` the part after it, so a call that is
given up in its sleep is a `request` alone. Each part ends with the clock being read, so no time
before the end of a call counts for the next refill.
-/

namespace FleetProbe

structure Bucket (α : Type) where
  capacity : Amount α
  /-- Tokens added per second. -/
  quantum : Amount α
  /-- The capacity as a level. -/
  full : α
  /-- Level at the last refill. -/
  available : α
  /-- Instant of the last refill. -/
  last : Amount α
  deriving DecidableEq, Repr

namespace Bucket

variable {α : Type} [Quantity α]

/-- Why no bucket can be made. -/
inductive Defect where
  | negativeCapacity
  | noRefill
  | tooLarge
  deriving DecidableEq, Repr

namespace Defect

def message : Defect → String
  | negativeCapacity => "capacity must be >= 0"
  | noRefill => "quantum must be > 0"
  | tooLarge => "capacity is too large"

end Defect

/-- Why a call fails. -/
inductive Fault (α : Type) where
  /-- More tokens than the bucket can ever hold. -/
  | overCapacity (requested capacity : Amount α)
  /-- A number is too large to compute with. -/
  | tooLarge
  deriving DecidableEq, Repr

namespace Fault

/-- A call for too much is put on record. -/
def notice? : Fault α → Option Notice
  | overCapacity .. => some ⟨.error, "Requested token is bigger than max capacity %s < %s"⟩
  | tooLarge => none

end Fault

/-- What a call comes to before its sleep. -/
inductive Grant (α : Type) where
  | granted
  | sleep (seconds : α)
  deriving DecidableEq, Repr

/-- A full bucket. -/
def create (capacity quantum now : Amount α) : Except Defect (Bucket α) :=
  if Amount.lt capacity (.whole 0) then .error .negativeCapacity
  else if Amount.le quantum (.whole 0) then .error .noRefill
  else
    match capacity.real? with
    | none => .error .tooLarge
    | some full => .ok ⟨capacity, quantum, full, full, now⟩

/-- Level after a time without withdrawals. -/
def levelAfter? (b : Bucket α) (elapsed : Amount α) : Option α :=
  ((Amount.mul? elapsed b.quantum).bind Amount.real?).map fun gain =>
    Quantity.capped b.full (b.available + gain)

/-- Time until the level reaches a number of tokens, negative when it is beyond it. -/
def delay? (b : Bucket α) (tokens : Amount α) : Option α :=
  match tokens.real?, b.quantum.real? with
  | some n, some q => some ((n - b.available) / q)
  | _, _ => none

/-- Time since the last refill; a clock that went backward gives none. -/
def elapsed? (b : Bucket α) (now : Amount α) : Option (Amount α) :=
  (Amount.sub? now b.last).map fun d => if d.isPositive then d else .real Quantity.zero

/-- Brings the level up to date. -/
def refill? (b : Bucket α) (now : Amount α) : Option (Bucket α) :=
  ((b.elapsed? now).bind b.levelAfter?).map fun level =>
    { b with available := level, last := now }

/-- A call up to its sleep, begun at one instant; where the tokens are there they are taken at a
later one. A call that asks for nothing leaves the bucket alone, and so does one that asks for more
than the capacity. -/
def request (b : Bucket α) (now later tokens : Amount α) :
    Bucket α × Except (Fault α) (Grant α) :=
  if Amount.lt b.capacity tokens then (b, .error (.overCapacity tokens b.capacity))
  else if Amount.le tokens (.whole 0) then (b, .ok .granted)
  else
    match b.refill? now with
    | none => (b, .error .tooLarge)
    | some b =>
      if Amount.le tokens (.real b.available) then
        match tokens.real? with
        | some n => ({ b with available := b.available - n, last := later }, .ok .granted)
        | none => (b, .error .tooLarge)
      else
        match b.delay? tokens with
        | some seconds => (b, .ok (.sleep seconds))
        | none => (b, .error .tooLarge)

/-- A call after its sleep: the tokens it waited for are used up. -/
def wake (b : Bucket α) (now : Amount α) : Bucket α :=
  { b with available := Quantity.zero, last := now }

/-- Outcome of a whole call. -/
structure Call (α : Type) where
  bucket : Bucket α
  /-- Instant of the return. -/
  clock : Amount α
  /-- The sleep that was made, if any. -/
  slept : Option α
  outcome : Except (Fault α) Unit

/-- A whole call by a single caller, whose sleep lasts `oversleep` more than asked. -/
def call (b : Bucket α) (now tokens oversleep : Amount α) : Call α :=
  match b.request now now tokens with
  | (b, .error e) => ⟨b, now, none, .error e⟩
  | (b, .ok .granted) => ⟨b, now, none, .ok ()⟩
  | (b, .ok (.sleep seconds)) =>
    match (Amount.add? now (.real seconds)).bind (Amount.add? · oversleep) with
    | some later => ⟨b.wake later, later, some seconds, .ok ()⟩
    | none => ⟨b, now, some seconds, .error .tooLarge⟩

end Bucket

end FleetProbe
