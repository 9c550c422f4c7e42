import FleetProbe.Bucket
/-!
Several callers of one bucket in virtual time: each calls once, at an instant of its own, and a
sleep ends exactly when it should.
-/

namespace FleetProbe.Rehearsal

variable {α : Type} [Quantity α]

/-- One caller: when it calls and how many tokens it wants. -/
structure Caller (α : Type) where
  instant : α
  /-- What is asked for, if it is a number. -/
  tokens : Option (Amount α)

/-- How a caller's call ended: when, with what level left. What is no number is refused without a
fault of the bucket. -/
structure CallerEnd (α : Type) where
  caller : Nat
  outcome : Except (Option (Bucket.Fault α)) Unit
  instant : α
  level : α

/-- A caller that is about to call, or asleep. -/
inductive CallerPhase (α : Type) where
  | calling (tokens : Option (Amount α))
  | asleep

/-- What is still to come, with the instant and the caller of each, and what has ended. -/
structure Callers (α : Type) where
  bucket : Bucket α
  agenda : List (α × Nat × CallerPhase α)
  ends : List (CallerEnd α)

namespace Callers

/-- The earliest item of an agenda and the others; the first of equal instants. -/
def earliest : List (α × Nat × CallerPhase α) →
    Option ((α × Nat × CallerPhase α) × List (α × Nat × CallerPhase α))
  | [] => none
  | item :: rest =>
    match earliest rest with
    | none => some (item, [])
    | some (best, others) =>
      if best.1 < item.1 then some (best, item :: others) else some (item, rest)

/-- Handles the earliest item; `none` when nothing is left. -/
def step? (c : Callers α) : Option (Callers α) :=
  match earliest c.agenda with
  | none => none
  | some ((now, caller, .asleep), rest) =>
    let bucket := c.bucket.wake (.real now)
    some ⟨bucket, rest, ⟨caller, .ok (), now, bucket.available⟩ :: c.ends⟩
  | some ((now, caller, .calling none), rest) =>
    some ⟨c.bucket, rest, ⟨caller, .error none, now, c.bucket.available⟩ :: c.ends⟩
  | some ((now, caller, .calling (some tokens)), rest) =>
    match c.bucket.request (.real now) (.real now) tokens with
    | (bucket, .ok (.sleep seconds)) =>
      some ⟨bucket, rest ++ [(now + seconds, caller, .asleep)], c.ends⟩
    | (bucket, .ok .granted) =>
      some ⟨bucket, rest, ⟨caller, .ok (), now, bucket.available⟩ :: c.ends⟩
    | (bucket, .error e) =>
      some ⟨bucket, rest, ⟨caller, .error (some e), now, bucket.available⟩ :: c.ends⟩

def run : (fuel : Nat) → Callers α → Callers α
  | 0, c => c
  | fuel + 1, c =>
    match c.step? with
    | none => c
    | some c => run fuel c

/-- Runs all callers to their end; every caller takes two steps at most. -/
def ofCallers (bucket : Bucket α) (callers : List (Caller α)) : Callers α :=
  let agenda := callers.zipIdx.map fun (c, i) => (c.instant, i, CallerPhase.calling c.tokens)
  run (2 * callers.length) ⟨bucket, agenda, []⟩

end Callers

end FleetProbe.Rehearsal
