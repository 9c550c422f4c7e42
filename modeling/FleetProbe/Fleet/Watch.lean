import FleetProbe.Bucket
import FleetProbe.Catalog.Query
import FleetProbe.Fleet.Basic
/-!
The watch over the catalog: polls paced by a bucket, each of which reconciles the fleet with the
snapshot it brings, and a loop of polls that goes on until the watch is told to stop.

A poll first takes its tokens, then waits for the catalog. `poll` begins one, `wake` goes on when
the bucket has let it sleep long enough, and `receive` takes the answer of the catalog in.
-/

namespace FleetProbe

open Catalog

structure Watch (α : Type) where
  fleet : Fleet := {}
  /-- Index of the snapshot read last; zero after a failure. -/
  index : Int := 0
  /-- No snapshot is used any more. -/
  stopping : Bool := false
  /-- A loop of polls is under way. -/
  running : Bool := false
  bucket : Bucket α
  /-- Tokens that a poll takes. -/
  cost : Int
  deriving Repr

namespace Watch

variable {α : Type} [Quantity α]

/-- How a poll or a loop fails. -/
inductive Fault (α : Type) where
  | pacing (f : Bucket.Fault α)
  | query (f : QueryFault)
  /-- Only one loop at a time. -/
  | busy
  deriving Repr

/-- What a poll waits for. -/
inductive Wait (α : Type) where
  | tokens (deadline : α)
  /-- An answer to a query behind an index. -/
  | catalog (previous : Int)
  deriving DecidableEq, Repr

/-- Where a poll stands. -/
inductive Stand (α : Type) where
  | waiting (w : Wait α)
  /-- A poll that came to nothing brings no snapshot. -/
  | over (r : Except (Fault α) (Option Snapshot))
  deriving Repr

/-- A step of a poll. -/
structure Turn (α : Type) where
  watch : Watch α
  stand : Stand α
  orders : List Fleet.Order := []
  notices : List Notice := []
  /-- Polls that failed. -/
  failures : Nat := 0
  deriving Repr

namespace Turn

/-- One step after another. -/
def andThen (a : Turn α) (step : Watch α → Turn α) : Turn α :=
  let b := step a.watch
  { b with
    orders := a.orders ++ b.orders, notices := a.notices ++ b.notices
    failures := a.failures + b.failures }

end Turn

def pollFailed : Notice := ⟨.error, "Failed to get list of matching nodes: %s"⟩

def watching : Notice := ⟨.info, "Watching services with tag %s"⟩

/-- Asks the catalog from the index at hand. -/
def query (w : Watch α) : Turn α := { watch := w, stand := .waiting (.catalog w.index) }

/-- Begins a poll. -/
def poll (w : Watch α) (now : α) : Turn α :=
  match w.bucket.request (.real now) (.real now) (.whole w.cost) with
  | (bucket, .ok .granted) => { w with bucket }.query
  | (bucket, .ok (.sleep seconds)) =>
    { watch := { w with bucket }, stand := .waiting (.tokens (now + seconds)) }
  | (bucket, .error f) =>
    { watch := { w with bucket }, stand := .over (.error (.pacing f)), notices := f.notice?.toList }

/-- Goes on when the tokens are there. -/
def wake (w : Watch α) (now : α) : Turn α :=
  { w with bucket := w.bucket.wake (.real now) }.query

/-- Takes the answer of the catalog in. A snapshot that comes while the watch is stopping is put
aside, and after a failure the next poll starts from the beginning. -/
def receive (w : Watch α) (answer : Except QueryFault Snapshot) : Turn α :=
  match answer with
  | .error (.failed _) =>
    { watch := { w with index := 0 }, stand := .over (.ok none), notices := [pollFailed]
      failures := 1 }
  | .error f => { watch := w, stand := .over (.error (.query f)) }
  | .ok s =>
    if w.stopping then { watch := w, stand := .over (.ok none) }
    else
      let r := w.fleet.reconcile s
      { watch := { w with index := s.index, fleet := r.fleet }, stand := .over (.ok (some s)),
        orders := r.orders, notices := r.notices }

/-- The next round of the loop, or its end. -/
def round (w : Watch α) (now : α) : Turn α :=
  if w.stopping then { watch := { w with running := false }, stand := .over (.ok none) }
  else
    let turn := w.poll now
    match turn.stand with
    | .over _ => { turn with watch := { turn.watch with running := false } }
    | .waiting _ => turn

/-- Starts the loop. -/
def run (w : Watch α) (now : α) : Turn α :=
  if w.running then { watch := w, stand := .over (.error .busy) }
  else
    let turn := { w with running := true }.round now
    { turn with notices := watching :: turn.notices }

/-- Goes on with the loop after a step of its poll. -/
def follow (now : α) (turn : Turn α) : Turn α :=
  match turn.stand with
  | .waiting _ => turn
  | .over (.ok _) => turn.andThen (·.round now)
  | .over (.error _) => { turn with watch := { turn.watch with running := false } }

end Watch

end FleetProbe
