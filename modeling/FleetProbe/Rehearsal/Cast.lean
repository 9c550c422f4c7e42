import FleetProbe.Fleet.Shutdown
import FleetProbe.Rehearsal.Wiring
/-!
A watch in virtual time whose probes only follow scripts, over a catalog that gives its snapshots
from a list: it shows when probes are started, stopped and cancelled, and nothing of what they do.
-/

namespace FleetProbe.Rehearsal

open Catalog

/-- What a probe does: it lives until it is stopped or its time is over, and once stopped it takes
a while to leave. -/
structure Part where
  life : Option Float := none
  crash : Bool := false
  linger : Float := 0

inductive ActorPhase where
  /-- Has not run yet. -/
  | called
  | living (deadline : Option Float)
  | leaving (deadline : Float)
  | gone

structure Actor where
  key : Text
  /-- How many probes of the key came before. -/
  earlier : Nat
  part : Part
  phase : ActorPhase := .called
  stopRequested : Bool := false
  cancelRequested : Bool := false

namespace Actor

def name (a : Actor) : Text := a.key ++ "#" ++ Text.ofString (toString (a.earlier + 1))

/-- When the actor moves on. -/
def due? (a : Actor) (now : Float) : Option Float :=
  match a.phase with
  | .gone => none
  | .called => some now
  | .living deadline => if a.stopRequested || a.cancelRequested then some now else deadline
  | .leaving deadline => if a.cancelRequested then some now else some deadline

/-- Moves on: the words it leaves, and how it finished if it did. -/
def act (a : Actor) (now : Float) : Actor × Option String × Option Fleet.Finish :=
  match a.phase, a.cancelRequested with
  | .called, true => ({ a with phase := .gone }, none, some .cancelled)
  | .called, false =>
    ({ a with phase := .living (a.part.life.map (now + ·)) }, some "start", none)
  | _, true => ({ a with phase := .gone }, some "cancelled", some .cancelled)
  | .living _, false =>
    if a.stopRequested then ({ a with phase := .leaving (now + a.part.linger) }, none, none)
    else if a.part.crash then ({ a with phase := .gone }, some "crash", some .crashed)
    else ({ a with phase := .gone }, some "end", some .returned)
  | .leaving _, false => ({ a with phase := .gone }, some "stopped", some .returned)
  | .gone, false => (a, none, none)

end Actor

/-- An answer of the catalog some time after its query. -/
structure Answer where
  delay : Float := 0
  result : Except QueryFault Snapshot := .ok {}

/-- A poll, or a loop of polls. -/
structure Poller where
  repeats : Bool
  /-- Nobody waits for its end. -/
  background : Bool
  stand : Watch.Stand Float
  /-- The answer that it waits for, with its instant. -/
  answer : Option (Float × Except QueryFault Snapshot) := none

namespace Poller

def due? (p : Poller) : Option Float :=
  match p.stand with
  | .waiting (.tokens deadline) => some deadline
  | .waiting (.catalog _) => p.answer.map Prod.fst
  | .over _ => none

def isOver (p : Poller) : Bool :=
  match p.stand with
  | .over _ => true
  | .waiting _ => false

end Poller

structure Cast where
  now : Float := 0
  watch : Watch Float
  /-- Parts of the probes of a key in turn, the last again and again. -/
  parts : List (Text × List Part) := []
  /-- Answers of the catalog in turn, the last again and again. -/
  answers : List Answer := []
  actors : List Actor := []
  pollers : List Poller := []
  shutdown : Shutdown Float := .over
  failures : Nat := 0
  /-- Queries so far. -/
  asked : Nat := 0
  /-- Since the last report: what actors said, queries with their index, and lines. -/
  said : List (Float × Text × String) := []
  queries : List (Float × Int) := []
  notices : List Notice := []

namespace Cast

/-- The item of a list in turn, the last again and again. -/
def inTurn {β : Type} (items : List β) (i : Nat) (fresh : β) : β :=
  (items[i]?).getD (items.getLast?.getD fresh)

/-- Tells a task what to do. -/
def obey (c : Cast) : Fleet.Order → Cast
  | .start _ n =>
    let earlier := (c.actors.filter fun a => a.key == n.key).length
    let parts := ((c.parts.find? fun e => e.1 == n.key).map Prod.snd).getD []
    { c with actors := c.actors ++ [{ key := n.key, earlier, part := inTurn parts earlier {} }] }
  | .stop task =>
    { c with actors := c.actors.modify task fun a => { a with stopRequested := true } }
  | .cancel task =>
    { c with actors := c.actors.modify task fun a => { a with cancelRequested := true } }

/-- Takes over a step of the fleet. -/
def apply (c : Cast) (next : Fleet.Next) : Cast :=
  next.orders.foldl obey { c with
    watch := { c.watch with fleet := next.fleet }, notices := c.notices ++ next.notices }

/-- Takes over a step of the shutdown. -/
def take (c : Cast) (next : Shutdown.Next Float) : Cast :=
  next.orders.foldl obey { c with
    shutdown := next.shutdown, notices := c.notices ++ next.notices }

/-- Takes over a step of a poll, and gives its query an answer if it makes one. -/
def put (c : Cast) (i : Nat) (p : Poller) (turn : Watch.Turn Float) : Cast :=
  let c := turn.orders.foldl obey { c with
    watch := turn.watch, notices := c.notices ++ turn.notices
    failures := c.failures + turn.failures }
  match turn.stand with
  | .waiting (.catalog previous) =>
    let a := inTurn c.answers c.asked {}
    let answer := some (c.now + a.delay, a.result)
    { c with
      asked := c.asked + 1, queries := c.queries ++ [(c.now, previous)]
      pollers := c.pollers.set i { p with stand := turn.stand, answer } }
  | _ => { c with pollers := c.pollers.set i { p with stand := turn.stand, answer := none } }

/-- Begins a poll or a loop; it is the last of the pollers then. -/
def launch (c : Cast) (repeats background : Bool) : Cast :=
  let turn := if repeats then c.watch.run c.now else c.watch.poll c.now
  let p : Poller := { repeats, background, stand := turn.stand }
  let seated := { c with pollers := c.pollers ++ [p] }
  seated.put c.pollers.length p turn

/-- Who moves on next. -/
inductive Role where
  | actor (i : Nat)
  | poller (i : Nat)
  | shutdown

/-- What is due first, and when. -/
def due? (c : Cast) : Option (Float × Role) :=
  let ended := match c.shutdown with
    | .waiting tasks _ | .cancelling tasks => (tasks.filter c.watch.fleet.isUnfinished).isEmpty
    | .over => false
  let actors := c.actors.zipIdx.map fun (a, i) => (a.due? c.now).map fun d => (d, Role.actor i)
  let pollers := c.pollers.zipIdx.map fun (p, i) => p.due?.map fun d => (d, Role.poller i)
  let shutdown :=
    (if ended then some c.now else c.shutdown.deadline?).map fun d => (d, Role.shutdown)
  (actors ++ pollers ++ [shutdown]).foldl sooner none

/-- Lets one of them move on. -/
def handle (c : Cast) : Role → Cast
  | .actor i =>
    match c.actors[i]? with
    | none => c
    | some a =>
      let (next, word, how) := a.act c.now
      let c := { c with
        actors := c.actors.set i next
        said := c.said ++ (word.map fun w => (c.now, a.name, w)).toList }
      match how with
      | none => c
      | some how => c.apply ((c.watch.fleet.finish i how).collect i)
  | .poller i =>
    match c.pollers[i]? with
    | none => c
    | some p =>
      let turn := match p.answer with
        | some (_, result) => c.watch.receive result
        | none => c.watch.wake c.now
      c.put i p (if p.repeats then Watch.follow c.now turn else turn)
  | .shutdown => c.take (Shutdown.advance c.watch.fleet c.now c.shutdown)

/-- Lets things happen until a goal is reached or a time is over; `fuel` bounds them. -/
def passUntil (goal : Cast → Bool) (limit : Option Float) : (fuel : Nat) → Cast → Cast
  | 0, c => c
  | fuel + 1, c =>
    if goal c then c
    else
      let late := { c with now := limit.getD c.now }
      match c.due? with
      | none => late
      | some (d, role) =>
        if limit.any (· < d) then late
        else
          passUntil goal limit fuel ({ c with now := if c.now < d then d else c.now }.handle role)

/-- Lets everything happen that is due now. -/
def settle (c : Cast) : Cast := passUntil (fun _ => false) (some c.now) patience c

def sleep (c : Cast) (seconds : Float) : Cast :=
  passUntil (fun _ => false) (some (c.now + seconds)) patience c

/-- Polls, or runs a loop, to the end. -/
def pollThrough (c : Cast) (repeats : Bool) : Cast :=
  let i := c.pollers.length
  passUntil (fun c => (c.pollers[i]?).all Poller.isOver) none patience (c.launch repeats false)

/-- Shuts down, with some time for the probes or all the time in the world. -/
def stop (c : Cast) (limit : Option Float) : Cast :=
  let (watch, next) := Shutdown.begin c.watch (limit.map (c.now + ·))
  passUntil (fun c => c.shutdown matches .over) none patience ({ c with watch }.take next)

end Cast

end FleetProbe.Rehearsal
