import FleetProbe.Catalog.Listing
import FleetProbe.Catalog.Session
import FleetProbe.Fleet.Shutdown
import FleetProbe.Metrics.Endpoint
import FleetProbe.Probe.Crew
/-!
The running program: an endpoint for the metrics, a watch that polls the catalog, and a crew of
probes. It serves until it is asked to shut down or its loop of polls ends, and then takes
everything down: first the probes, then the endpoint, last the session with the catalog.

`step` says what an event makes of the service. Events that a part does not wait for change
nothing, so they may come in any order and at any time.
-/

namespace FleetProbe

open Catalog

namespace Service

/-- The loop of polls as the service sees it. -/
inductive Loop (α : Type) where
  | idle
  | asleep (deadline : α)
  | asking (l : Listing)
  /-- It failed, and the service has not taken notice yet. -/
  | failed (instant : α) (f : Watch.Fault α)
  | over

/-- How serving ends. -/
inductive Ending (α : Type) where
  | returned
  | cancelled
  /-- The endpoint could not be bound. -/
  | unbound (f : Fault)
  /-- The loop of polls failed. -/
  | failed (f : Watch.Fault α)

/-- How serving ends when nobody cancels it. A loop that failed is told of first, even when the
shutdown was asked for before the service took notice. -/
def Loop.ending {α : Type} : Loop α → Ending α
  | .failed _ f => .failed f
  | _ => .returned

inductive Stage (α : Type) where
  | idle
  | serving
  | stopping (s : Shutdown α) (e : Ending α)
  | served (e : Ending α)

/-- What can happen to a service. -/
inductive Event where
  /-- Serving begins, perhaps with a fault at the port. -/
  | serve (f : Option Fault)
  /-- The catalog answers the query under way. -/
  | answer (o : Outcome)
  | probe (task : Nat) (e : Probe.Event)
  /-- Time has passed. -/
  | tick
  | shutdown
  | stopProbe (key : Text)
  /-- Somebody else stops the watch. -/
  | halt
  /-- Whoever serves gives up. -/
  | cancel

/-- What a service does to the world around it. -/
inductive Output (α : Type) where
  | query (r : Request)
  | probe (task : Nat) (e : Effect α)
  | binding (b : Metrics.Endpoint.Binding)
  | notice (n : Notice)

end Service

open Service

structure Service (α : Type) where
  source : Source
  tag : Text
  config : Probe.Config α
  watch : Watch α
  crew : Probe.Crew α
  sessions : Sessions := Sessions.init
  endpoint : Metrics.Endpoint.State := .idle
  loop : Loop α := .idle
  stage : Stage α := .idle

namespace Service

variable {α : Type} [Quantity α]

/-- A service and what it just did. -/
structure Next (α : Type) where
  service : Service α
  outputs : List (Output α) := []

namespace Next

/-- One step after another. -/
def andThen (a : Next α) (step : Service α → Next α) : Next α :=
  let b := step a.service
  { b with outputs := a.outputs ++ b.outputs }

end Next

def noting (s : Service α) (ns : List Notice) : Next α := ⟨s, ns.map .notice⟩

def ready : Notice := ⟨.info, "Service ready"⟩

def shutdownRequested : Notice := ⟨.info, "Shutdown requested"⟩

def shuttingDown : Notice := ⟨.info, "Service shutting down"⟩

/-- Lets an event happen to a probe, and takes notice of a task that ends by it. -/
def touch (now : α) (task : Nat) (e : Probe.Event) (s : Service α) : Next α :=
  let (crew, effects) := s.crew.deliver now task e
  let outputs := effects.map fun e => .probe task e
  let t := { s with crew }
  let how : Option Fleet.Finish :=
    if s.watch.fleet.isUnfinished task then
      (crew.ending? task).map fun
        | .returned => .returned
        | .cancelled => .cancelled
        | .crashed _ => .crashed
    else none
  match how with
  | none => ⟨t, outputs⟩
  | some how =>
    let next := (s.watch.fleet.finish task how).collect task
    ⟨{ t with watch := { t.watch with fleet := next.fleet } },
      outputs ++ next.notices.map .notice⟩

/-- Carries out an order. A new task runs at once, so that those started together with others'
stops are on their way before the stopped ones let go. -/
def obey (now : α) (s : Service α) : Fleet.Order → Next α
  | .start _ n =>
    { s with crew := s.crew.spawn n s.config false }.touch now s.crew.tasks.length .run
  | .stop task => s.touch now task .stop
  | .cancel task => s.touch now task .cancel

def obeyAll (now : α) (orders : List Fleet.Order) (s : Service α) : Next α :=
  orders.foldl (fun next o => next.andThen fun s => s.obey now o) ⟨s, []⟩

/-- The last part of taking down: the endpoint, then the session. -/
def close (e : Ending α) (s : Service α) : Next α :=
  let (endpoint, bindings, notices) := Metrics.Endpoint.stop s.endpoint
  ⟨{ s with endpoint, sessions := s.sessions.close, stage := .served e },
    bindings.map .binding ++ notices.map .notice⟩

/-- Looks whether the probes are through. -/
def advance (now : α) (s : Service α) : Next α :=
  match s.stage with
  | .stopping shutdown e =>
    let next := shutdown.advance s.watch.fleet now
    let told := (({ s with stage := .stopping next.shutdown e }).noting next.notices).andThen
      (obeyAll now next.orders)
    match next.shutdown with
    | .over => told.andThen (close e)
    | _ => told
  | _ => ⟨s, []⟩

/-- Looks again when tasks were cancelled, for some of them end at once. -/
def settle (now : α) (s : Service α) : Next α := (s.advance now).andThen (advance now)

/-- Begins to take everything down. -/
def tearDown (now : α) (e : Ending α) (s : Service α) : Next α :=
  let (watch, next) :=
    Shutdown.begin s.watch ((Quantity.ofInt? Shutdown.patience).map (now + ·))
  let s := { s with
    watch := { watch with running := false }, loop := .over, stage := .stopping next.shutdown e }
  let told := (s.noting (shuttingDown :: next.notices)).andThen (obeyAll now next.orders)
  match next.shutdown with
  | .over => told.andThen (close e)
  | _ => told.andThen (settle now)

/-- Sends a query on an open session. -/
def ask (l : Listing) (s : Service α) : Next α :=
  ⟨{ s with loop := .asking l, sessions := s.sessions.acquire }, [.query l.request]⟩

/-- Counts failed polls. -/
def countFailures (n : Nat) (s : Service α) : Service α :=
  { s with crew := { s.crew with
    metrics := n.repeat (·.recordDiscoveryFailure) s.crew.metrics } }

/-- Takes over a step of the loop. -/
def take (now : α) (turn : Watch.Turn α) (s : Service α) : Next α :=
  let s := { s.countFailures turn.failures with watch := turn.watch }
  let told := (s.noting turn.notices).andThen (obeyAll now turn.orders)
  told.andThen fun s =>
    match turn.stand with
    | .waiting (.tokens deadline) => ⟨{ s with loop := .asleep deadline }, []⟩
    | .waiting (.catalog previous) => s.ask (.services previous s.tag)
    | .over (.ok _) => s.tearDown now .returned
    | .over (.error f) => ⟨{ s with loop := .failed now f }, []⟩

/-- Binds the endpoint and starts the loop. -/
def begin (now : α) (f : Option Fault) (s : Service α) : Next α :=
  let (endpoint, bindings, notices) := Metrics.Endpoint.start f.isSome
  let bound : Next α :=
    ⟨{ s with endpoint }, bindings.map .binding ++ notices.map .notice⟩
  match f with
  | some f => bound.andThen fun s => ⟨{ s with stage := .served (.unbound f) }, []⟩
  | none =>
    bound.andThen fun s =>
      (({ s with stage := .serving }).noting [ready]).andThen (take now (s.watch.run now))

/-- The catalog answers. -/
def hear (now : α) (o : Outcome) (s : Service α) : Next α :=
  match s.loop with
  | .asking l =>
    let (turn, notices) := l.step s.source o
    (s.noting notices).andThen fun s =>
      match turn with
      | .ask l => s.ask l
      | .finish r => s.take now (Watch.follow now (s.watch.receive r))
  | _ => ⟨s, []⟩

/-- Takes notice of a loop that failed, or of a deadline that has passed. -/
def expire (now : α) (s : Service α) : Next α :=
  match s.loop with
  | .asleep deadline =>
    if deadline ≤ now then s.take now (Watch.follow now (s.watch.wake now)) else ⟨s, []⟩
  | .failed _ f => s.tearDown now (.failed f)
  | _ => s.settle now

def step (s : Service α) (now : α) : Event → Next α
  | .serve f =>
    match s.stage with
    | .idle => s.begin now f
    | _ => ⟨s, []⟩
  | .answer o => s.hear now o
  | .probe task e => (s.touch now task e).andThen (settle now)
  | .tick => s.expire now
  | .shutdown =>
    (s.noting [shutdownRequested]).andThen fun s =>
      match s.stage with
      | .serving => s.tearDown now s.loop.ending
      | _ => ⟨s, []⟩
  | .stopProbe key =>
    let next := s.watch.fleet.stopProbe key
    (({ s with watch := { s.watch with fleet := next.fleet } }).noting next.notices).andThen
      fun s => (s.obeyAll now next.orders).andThen (settle now)
  | .halt =>
    let (watch, next) := Shutdown.begin s.watch none
    (({ s with watch }).noting next.notices).andThen (obeyAll now next.orders)
  | .cancel =>
    match s.stage with
    | .serving => s.tearDown now .cancelled
    | .stopping _ _ => ⟨{ s with stage := .served .cancelled }, []⟩
    | _ => ⟨s, []⟩

/-- Whether the loop goes on. -/
def isPolling (s : Service α) : Bool :=
  match s.loop with
  | .asleep _ | .asking _ => true
  | _ => false

/-- When time alone will move the loop or the shutdown on. -/
def deadline? (s : Service α) : Option α :=
  match s.loop, s.stage with
  | .asleep deadline, _ => some deadline
  | .failed instant _, _ => some instant
  | _, .stopping shutdown _ => shutdown.deadline?
  | _, _ => none

end Service

end FleetProbe
