import FleetProbe.Rehearsal.Web
import FleetProbe.Rehearsal.Wiring
import FleetProbe.Service
/-!
A service in virtual time, with a scripted catalog and a network of scripted peers. Some faults end
the whole program and not only what they are met by: whoever serves gives up then, and every task is
cancelled.
-/

namespace FleetProbe.Rehearsal

structure Serving where
  now : Float := 0
  service : Service Float
  wiring : Wiring
  web : Web
  /-- The answer that is on its way, with its instant. -/
  answer : Option (Float × Catalog.Outcome) := none
  /-- Instants of signals to shut down, in order. -/
  signals : List Float := []
  /-- Queries since the last report, in order. -/
  sent : List Sent := []
  /-- Everything done at the port so far. -/
  bindings : List Metrics.Endpoint.Binding := []
  /-- Faults that end the program wherever they are met. -/
  interrupts : Fault → Bool := fun _ => false
  /-- Such a fault was met. -/
  interrupted : Bool := false

namespace Serving

/-- Carries out what the service does. -/
def perform (s : Serving) : Service.Output Float → Serving
  | .query r =>
    let (reply, web) := s.web.take r.path
    { s with
      web, answer := some (s.now + reply.delay, reply.outcome)
      sent := s.sent ++ [Sent.ofRequest s.now s.service.source r] }
  | .probe task e =>
    match s.service.crew.tasks[task]? with
    | none => s
    | some t => { s with wiring := s.wiring.perform s.now task t.node.socket e }
  | .binding b => { s with bindings := s.bindings ++ [b] }
  | .notice n => { s with wiring := { s.wiring with notices := s.wiring.notices ++ [n] } }

/-- Lets an event happen to the service. An answer that nobody waits for any more is lost. -/
def deliver (s : Serving) (e : Service.Event) : Serving :=
  let next := s.service.step s.now e
  let s := next.outputs.foldl perform { s with service := next.service }
  match s.service.loop with
  | .asking _ => s
  | _ => { s with answer := none }

/-- The fault that an event brings, if it brings one. -/
def faultOf : Service.Event → Option Fault
  | .answer (.error f) => some f
  | .answer (.ok a) =>
    match a.body with
    | .error f => some f
    | .ok _ => none
  | .probe _ (.refused f) | .probe _ (.lost f) => some f
  | _ => none

/-- Everybody gives up, whoever serves first. -/
def interrupt (s : Serving) : Serving :=
  let s := { s with interrupted := true }.deliver .cancel
  s.service.crew.tasks.foldl (fun s t => s.deliver (.probe t.id .cancel)) s

/-- Lets an event happen, unless the fault that it brings ends the program. -/
def undergo (s : Serving) (e : Service.Event) : Serving :=
  if (faultOf e).any s.interrupts then s.interrupt else s.deliver e

/-- What can be due. -/
inductive Due where
  | net
  | signal
  | event (e : Service.Event)

/-- What comes next, and when. Of things due at one instant polls go first, then the network, then
the tasks; the end of serving comes last. -/
def due? (s : Serving) : Option (Float × Due) :=
  let tick : Option (Float × Due) := s.service.deadline?.map fun d => (d, .event .tick)
  let polls := [s.answer.map fun (d, o) => (d, .event (.answer o)),
    if s.service.isPolling then tick else none]
  let net := s.wiring.net.next?.map fun d => (d, .net)
  let tasks := s.service.crew.tasks.map fun t =>
    (Probe.Crew.due? t s.now).map fun (d, e) => (d, .event (.probe t.id e))
  let ends := [if s.service.isPolling then none else tick,
    s.signals.head?.map fun d => (d, .signal)]
  (polls ++ net :: tasks ++ ends).foldl sooner none

def handle (s : Serving) : Due → Serving
  | .event e => s.undergo e
  | .signal => { s with signals := s.signals.tail }.deliver .shutdown
  | .net =>
    let (event, wiring) := s.wiring.pop
    let s := { s with wiring }
    match event with
    | some (task, e) => s.undergo (.probe task e)
    | none => s

/-- Lets time pass until a goal is reached or a time is over; `fuel` bounds what happens. -/
def passUntil (goal : Serving → Bool) (limit : Option Float) : (fuel : Nat) → Serving → Serving
  | 0, s => s
  | fuel + 1, s =>
    if goal s then s
    else
      let late := { s with now := limit.getD s.now }
      match s.due? with
      | none => late
      | some (d, what) =>
        if limit.any (· < d) then late
        else
          passUntil goal limit fuel ({ s with now := if s.now < d then d else s.now }.handle what)

/-- Sleeps until an instant, if it is still to come. -/
def sleepUntil (s : Serving) (instant : Float) : Serving :=
  passUntil (fun _ => false) (some (wakeUp s.now instant)) patience s

/-- Lets everything happen that is due now. -/
def settle (s : Serving) : Serving := passUntil (fun _ => false) (some s.now) patience s

/-- Serves to the end. -/
def serve (s : Serving) (f : Option Fault) : Serving :=
  passUntil (fun s => s.service.stage matches .served _) none patience (s.deliver (.serve f))

/-- Queries and what happened on connections, in order of time. -/
def journal (s : Serving) : List String :=
  let queries := s.sent.map fun q => (q.instant, "query " ++ q.address.display)
  let events := s.wiring.net.traces.map fun t =>
    (t.instant, t.trace.name ++ " " ++ t.address.display)
  ((queries ++ events).mergeSort fun a b => a.1 ≤ b.1).map fun (t, what) =>
    Number.text t ++ " " ++ what

end Serving

end FleetProbe.Rehearsal
