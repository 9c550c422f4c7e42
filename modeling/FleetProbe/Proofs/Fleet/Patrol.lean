import FleetProbe.Proofs.Fleet.Run
import FleetProbe.Proofs.Probe.Connection
import FleetProbe.Proofs.Probe.Reports
/-!
A fleet together with the tasks it creates, which share their configuration and their metrics.
Snapshots come in any order, and between two of them the tasks go on in any order and at any times,
also those that were asked to stop.

When all tasks of a node have ended, nobody holds it; its series are gone exactly when nothing was
counted for it after the last of its holders had let go.
-/

namespace FleetProbe

open Catalog Metrics Probe

structure Patrol (α : Type) where
  config : Probe.Config α
  fleet : Fleet := {}
  crew : Crew α
  /-- Everything the tasks have reported. -/
  log : List (Report α) := []

namespace Patrol

inductive Event where
  | reconcile (index : Int) (nodes : List Node)
  | stopProbe (key : Text)
  | stopAll
  /-- Something happens to a task. One that pauses takes notice of a stop request by `stop`. -/
  | probe (task : Nat) (e : Probe.Event)
  /-- The fleet takes notice of a task that has finished. -/
  | collect (task : Nat)

def finishOf : Probe.Ending → Fleet.Finish
  | .returned => .returned
  | .cancelled => .cancelled
  | .crashed _ => .crashed

variable {α : Type}

def fresh (config : Probe.Config α) (bounds : List α) : Patrol α :=
  { config, crew := { metrics := { bounds } } }

/-- Sets the stop request of a task; the task sees it when it looks the next time. -/
def ask (p : Patrol α) (task : Nat) : Patrol α :=
  { p with crew := { p.crew with
    tasks := p.crew.tasks.modify task fun t => { t with stopRequested := true } } }

section Steps

variable [Quantity α]

/-- Lets an event happen to a task. -/
def deliver (p : Patrol α) (now : α) (task : Nat) (e : Probe.Event) : Patrol α :=
  let (crew, effects) := p.crew.deliver now task e
  { p with
    crew
    log := p.log ++ Effect.reports effects
    fleet := match crew.ending? task with
      | some e => p.fleet.finish task (finishOf e)
      | none => p.fleet }

def obey (now : α) (p : Patrol α) : Fleet.Order → Patrol α
  | .start _ n => { p with crew := p.crew.spawn n p.config false }
  | .stop task => p.ask task
  | .cancel task => p.deliver now task .cancel

/-- Takes over a step of the fleet. -/
def follow (p : Patrol α) (now : α) (next : Fleet.Next) : Patrol α :=
  next.orders.foldl (obey now) { p with fleet := next.fleet }

def step (p : Patrol α) (now : α) : Event → Patrol α
  | .reconcile index nodes => p.follow now (p.fleet.reconcile (.ofNodes index nodes)).toNext
  | .stopProbe key => p.follow now (p.fleet.stopProbe key)
  | .stopAll => p.follow now p.fleet.stopAll
  | .probe task e => p.deliver now task e
  | .collect task =>
    if p.fleet.isUnfinished task then p else { p with fleet := (p.fleet.collect task).fleet }

/-- A run of events, each at its own time. -/
def run (p : Patrol α) (events : List (α × Event)) : Patrol α :=
  events.foldl (fun p (now, e) => p.step now e) p

end Steps

/-- Whoever holds a node is a task of that node that runs. -/
def Held (tasks : List (Probe.Task α)) (log : List (Report α)) : Prop :=
  ∀ target id, holder? target log = some id →
    ∃ t, tasks[id]? = some t ∧ t.target = target ∧ t.Running

/-- What every run keeps. -/
structure Kept (p : Patrol α) : Prop where
  /-- The metrics are those of the log. -/
  reflects : ∀ target, Reflects target p.log p.crew.metrics
  ids : ∀ (i : Nat) (t : Probe.Task α), p.crew.tasks[i]? = some t → t.id = i
  configs : ∀ (i : Nat) (t : Probe.Task α), p.crew.tasks[i]? = some t → t.config = p.config
  held : Held p.crew.tasks p.log

/-- Counting does not move the holder of any node. -/
theorem holder?_told {t : Probe.Task α} {log counts : List (Report α)} {timed : Prop}
    (target : Target) (hc : ∀ r ∈ counts, r.Counts t.target ∧ (timed → r.Timed)) :
    holder? target (log ++ counts) = holder? target log := by
  induction counts generalizing log with
  | nil => rw [List.append_nil]
  | cons r counts ih =>
    have hr := (hc r List.mem_cons_self).1
    rw [List.append_cons, ih fun x hx => hc x (List.mem_cons_of_mem _ hx), holder?_concat,
      hold_of_counts hr]

/-- Only the tasks, the metrics and the log matter to what is kept. -/
theorem Kept.of_same {p q : Patrol α} (h : p.Kept) (hcrew : q.crew = p.crew) (hlog : q.log = p.log)
    (hconfig : q.config = p.config) : q.Kept := by
  refine ⟨?_, ?_, ?_, ?_⟩
  · rw [hcrew, hlog]
    exact h.reflects
  · rw [hcrew]
    exact h.ids
  · rw [hcrew, hconfig]
    exact h.configs
  · rw [hcrew, hlog]
    exact h.held

theorem fresh_kept (config : Probe.Config α) (bounds : List α) : Kept (fresh config bounds) := by
  refine ⟨fun target => start_reflects target bounds, fun i t ht => ?_, fun i t ht => ?_, ?_⟩
  · cases ht
  · cases ht
  · intro target id hid
    cases hid

theorem spawn_kept {p : Patrol α} (h : p.Kept) (n : Node) :
    Kept { p with crew := p.crew.spawn n p.config false } := by
  have hget (i : Nat) (t : Probe.Task α)
      (ht : (p.crew.spawn n p.config false).tasks[i]? = some t) :
      p.crew.tasks[i]? = some t ∨ (t.id = i ∧ t.config = p.config) := by
    obtain hi | hi := Nat.lt_or_ge i p.crew.tasks.length
    · left
      rwa [Crew.spawn, List.getElem?_append_left hi] at ht
    · right
      rw [Crew.spawn, List.getElem?_append_right hi] at ht
      obtain ⟨h0, ht⟩ := List.getElem?_eq_some_iff.mp ht
      have hlen : i = p.crew.tasks.length := by
        rw [List.length_singleton] at h0
        omega
      rw [List.getElem_singleton] at ht
      subst ht
      exact ⟨hlen.symm, rfl⟩
  refine ⟨h.reflects, fun i t ht => ?_, fun i t ht => ?_, fun target id hid => ?_⟩
  · obtain ht | ht := hget i t ht
    · exact h.ids i t ht
    · exact ht.1
  · obtain ht | ht := hget i t ht
    · exact h.configs i t ht
    · exact ht.2
  · obtain ⟨t, ht, htarget, hrun⟩ := h.held target id hid
    refine ⟨t, ?_, htarget, hrun⟩
    rw [Crew.spawn, List.getElem?_append_left (List.getElem?_eq_some_iff.mp ht).1]
    exact ht

theorem ask_kept {p : Patrol α} (h : p.Kept) (task : Nat) : (p.ask task).Kept := by
  have hget (i : Nat) : (p.ask task).crew.tasks[i]? =
      (p.crew.tasks[i]?).map fun t =>
        if task = i then { t with stopRequested := true } else t := by
    simp only [ask, List.getElem?_modify]
    split
    · rfl
    · simp
  refine ⟨h.reflects, fun i t ht => ?_, fun i t ht => ?_, fun target id hid => ?_⟩
  · rw [hget] at ht
    obtain ⟨u, hu, rfl⟩ := Option.map_eq_some_iff.mp ht
    have hid := h.ids i u hu
    split
    · exact hid
    · exact hid
  · rw [hget] at ht
    obtain ⟨u, hu, rfl⟩ := Option.map_eq_some_iff.mp ht
    have hc := h.configs i u hu
    split
    · exact hc
    · exact hc
  · obtain ⟨t, ht, htarget, hrun⟩ := h.held target id hid
    rw [hget, ht]
    refine ⟨_, rfl, ?_⟩
    split
    · exact ⟨htarget, hrun⟩
    · exact ⟨htarget, hrun⟩

/-- A task that goes on holds what it held, and lets go when it ends. -/
theorem held_told [Quantity α] {tasks : List (Probe.Task α)} {log : List (Report α)} {i : Nat}
    {t : Probe.Task α} {n : Task.Next α} (ht : tasks[i]? = some t) (hid : t.id = i)
    (hn : t.Tells n)
    (hheld : ∀ target id, holder? target log = some id →
      (id = i ∧ t.target = target) ∨
        (id ≠ i ∧ ∃ u, tasks[id]? = some u ∧ u.target = target ∧ u.Running)) :
    Held (tasks.set i n.task) (log ++ Effect.reports n.effects) := by
  intro target id hh
  have hi := (List.getElem?_eq_some_iff.mp ht).1
  have htarget : n.task.target = t.target := by rw [Task.target, Task.target, hn.node]
  obtain ⟨counts, hr, hc⟩ := hn.told
  have hnid : n.task.id = i := hn.id.trans hid
  have hother {u : Probe.Task α} (hne : id ≠ i) (hu : tasks[id]? = some u) :
      (tasks.set i n.task)[id]? = some u := by
    rw [List.getElem?_set_ne (Ne.symm hne), hu]
  rw [hr, ← List.append_assoc] at hh
  by_cases hend : ∃ e, n.task.wait = .ended e
  · obtain ⟨e, he⟩ := hend
    -- It has let go, so whoever holds a node now is another task.
    have hbye : Task.farewell n.task = [.release t.target i] := by
      rw [Task.farewell, he, htarget, hnid]
    rw [hbye, holder?_concat, holder?_told target hc, hold] at hh
    split at hh
    · cases hh
    · next hkeep =>
      obtain ⟨rfl, rfl⟩ | ⟨hne, u, hu, hut, hrun⟩ := hheld target id hh
      · exact absurd ⟨rfl, hh⟩ hkeep
      · exact ⟨u, hother hne hu, hut, hrun⟩
  · have hrun : n.task.Running := ⟨hn.begun, fun e he => hend ⟨e, he⟩⟩
    have hbye : Task.farewell n.task = [] := by
      rw [Task.farewell]
      split
      · next e he => exact absurd he (hrun.2 e)
      · rfl
    rw [hbye, List.append_nil, holder?_told target hc] at hh
    obtain ⟨rfl, rfl⟩ | ⟨hne, u, hu, hut, hurun⟩ := hheld target id hh
    · exact ⟨n.task, List.getElem?_set_self hi, htarget, hrun⟩
    · exact ⟨u, hother hne hu, hut, hurun⟩

/-- When all tasks of a node have ended, nobody holds it. -/
theorem Kept.holder?_eq_none {p : Patrol α} (h : p.Kept) {target : Target}
    (hend : ∀ t ∈ p.crew.tasks, t.target = target → t.ending?.isSome) :
    holder? target p.log = none := by
  cases hh : holder? target p.log with
  | none => rfl
  | some id =>
    obtain ⟨t, ht, htarget, hrun⟩ := h.held target id hh
    have he := hend t (List.mem_of_getElem? ht) htarget
    rw [Task.ending?] at he
    split at he
    · next e hw => exact absurd hw (hrun.2 e)
    · cases he

variable [Quantity α]

theorem foldl_hear (es : List (Effect α)) (m : Metrics α) :
    es.foldl Crew.hear m = (Effect.reports es).foldl Metrics.apply m := by
  induction es generalizing m with
  | nil => rfl
  | cons e es ih =>
    rw [List.foldl_cons, ih]
    cases e <;> rfl

theorem deliver_of_none {p : Patrol α} {task : Nat} (ht : p.crew.tasks[task]? = none) (now : α)
    (e : Probe.Event) :
    (p.deliver now task e).crew = p.crew ∧ (p.deliver now task e).log = p.log := by
  have hd : p.crew.deliver now task e = (p.crew, []) := by simp only [Crew.deliver, ht]
  refine ⟨?_, ?_⟩
  · simp only [deliver, hd]
  · simp only [deliver, hd, Effect.reports_nil, List.append_nil]

theorem deliver_of_some {p : Patrol α} {task : Nat} {t : Probe.Task α}
    (ht : p.crew.tasks[task]? = some t) (now : α) (e : Probe.Event) :
    (p.deliver now task e).crew.tasks = p.crew.tasks.set task (t.step now e).task ∧
    (p.deliver now task e).crew.metrics =
      (Effect.reports (t.step now e).effects).foldl Metrics.apply p.crew.metrics ∧
    (p.deliver now task e).log = p.log ++ Effect.reports (t.step now e).effects := by
  have hd : p.crew.deliver now task e =
      ({ tasks := p.crew.tasks.set task (t.step now e).task
         metrics := (t.step now e).effects.foldl Crew.hear p.crew.metrics },
        (t.step now e).effects) := by
    simp only [Crew.deliver, ht]
  refine ⟨?_, ?_, ?_⟩
  · simp only [deliver, hd]
  · simp only [deliver, hd, foldl_hear]
  · simp only [deliver, hd]

/-- What is left to show of a step: what it reports and who holds a node after it. -/
theorem kept_of_step {p : Patrol α} {task : Nat} {t : Probe.Task α} {now : α} {e : Probe.Event}
    (h : p.Kept) (ht : p.crew.tasks[task]? = some t) (hid : (t.step now e).task.id = t.id)
    (hc : (t.step now e).task.config = t.config)
    (htimed : ∀ r ∈ Effect.reports (t.step now e).effects, r.Timed)
    (hheld : Held (p.crew.tasks.set task (t.step now e).task)
      (p.log ++ Effect.reports (t.step now e).effects)) :
    (p.deliver now task e).Kept := by
  obtain ⟨htasks, hmetrics, hlog⟩ := deliver_of_some ht now e
  have hget (i : Nat) (u : Probe.Task α) (hu : (p.deliver now task e).crew.tasks[i]? = some u) :
      (i = task ∧ u = (t.step now e).task) ∨ p.crew.tasks[i]? = some u := by
    rw [htasks] at hu
    by_cases hi : task = i
    · subst hi
      rw [List.getElem?_set_self (List.getElem?_eq_some_iff.mp ht).1] at hu
      exact .inl ⟨rfl, (Option.some.inj hu).symm⟩
    · rw [List.getElem?_set_ne hi] at hu
      exact .inr hu
  refine ⟨fun target => ?_, fun i u hu => ?_, fun i u hu => ?_, ?_⟩
  · rw [hmetrics, hlog]
    exact foldl_reflects (h.reflects target) _ htimed
  · obtain ⟨rfl, rfl⟩ | hu := hget i u hu
    · exact hid.trans (h.ids i t ht)
    · exact h.ids i u hu
  · obtain ⟨rfl, rfl⟩ | hu := hget i u hu
    · exact hc.trans (h.configs i t ht)
    · exact h.configs i u hu
  · rw [htasks, hlog]
    exact hheld

/-- A task that runs keeps what it holds until it ends, one that runs for the first time takes its
node over, and one that rests holds nothing. -/
theorem deliver_kept {p : Patrol α} {x : α} (hx : p.config.timeout.seconds = .ok x) (h : p.Kept)
    (now : α) (task : Nat) (e : Probe.Event) : (p.deliver now task e).Kept := by
  cases ht : p.crew.tasks[task]? with
  | none =>
    obtain ⟨hcrew, hlog⟩ := deliver_of_none ht now e
    exact h.of_same hcrew hlog rfl
  | some t =>
    have hid := h.ids task t ht
    have htx : t.config.timeout.IsNumber := ⟨x, by rw [h.configs task t ht, hx]⟩
    -- Only the first run of a task makes it the holder, so that step stands on its own.
    by_cases hrun : t.Running
    · have hn := Task.step_tells hrun now e
      refine kept_of_step h ht hn.id hn.config (hn.timed htx) (held_told ht hid hn ?_)
      intro target id hh
      obtain ⟨u, hu, hut, hurun⟩ := h.held target id hh
      by_cases hi : id = task
      · subst hi
        rw [ht] at hu
        cases hu
        exact .inl ⟨rfl, hut⟩
      · exact .inr ⟨hi, u, hu, hut, hurun⟩
    · have hne {id : Nat} {u : Probe.Task α} (hu : p.crew.tasks[id]? = some u)
          (hurun : u.Running) : id ≠ task := by
        rintro rfl
        rw [ht] at hu
        cases hu
        exact hrun hurun
      by_cases hfirst : t.wait = .start ∧ e = .run
      · obtain ⟨hw, rfl⟩ := hfirst
        have hn := Task.turn_tells t now
        have hstep := Task.step_run hw now
        have hreports : Effect.reports (t.step now .run).effects =
            .claim t.target t.id :: Effect.reports (t.turn now).effects := by
          rw [hstep]
          rfl
        have htask : (t.step now .run).task = (t.turn now).task := by
          rw [hstep]
          rfl
        refine kept_of_step h ht ?_ ?_ ?_ ?_
        · rw [htask, hn.id]
        · rw [htask, hn.config]
        · rw [hreports]
          intro r hr
          cases hr with
          | head => exact trivial
          | tail _ hr => exact hn.timed htx r hr
        · rw [hreports, htask, List.append_cons]
          refine held_told ht hid hn fun target id hh => ?_
          rw [holder?_concat, hold] at hh
          split at hh
          · next htarget =>
            cases hh
            exact .inl ⟨hid, htarget⟩
          · obtain ⟨u, hu, hut, hurun⟩ := h.held target id hh
            exact .inr ⟨hne hu hurun, u, hu, hut, hurun⟩
      · have hn := Task.step_rests hrun now e fun hw he => hfirst ⟨hw, he⟩
        refine kept_of_step h ht hn.id hn.config ?_ ?_
        · rw [hn.silent]
          simp
        · rw [hn.silent, List.append_nil]
          intro target id hh
          obtain ⟨u, hu, hut, hurun⟩ := h.held target id hh
          refine ⟨u, ?_, hut, hurun⟩
          rw [List.getElem?_set_ne (hne hu hurun).symm, hu]

theorem obey_kept {p : Patrol α} {x : α} (hx : p.config.timeout.seconds = .ok x) (h : p.Kept)
    (now : α) (o : Fleet.Order) : (p.obey now o).Kept := by
  cases o with
  | start task n => exact spawn_kept h n
  | stop task => exact ask_kept h task
  | cancel task => exact deliver_kept hx h now task .cancel

theorem obey_config (p : Patrol α) (now : α) (o : Fleet.Order) :
    (p.obey now o).config = p.config := by
  cases o with
  | start task n => rfl
  | stop task => rfl
  | cancel task => rfl

theorem foldl_obey_kept {p : Patrol α} {x : α} (hx : p.config.timeout.seconds = .ok x)
    (h : p.Kept) (now : α) (orders : List Fleet.Order) :
    (orders.foldl (obey now) p).Kept ∧ (orders.foldl (obey now) p).config = p.config := by
  induction orders generalizing p with
  | nil => exact ⟨h, rfl⟩
  | cons o orders ih =>
    have hc := obey_config p now o
    obtain ⟨hk, hc'⟩ := ih (hc ▸ hx) (obey_kept hx h now o)
    exact ⟨hk, hc'.trans hc⟩

theorem follow_kept {p : Patrol α} {x : α} (hx : p.config.timeout.seconds = .ok x) (h : p.Kept)
    (now : α) (next : Fleet.Next) :
    (p.follow now next).Kept ∧ (p.follow now next).config = p.config :=
  foldl_obey_kept (p := { p with fleet := next.fleet }) hx (h.of_same rfl rfl rfl) now next.orders

theorem step_kept {p : Patrol α} {x : α} (hx : p.config.timeout.seconds = .ok x) (h : p.Kept)
    (now : α) (e : Event) : (p.step now e).Kept ∧ (p.step now e).config = p.config := by
  cases e with
  | reconcile index nodes => exact follow_kept hx h now _
  | stopProbe key => exact follow_kept hx h now _
  | stopAll => exact follow_kept hx h now _
  | probe task e => exact ⟨deliver_kept hx h now task e, rfl⟩
  | collect task =>
    rw [step]
    split
    · exact ⟨h, rfl⟩
    · exact ⟨h.of_same rfl rfl rfl, rfl⟩

theorem run_kept {p : Patrol α} {x : α} (hx : p.config.timeout.seconds = .ok x) (h : p.Kept)
    (events : List (α × Event)) : (p.run events).Kept := by
  induction events generalizing p with
  | nil => exact h
  | cons e events ih =>
    obtain ⟨hk, hc⟩ := step_kept hx h e.1 e.2
    exact ih (hc ▸ hx) hk

/-- **Series that are left behind.** In every run, once all tasks of a node have ended, its series
are gone and it is not on record, unless one of these tasks counted something for the node when
nobody held it and nobody took it over later. -/
theorem clear_iff_not_late (config : Probe.Config α) (bounds : List α) (x : α)
    (hx : config.timeout.seconds = .ok x) (events : List (α × Event)) (target : Target)
    (hend : ∀ t ∈ ((fresh config bounds).run events).crew.tasks,
      t.target = target → t.ending?.isSome) :
    Clear target ((fresh config bounds).run events).crew.metrics ↔
      ¬ Late target ((fresh config bounds).run events).log := by
  have hk := run_kept hx (fresh_kept config bounds) events
  exact (hk.reflects target).clear_iff (hk.holder?_eq_none hend)

def refusal : FleetProbe.Fault := ⟨.system, "refused", ""⟩

/-- Two tasks of one node are both opening a connection when they are asked to stop, and the newer
one is refused first. -/
def overlap : List (Rat × Event) :=
  [(0, .reconcile 1 [Node.lone]), (0, .probe 0 .run), (0, .reconcile 2 []),
    (0, .reconcile 3 [Node.lone]), (0, .probe 1 .run), (0, .reconcile 4 []),
    (0, .probe 1 (.refused refusal)), (0, .probe 0 (.refused refusal))]

theorem overlap_clear_iff :
    Config.secondly.timeout.seconds = .ok ((1 : Int) : Rat) ∧
    (∀ t ∈ ((fresh Config.secondly []).run overlap).crew.tasks, t.ending?.isSome) ∧
    (Clear ⟨Node.lone.service, Node.lone.socket⟩
        ((fresh Config.secondly []).run overlap).crew.metrics ↔
      ¬ Late ⟨Node.lone.service, Node.lone.socket⟩
        ((fresh Config.secondly []).run overlap).log) := by
  have hend : ∀ t ∈ ((fresh Config.secondly []).run overlap).crew.tasks, t.ending?.isSome := by
    decide
  exact ⟨rfl, hend, clear_iff_not_late Config.secondly [] _ rfl overlap _ fun t ht _ => hend t ht⟩

/-- The older of two overlapping tasks can leave series behind. -/
theorem overlap_leaves_series :
    ¬ ∀ (events : List (Rat × Event)) (target : Target),
      (∀ t ∈ ((fresh Config.secondly []).run events).crew.tasks,
        t.target = target → t.ending?.isSome) →
      Clear target ((fresh Config.secondly []).run events).crew.metrics := by
  intro h
  have hend : ∀ t ∈ ((fresh Config.secondly []).run overlap).crew.tasks, t.ending?.isSome := by
    decide
  have hclear := h overlap ⟨Node.lone.service, Node.lone.socket⟩ fun t ht _ => hend t ht
  exact hclear.failures (by decide)

end Patrol

end FleetProbe
