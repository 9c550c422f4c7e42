import FleetProbe.Proofs.Fleet.Closing
import FleetProbe.Proofs.Fleet.Faithful
import FleetProbe.Proofs.Service.Polling
/-!
The books of a running service. Its fleet and its crew are two views of the same tasks: the fleet
takes up a task before the crew is told to start it, and knows that a task has finished only after
the crew has seen it end. Between two events both have the same tasks.
-/

namespace FleetProbe

open Catalog

namespace Fleet

/-- Whether a task is known to have finished. -/
def isFinished (f : Fleet) (task : Nat) : Bool := (f.members[task]?).any fun m => m.finish.isSome

theorem isFinished_of_lt (f : Fleet) {task : Nat} (h : task < f.members.length) :
    f.isFinished task = !f.isUnfinished task := by
  rw [isFinished, isUnfinished, List.getElem?_eq_getElem h]
  cases hfinish : f.members[task].finish with
  | none => simp [hfinish]
  | some how => simp [hfinish]

/-- A step of an orderly fleet that leaves it orderly. The tasks it creates are those it tells to
start, and none is finished by it. -/
structure Amends (f : Fleet) (new : List Node) (next : Next) : Prop where
  orderly : next.fleet.Orderly
  tracked : next.fleet.Tracked
  enlists : f.Enlists new next
  finished : ∀ task, next.fleet.isFinished task = f.isFinished task

theorem isFinished_ask (f : Fleet) (task i : Nat) :
    (f.ask task).isFinished i = f.isFinished i := by
  rw [isFinished, isFinished, ask_getElem?, Option.any_map]
  congr 1
  funext m
  split
  · rfl
  · rfl

theorem isFinished_stopProbe (key : Text) (f : Fleet) (i : Nat) :
    (stopProbe key f).fleet.isFinished i = f.isFinished i := by
  unfold stopProbe
  split
  · rfl
  · dsimp only
    split
    · split
      · rfl
      · rfl
    · rw [isFinished_ask]
      split
      · rfl
      · rfl

theorem isFinished_stopProbes (keys : List Text) (f : Fleet) (i : Nat) :
    (f.stopProbes keys).fleet.isFinished i = f.isFinished i := by
  induction keys generalizing f with
  | nil => rfl
  | cons key keys ih =>
    rw [stopProbes_cons]
    exact (ih _).trans (isFinished_stopProbe key f i)

theorem isFinished_start (f : Fleet) (n : Node) (i : Nat) :
    (f.start n).isFinished i = f.isFinished i := by
  rw [isFinished, isFinished, start, List.getElem?_append]
  split
  · rfl
  · next hge =>
    rw [List.getElem?_singleton, List.getElem?_eq_none (Nat.le_of_not_lt hge)]
    split
    · rfl
    · rfl

theorem isFinished_startMissing (f : Fleet) (ns : List (Text × Node)) (i : Nat) :
    (f.startMissing ns).1.isFinished i = f.isFinished i := by
  induction ns generalizing f with
  | nil => rfl
  | cons e ns ih =>
    rw [startMissing]
    split
    · exact ih f
    · exact (ih _).trans (isFinished_start f e.2 i)

theorem isFinished_finish_of_ne (f : Fleet) {task i : Nat} (how : Finish) (h : i ≠ task) :
    (f.finish task how).isFinished i = f.isFinished i := by
  rw [isFinished, isFinished, finish_getElem?, Option.any_map]
  simp only [if_neg h.symm]

theorem isFinished_finish_self (f : Fleet) {task : Nat} (how : Finish)
    (h : f.isUnfinished task = true) : (f.finish task how).isFinished task = true := by
  obtain ⟨m, hm, -⟩ := (isUnfinished_iff f task).mp h
  rw [isFinished, finish_getElem?, hm]
  simp

theorem isUnfinished_finish (f : Fleet) (task : Nat) (how : Finish) :
    (f.finish task how).isUnfinished task = false := by
  rw [Bool.eq_false_iff]
  intro hu
  obtain ⟨m, hm, hnone⟩ := (isUnfinished_iff _ task).mp hu
  rw [finish_getElem?] at hm
  obtain ⟨m', -, rfl⟩ := Option.map_eq_some_iff.mp hm
  rw [if_pos rfl] at hnone
  cases (Option.or_eq_none_iff.mp hnone).2

theorem isFinished_collect (f : Fleet) (task i : Nat) :
    (f.collect task).fleet.isFinished i = f.isFinished i := by
  unfold collect
  split
  · rfl
  · rfl

section Amends

variable {f : Fleet} (ho : f.Orderly) (ht : f.Tracked)

include ho ht

theorem stopProbe_amends (key : Text) : f.Amends [] (stopProbe key f) :=
  ⟨stopProbe_orderly ho key, stopProbe_tracked ht ho key, stopProbe_enlists key f,
    isFinished_stopProbe key f⟩

theorem stopProbes_amends (keys : List Text) : f.Amends [] (f.stopProbes keys) :=
  ⟨stopProbes_orderly ho keys, stopProbes_tracked ht ho keys, stopProbes_enlists keys f,
    isFinished_stopProbes keys f⟩

theorem reconcile_amends {s : Snapshot} (hs : s.WellKeyed) :
    ∃ new, f.Amends new (f.reconcile s).toNext :=
  ⟨_, reconcile_orderly ho s hs, reconcile_tracked ht ho s hs, reconcile_enlists f s,
    fun task => (isFinished_stopProbes _ _ task).trans (isFinished_startMissing f s.nodes task)⟩

theorem amends_of_same {next : Next} (hfleet : next.fleet = f) (horders : next.orders = []) :
    f.Amends [] next := by
  refine ⟨hfleet ▸ ho, hfleet ▸ ht, ⟨?_, ?_⟩, fun task => by rw [hfleet]⟩
  · rw [hfleet, List.append_nil]
  · rw [horders]
    rfl

end Amends

end Fleet

namespace Watch

variable {α : Type} {w : Watch α} (ho : w.fleet.Orderly) (ht : w.fleet.Tracked)

/-- What a step of the loop asks of the fleet. -/
def Turn.next (turn : Turn α) : Fleet.Next := ⟨turn.watch.fleet, turn.orders, turn.notices⟩

include ho ht

theorem Turn.Plain.amends {turn : Turn α} (h : Turn.Plain w turn) : w.fleet.Amends [] turn.next :=
  Fleet.amends_of_same ho ht h.fleet h.orders

theorem receive_amends {r : Except QueryFault Snapshot}
    (hr : ∀ found, r = .ok found → found.WellKeyed) :
    ∃ new, w.fleet.Amends new (w.receive r).next := by
  cases r with
  | error e =>
    refine ⟨[], ?_⟩
    cases e with
    | failed f => exact Fleet.amends_of_same ho ht rfl rfl
    | escaped | unencodable | tooDeep => exact Fleet.amends_of_same ho ht rfl rfl
  | ok found =>
    cases hstop : w.stopping with
    | true =>
      obtain ⟨hwatch, horders, -⟩ := receive_idle (w := w) (r := .ok found) (by simp)
        fun _ _ => hstop
      exact ⟨[], Fleet.amends_of_same ho ht (congrArg (·.fleet) hwatch) horders⟩
    | false =>
      obtain ⟨new, hnew⟩ := Fleet.reconcile_amends ho ht (hr found rfl)
      rw [receive_ok hstop]
      exact ⟨new, hnew.orderly, hnew.tracked, ⟨hnew.enlists.nodes, hnew.enlists.orders⟩,
        hnew.finished⟩

/-- After an answer of the catalog the fleet is as it was, or reconciled with a snapshot. -/
theorem follow_receive_amends [Quantity α] (now : α) {r : Except QueryFault Snapshot}
    (hr : ∀ found, r = .ok found → found.WellKeyed) :
    ∃ new, w.fleet.Amends new (follow now (w.receive r)).next := by
  obtain ⟨new, hnew⟩ := receive_amends ho ht hr
  have honward := follow_onward now (w.receive_current r)
  have hfleet : (follow now (w.receive r)).next.fleet = (w.receive r).next.fleet := honward.fleet
  have horders : (follow now (w.receive r)).next.orders = (w.receive r).next.orders :=
    honward.orders
  refine ⟨new, hfleet ▸ hnew.orderly, hfleet ▸ hnew.tracked, ⟨?_, ?_⟩,
    fun task => by rw [hfleet, hnew.finished]⟩
  · rw [hfleet]
    exact hnew.enlists.nodes
  · rw [horders]
    exact hnew.enlists.orders

end Watch

namespace Probe

variable {α : Type} [Quantity α]

namespace Task

theorem step_ending? {t : Task α} (h : t.ending?.isSome = true) (now : α) (e : Event) :
    (t.step now e).task.ending?.isSome = true := by
  obtain ⟨how, hhow⟩ := Option.isSome_iff_exists.mp h
  have hw := ending?_eq_some.mp hhow
  have htouch (change : Link → Link) : (t.touch now change).task.ending?.isSome = true := by
    unfold touch
    split
    · exact h
    · simp only [hw]
      simp [ending?]
  cases e with
  | arrived bs => exact htouch _
  | finished => exact htouch _
  | lost f => exact htouch _
  | tick => simpa only [step, expire, hw] using h
  | cancel => simpa only [step, cancel, hw] using h
  | stop =>
    simp only [step, hw]
    simp [ending?]
  | run | opened | refused | closed => simpa only [step, hw] using h

end Task

namespace Crew

theorem deliver_length (c : Crew α) (now : α) (task : Nat) (e : Event) :
    (c.deliver now task e).1.tasks.length = c.tasks.length := by
  unfold deliver
  split
  · rfl
  · exact List.length_set

theorem deliver_ending?_of_ne (c : Crew α) (now : α) {task i : Nat} (e : Event) (h : i ≠ task) :
    (c.deliver now task e).1.ending? i = c.ending? i := by
  unfold deliver
  split
  · rfl
  · rw [ending?, ending?, List.getElem?_set_ne h.symm]

theorem deliver_ending? (c : Crew α) (now : α) (task : Nat) (e : Event)
    (h : (c.ending? task).isSome = true) :
    ((c.deliver now task e).1.ending? task).isSome = true := by
  unfold deliver
  split
  · exact h
  · next t ht =>
    rw [ending?, ht] at h
    rw [ending?, List.getElem?_set_self (List.getElem?_eq_some_iff.mp ht).1]
    exact Task.step_ending? h now e

omit [Quantity α] in
theorem spawn_ending? (c : Crew α) (n : Node) (config : Config α) (asked : Bool) (i : Nat) :
    (c.spawn n config asked).ending? i = c.ending? i := by
  rw [ending?, ending?, spawn, List.getElem?_append]
  split
  · rfl
  · next hge =>
    rw [List.getElem?_singleton, List.getElem?_eq_none (Nat.le_of_not_lt hge)]
    split
    · rfl
    · rfl

end Crew

end Probe

namespace Service

variable {α : Type} {s t : Service α}

/-- The books agree, but for some tasks that the fleet has taken up and the crew is still to
start. -/
structure Tallies (starts : Nat) (s : Service α) : Prop where
  orderly : s.watch.fleet.Orderly
  tracked : s.watch.fleet.Tracked
  length : s.crew.tasks.length + starts = s.watch.fleet.members.length
  ended : ∀ task, (s.crew.ending? task).isSome = s.watch.fleet.isFinished task

/-- What is done for the probes alone: no task is taken up. -/
structure Tends (s t : Service α) : Prop where
  steady : Steady s t
  sessions : t.sessions = s.sessions
  endpoint : t.endpoint = s.endpoint
  wanes : s.watch.fleet.Wanes t.watch.fleet

namespace Tends

variable {u : Service α}

theorem refl (s : Service α) : Tends s s := ⟨.refl s, rfl, rfl, .refl _⟩

theorem trans (h : Tends s t) (h' : Tends t u) : Tends s u :=
  ⟨h.steady.trans h'.steady, h'.sessions.trans h.sessions, h'.endpoint.trans h.endpoint,
    h.wanes.trans h'.wanes⟩

end Tends

theorem Tallies.of_same {starts : Nat} (h : s.Tallies starts)
    (hfleet : t.watch.fleet = s.watch.fleet) (htasks : t.crew.tasks = s.crew.tasks) :
    t.Tallies starts := by
  refine ⟨hfleet ▸ h.orderly, hfleet ▸ h.tracked, ?_, fun task => ?_⟩
  · rw [hfleet, htasks]
    exact h.length
  · rw [Probe.Crew.ending?, htasks, hfleet]
    exact h.ended task

/-- A step of the fleet, taken over but not carried out yet. -/
theorem Tallies.amend (h : s.Tallies 0) {new : List Node} {next : Fleet.Next}
    (hnext : s.watch.fleet.Amends new next) (hfleet : t.watch.fleet = next.fleet)
    (htasks : t.crew.tasks = s.crew.tasks) : t.Tallies new.length := by
  have htaken : Tallies new.length { s with watch := { s.watch with fleet := next.fleet } } := by
    refine ⟨hnext.orderly, hnext.tracked, ?_, fun task => ?_⟩
    · have hmembers := congrArg List.length hnext.enlists.nodes
      simp only [Fleet.nodes, List.length_append, List.length_map] at hmembers
      have hlength := h.length
      simp only
      omega
    · exact (h.ended task).trans (hnext.finished task).symm
  exact htaken.of_same hfleet htasks

/-- Where no task is still to be started, the fleet and the crew agree on who goes on. -/
theorem Tallies.isUnfinished (h : s.Tallies 0) (task : Nat) :
    s.watch.fleet.isUnfinished task = true ↔
      ∃ x, s.crew.tasks[task]? = some x ∧ x.ending? = none := by
  have hlength : s.crew.tasks.length = s.watch.fleet.members.length := h.length
  have hended := h.ended task
  obtain hlt | hge := Nat.lt_or_ge task s.crew.tasks.length
  · rw [Fleet.isFinished_of_lt _ (hlength ▸ hlt), Probe.Crew.ending?,
      List.getElem?_eq_getElem hlt] at hended
    rw [List.getElem?_eq_getElem hlt]
    cases hunfinished : s.watch.fleet.isUnfinished task with
    | true => simpa [hunfinished] using hended
    | false => simpa [hunfinished, Option.isSome_iff_ne_none] using hended
  · rw [Fleet.isUnfinished, List.getElem?_eq_none hge, List.getElem?_eq_none (hlength ▸ hge)]
    simp

variable [Quantity α]

/-- The fleet takes notice of the end of a task, and of nothing else that happens to one. -/
theorem touch_cases (now : α) (task : Nat) (e : Probe.Event) (s : Service α) :
    let t := (s.touch now task e).service
    t.crew = (s.crew.deliver now task e).1 ∧ t.sessions = s.sessions ∧ t.endpoint = s.endpoint ∧
      (t.watch.fleet = s.watch.fleet ∧
          (s.watch.fleet.isUnfinished task = true → t.crew.ending? task = none) ∨
        s.watch.fleet.isUnfinished task = true ∧ (t.crew.ending? task).isSome = true ∧
          ∃ how, t.watch.fleet = ((s.watch.fleet.finish task how).collect task).fleet) := by
  unfold touch
  simp only
  split
  · next hhow =>
    refine ⟨rfl, rfl, rfl, .inl ⟨rfl, fun hu => ?_⟩⟩
    rw [if_pos hu] at hhow
    exact Option.map_eq_none_iff.mp hhow
  · next how hhow =>
    refine ⟨rfl, rfl, rfl, .inr ?_⟩
    split at hhow
    · next hu =>
      obtain ⟨ending, hending, -⟩ := Option.map_eq_some_iff.mp hhow
      exact ⟨hu, Option.isSome_iff_exists.mpr ⟨ending, hending⟩, how, rfl⟩
    · cases hhow

theorem touch_tends (now : α) (task : Nat) (e : Probe.Event) (s : Service α) :
    Tends s (s.touch now task e).service := by
  obtain ⟨-, hsessions, hendpoint, ⟨hsame, -⟩ | ⟨-, -, how, hfleet⟩⟩ := touch_cases now task e s
  · exact ⟨touch_steady now task e s, hsessions, hendpoint, by rw [hsame]; exact .refl _⟩
  · refine ⟨touch_steady now task e s, hsessions, hendpoint, ?_⟩
    rw [hfleet]
    exact (Fleet.finish_wanes _ task how).trans (Fleet.collect_wanes _ task)

theorem touch_tallies {starts : Nat} (h : s.Tallies starts) (now : α) (task : Nat)
    (e : Probe.Event) : (s.touch now task e).service.Tallies starts := by
  have hwanes := (touch_tends now task e s).wanes
  obtain ⟨hcrew, -, -, hfleet⟩ := touch_cases now task e s
  have hlength : (s.touch now task e).service.crew.tasks.length + starts =
      (s.touch now task e).service.watch.fleet.members.length := by
    rw [hcrew, Probe.Crew.deliver_length, hwanes.length]
    exact h.length
  have hothers (i : Nat) (hi : i ≠ task) :
      ((s.touch now task e).service.crew.ending? i).isSome = s.watch.fleet.isFinished i := by
    rw [hcrew, s.crew.deliver_ending?_of_ne now e hi]
    exact h.ended i
  obtain ⟨hsame, hgoes⟩ | ⟨hu, hends, how, hfleet⟩ := hfleet
  · -- The fleet takes no notice, so the task must stand with the crew as it did.
    refine ⟨hsame ▸ h.orderly, hsame ▸ h.tracked, hlength, fun i => ?_⟩
    rw [hsame]
    by_cases hi : i = task
    · subst hi
      -- The task had ended before, or goes on, or is none of the crew.
      cases hfinished : s.watch.fleet.isFinished i with
      | true =>
        rw [hcrew]
        exact s.crew.deliver_ending? now i e ((h.ended i).trans hfinished)
      | false =>
        rw [Option.isSome_eq_false_iff, Option.isNone_iff_eq_none]
        obtain hlt | hge := Nat.lt_or_ge i s.crew.tasks.length
        · have hmember : i < s.watch.fleet.members.length := by
            have hall := h.length
            omega
          refine hgoes ?_
          simpa [Fleet.isFinished_of_lt _ hmember] using hfinished
        · rw [hcrew, Probe.Crew.ending?, List.getElem?_eq_none]
          · rfl
          · rw [Probe.Crew.deliver_length]
            exact hge
    · exact hothers i hi
  · have ho := Fleet.finish_orderly h.orderly task how
    have ht := Fleet.finish_tracked h.tracked task how
    refine ⟨hfleet ▸ Fleet.collect_orderly ho task,
      hfleet ▸ Fleet.collect_tracked ht (Fleet.isUnfinished_finish _ task how), hlength,
      fun i => ?_⟩
    rw [hfleet, Fleet.isFinished_collect]
    by_cases hi : i = task
    · rw [hi, hends, Fleet.isFinished_finish_self _ how hu]
    · rw [hothers i hi, Fleet.isFinished_finish_of_ne _ how hi]

theorem obey_tallies {starts : Nat} (now : α) (o : Fleet.Order)
    (h : s.Tallies (starts + o.node?.toList.length)) : (s.obey now o).service.Tallies starts := by
  cases o with
  | start task n =>
    have hspawned : Tallies starts { s with crew := s.crew.spawn n s.config false } := by
      refine ⟨h.orderly, h.tracked, ?_, fun i => ?_⟩
      · have hlength := h.length
        simp only [Fleet.Order.node?, Option.toList_some, List.length_singleton] at hlength
        simp only [Probe.Crew.spawn, List.length_append, List.length_singleton]
        omega
      · rw [Probe.Crew.spawn_ending?]
        exact h.ended i
    exact touch_tallies hspawned ..
  | stop task => exact touch_tallies h ..
  | cancel task => exact touch_tallies h ..

theorem obeyAll_tends (now : α) (orders : List Fleet.Order) (s : Service α) :
    Tends s (s.obeyAll now orders).service :=
  obeyAll_related Tends.refl (fun _ _ _ => Tends.trans) now
    (fun s _ => ⟨⟨rfl, rfl, s.watch.fleet, rfl⟩, rfl, rfl, .refl _⟩) (touch_tends now) orders s

/-- Once all orders are carried out, the crew has the tasks that the fleet has. -/
theorem obeyAll_tallies (now : α) (orders : List Fleet.Order)
    (h : s.Tallies (orders.filterMap Fleet.Order.node?).length) :
    (s.obeyAll now orders).service.Tallies 0 := by
  -- Carrying out one order starts at most its own task: the count goes down order by order.
  have hfold (orders : List Fleet.Order) (next : Next α)
      (h : next.service.Tallies (orders.filterMap Fleet.Order.node?).length) :
      (orders.foldl (fun next o => next.andThen fun s => s.obey now o) next).service.Tallies 0 := by
    induction orders generalizing next with
    | nil => exact h
    | cons o orders ih =>
      rw [Fleet.Order.nodes_cons, List.length_append, Nat.add_comm] at h
      exact ih _ (obey_tallies now o h)
  exact hfold orders ⟨s, []⟩ h

end Service

end FleetProbe
