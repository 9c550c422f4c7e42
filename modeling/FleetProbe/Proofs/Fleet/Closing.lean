import FleetProbe.Fleet.Shutdown
import FleetProbe.Proofs.Fleet.Bookkeeping
import FleetProbe.Proofs.Fleet.Reconcile
import FleetProbe.Proofs.Fleet.Turns
/-!
The end of a watch, with everything that may be under way on it at once: polls and loops of polls,
each waiting for tokens or for the catalog, and calls that stop it. From the moment it is told to
stop no poll creates a task any more, and a stop that is over leaves no task that has not finished.
-/

namespace FleetProbe

open Catalog

namespace Fleet

/-- No task is created on the way from one fleet to another, none that has finished goes on, and
no probe runs that did not. -/
structure Wanes (f g : Fleet) : Prop where
  length : g.members.length = f.members.length
  unfinished : ∀ task, g.isUnfinished task = true → f.isUnfinished task = true
  active : g.active.Sublist f.active

namespace Wanes

variable {f g h : Fleet}

theorem refl (f : Fleet) : Wanes f f := ⟨rfl, fun _ h => h, List.Sublist.refl _⟩

theorem trans (hfg : Wanes f g) (hgh : Wanes g h) : Wanes f h :=
  ⟨hgh.length.trans hfg.length, fun task ht => hfg.unfinished task (hgh.unfinished task ht),
    hgh.active.trans hfg.active⟩

theorem active_nil (hfg : Wanes f g) (hf : f.active = []) : g.active = [] :=
  List.sublist_nil.mp (hf ▸ hfg.active)

end Wanes

theorem stopProbe_wanes (key : Text) (f : Fleet) : Wanes f (stopProbe key f).fleet := by
  have hask (g : Fleet) (task : Nat) (hg : Wanes f g) : Wanes f (g.ask task) := by
    refine hg.trans ⟨by simp [ask], fun i hi => ?_, List.Sublist.refl _⟩
    rwa [isUnfinished_ask] at hi
  unfold stopProbe
  split
  · exact .refl f
  · next task _ =>
    have hleft : Wanes f { f with active := f.active.filter fun e => e.1 != key } :=
      ⟨rfl, fun _ h => h, List.filter_sublist⟩
    have hkept : Wanes f { f with
        active := f.active.filter fun e => e.1 != key, retiring := f.retiring ++ [task] } :=
      ⟨rfl, fun _ h => h, List.filter_sublist⟩
    dsimp only
    split
    · split
      · exact hkept
      · exact hleft
    · split
      · exact hask _ task hkept
      · exact hask _ task hleft

theorem stopProbes_wanes (keys : List Text) (f : Fleet) : Wanes f (f.stopProbes keys).fleet := by
  induction keys generalizing f with
  | nil => exact .refl f
  | cons key keys ih =>
    rw [stopProbes_cons]
    exact (stopProbe_wanes key f).trans (ih _)

theorem finish_wanes (f : Fleet) (task : Nat) (how : Finish) : Wanes f (f.finish task how) := by
  refine ⟨by simp [finish], fun i hi => ?_, List.Sublist.refl _⟩
  obtain ⟨m, hm, hf⟩ := (isUnfinished_iff _ i).mp hi
  rw [finish_getElem?] at hm
  obtain ⟨m', hm', rfl⟩ := Option.map_eq_some_iff.mp hm
  refine (isUnfinished_iff f i).mpr ⟨m', hm', ?_⟩
  split at hf
  · exact (Option.or_eq_none_iff.mp hf).1
  · exact hf

theorem collect_wanes (f : Fleet) (task : Nat) : Wanes f (f.collect task).fleet := by
  unfold collect
  split
  · exact .refl f
  · exact ⟨rfl, fun _ h => h, List.filter_sublist⟩

/-- Only a reconciliation creates tasks. -/
theorem step_wanes (f : Fleet) {e : Event} (he : ∀ index nodes, e ≠ .reconcile index nodes) :
    Wanes f (f.step e) := by
  cases e with
  | reconcile index nodes => exact absurd rfl (he index nodes)
  | stopProbe key => exact stopProbe_wanes key f
  | stopAll => exact stopProbes_wanes f.keys f
  | finish task how => exact finish_wanes f task how
  | collect task =>
    rw [step]
    split
    · exact .refl f
    · exact collect_wanes f task

theorem run_wanes (f : Fleet) {es : List Event}
    (hes : ∀ e ∈ es, ∀ index nodes, e ≠ .reconcile index nodes) : Wanes f (f.run es) := by
  induction es generalizing f with
  | nil => exact .refl f
  | cons e es ih =>
    have hstep := step_wanes f (hes e List.mem_cons_self)
    exact hstep.trans (ih _ fun x hx => hes x (List.mem_cons_of_mem _ hx))

/-- Nothing is left: every task ever created has finished, and no probe runs. -/
def Spent (f : Fleet) : Prop := (∀ m ∈ f.members, m.finish.isSome = true) ∧ f.keys = []

theorem isUnfinished_false (f : Fleet) (h : ∀ m ∈ f.members, m.finish.isSome = true) (task : Nat) :
    f.isUnfinished task = false := by
  rw [Bool.eq_false_iff]
  intro hu
  obtain ⟨m, hm, hnone⟩ := (isUnfinished_iff f task).mp hu
  have hsome := h m (List.mem_of_getElem? hm)
  rw [hnone] at hsome
  cases hsome

theorem finished_of_none (f : Fleet) (h : ∀ task, f.isUnfinished task = false) :
    ∀ m ∈ f.members, m.finish.isSome = true := by
  intro m hm
  obtain ⟨task, htask⟩ := List.getElem?_of_mem hm
  by_contra hnone
  have hu := (isUnfinished_iff f task).mpr ⟨m, htask, by simpa using hnone⟩
  rw [h task] at hu
  cases hu

theorem stopAll_active {f : Fleet} (h : f.Orderly) : f.stopAll.fleet.active = [] := by
  obtain ⟨-, hactive, -⟩ := stopProbes_eq h f.active (fun e he => he) h.nodup
  rw [stopAll, keys, hactive]
  refine List.filter_eq_nil_iff.mpr fun e he => ?_
  simp only [Bool.not_eq_true', decide_eq_false_iff_not, not_not]
  exact List.mem_map_of_mem he

end Fleet

namespace Shutdown

variable {α : Type}

/-- A stop that is not over waits for a task. -/
def Awaits (task : Nat) : Shutdown α → Prop
  | .waiting tasks _ => task ∈ tasks
  | .cancelling tasks => task ∈ tasks
  | .over => False

/-- A stop waits for every task that has not finished. -/
def Covers (f : Fleet) (s : Shutdown α) : Prop := ∀ task, f.isUnfinished task = true → s.Awaits task

theorem Covers.of_wanes {f g : Fleet} {s : Shutdown α} (h : s.Covers f) (hfg : f.Wanes g) :
    s.Covers g :=
  fun task ht => h task (hfg.unfinished task ht)

/-- What has not finished is a running probe or is retiring, so a stop waits for it. -/
theorem begin_covers {w : Watch α} (ho : w.fleet.Orderly) (ht : w.fleet.Tracked)
    (deadline : Option α) :
    (Shutdown.begin w deadline).2.shutdown.Covers (Shutdown.begin w deadline).1.fleet := by
  have hactive := Fleet.stopAll_active ho
  have htracked := Fleet.stopProbes_tracked ht ho w.fleet.keys
  intro task hu
  have hpending : task ∈ w.fleet.stopAll.fleet.pending := by
    obtain ⟨key, hk⟩ | hr := htracked.seen task hu
    · rw [← Fleet.stopAll, hactive] at hk
      cases hk
    · exact List.mem_filter.mpr ⟨hr, hu⟩
  simp only [begin]
  split
  · next hempty =>
    rw [List.isEmpty_iff.mp hempty] at hpending
    cases hpending
  · exact hpending

variable [Quantity α]

theorem advance_covers {f : Fleet} {s : Shutdown α} (h : s.Covers f) (now : α) :
    (s.advance f now).shutdown.Covers f := by
  have hnone (tasks : List Nat) (ht : (tasks.filter f.isUnfinished).isEmpty = true)
      (hs : ∀ task, f.isUnfinished task = true → task ∈ tasks) :
      (.over : Shutdown α).Covers f := by
    intro task hu
    have hmem := List.mem_filter.mpr ⟨hs task hu, hu⟩
    rw [List.isEmpty_iff.mp ht] at hmem
    cases hmem
  cases s with
  | waiting tasks deadline =>
    simp only [advance]
    split
    · next hempty => exact hnone tasks hempty h
    · split
      · exact fun task hu => List.mem_filter.mpr ⟨h task hu, hu⟩
      · exact h
  | cancelling tasks =>
    simp only [advance]
    split
    · next hempty => exact hnone tasks hempty h
    · exact h
  | «over» => exact h

/-- Once its tasks have finished, a stop is over when it looks at them. -/
theorem advance_over {f : Fleet} (hf : ∀ task, f.isUnfinished task = false) (s : Shutdown α)
    (now : α) : (s.advance f now).shutdown = .over := by
  have hnone (tasks : List Nat) : (tasks.filter f.isUnfinished).isEmpty = true := by
    rw [List.isEmpty_iff, List.filter_eq_nil_iff]
    intro task _
    simp [hf task]
  cases s with
  | waiting tasks deadline => simp only [advance, hnone tasks, if_true]
  | cancelling tasks => simp only [advance, hnone tasks, if_true]
  | «over» => rfl

end Shutdown

/-- A poll or a loop of polls, and what it waits for unless it is over. -/
structure Poller (α : Type) where
  repeats : Bool
  wait : Option (Watch.Wait α)
  deriving DecidableEq, Repr

/-- A watch, the polls and loops that were begun on it, and the stops. -/
structure Station (α : Type) where
  watch : Watch α
  pollers : List (Poller α) := []
  stops : List (Shutdown α) := []
  deriving Repr

namespace Station

/-- What can happen to a station. Whatever its tasks do, and whatever others do to the fleet, is an
event of the fleet; a poller can be given up at any time, and a stop looks at its tasks when they
have finished or its time is over, or for nothing. -/
inductive Event (α : Type) where
  | fleet (e : Fleet.Event)
  | poll
  | run
  | wake (poller : Nat)
  | receive (poller : Nat) (answer : Except QueryFault (Int × List Node))
  | giveUp (poller : Nat)
  | stop (deadline : Option α)
  | look (stop : Nat)

/-- Somebody reconciles the fleet without a poll. -/
def Event.ByHand {α : Type} (e : Event α) : Prop :=
  ∃ index nodes, e = .fleet (.reconcile index nodes)

/-- The answer of the catalog to a poll is that the query failed. -/
def Event.Fails {α : Type} (e : Event α) : Prop :=
  ∃ poller f, e = .receive poller (.error (.failed f))

variable {α : Type}

def start (bucket : Bucket α) (cost : Int) : Station α := { watch := { bucket, cost } }

/-- What a step of a poll leaves the poller waiting for. -/
def waitOf (turn : Watch.Turn α) : Option (Watch.Wait α) :=
  match turn.stand with
  | .waiting w => some w
  | .over _ => none

def launch (s : Station α) (repeats : Bool) (turn : Watch.Turn α) : Station α :=
  { s with watch := turn.watch, pollers := s.pollers ++ [⟨repeats, waitOf turn⟩] }

def resume (s : Station α) (poller : Nat) (p : Poller α) (turn : Watch.Turn α) : Station α :=
  { s with watch := turn.watch, pollers := s.pollers.set poller { p with wait := waitOf turn } }

/-- The catalog's answer with its nodes put together. -/
def answerOf (answer : Except QueryFault (Int × List Node)) : Except QueryFault Snapshot :=
  answer.map fun (index, nodes) => .ofNodes index nodes

/-- Ends a poller from outside. -/
def drop (s : Station α) (poller : Nat) (p : Poller α) : Station α :=
  { s with
    watch := { s.watch with running := s.watch.running && !(p.repeats && p.wait.isSome) }
    pollers := s.pollers.set poller { p with wait := none } }

variable [Quantity α]

/-- Goes on with a loop; a single poll is left as it is. -/
def carryOn (now : α) (p : Poller α) (turn : Watch.Turn α) : Watch.Turn α :=
  if p.repeats then Watch.follow now turn else turn

def step (s : Station α) (now : α) : Event α → Station α
  | .fleet e => { s with watch := { s.watch with fleet := s.watch.fleet.step e } }
  | .poll => s.launch false (s.watch.poll now)
  | .run => s.launch true (s.watch.run now)
  | .wake poller =>
    match s.pollers[poller]? with
    | some p =>
      match p.wait with
      | some (.tokens _) => s.resume poller p (carryOn now p (s.watch.wake now))
      | _ => s
    | none => s
  | .receive poller answer =>
    match s.pollers[poller]? with
    | some p =>
      match p.wait with
      | some (.catalog _) =>
        s.resume poller p (carryOn now p (s.watch.receive (answerOf answer)))
      | _ => s
    | none => s
  | .giveUp poller =>
    match s.pollers[poller]? with
    | some p => s.drop poller p
    | none => s
  | .stop deadline =>
    let (watch, next) := Shutdown.begin s.watch deadline
    { s with watch, stops := s.stops ++ [next.shutdown] }
  | .look stop =>
    match s.stops[stop]? with
    | some shutdown =>
      { s with stops := s.stops.set stop (shutdown.advance s.watch.fleet now).shutdown }
    | none => s

/-- A run of events, each at its own time. -/
def after (s : Station α) (events : List (α × Event α)) : Station α :=
  events.foldl (fun s (now, e) => s.step now e) s

/-- What an event can change. Only polls and reconciliations by hand create tasks, and no poll does
while the watch is stopping. -/
structure Moves (s : Station α) (e : Event α) (t : Station α) : Prop where
  fleet : ∃ es, t.watch.fleet = s.watch.fleet.run es ∧
    (s.watch.stopping = true → ¬ e.ByHand → ∀ x ∈ es, ∀ index nodes, x ≠ .reconcile index nodes)
  index : s.watch.stopping = true →
    t.watch.index = s.watch.index ∨ (t.watch.index = 0 ∧ e.Fails)
  stopping : s.watch.stopping = true → t.watch.stopping = true
  stops : t.stops = s.stops ∨ (∃ deadline, e = .stop deadline) ∨ ∃ stop, e = .look stop

omit [Quantity α] in
theorem moves_of_same {s t : Station α} {e : Event α} (hf : t.watch.fleet = s.watch.fleet)
    (hi : t.watch.index = s.watch.index) (hs : t.watch.stopping = s.watch.stopping)
    (hstops : t.stops = s.stops ∨ (∃ deadline, e = .stop deadline) ∨ ∃ stop, e = .look stop) :
    Moves s e t :=
  ⟨⟨[], hf, by simp⟩, fun _ => .inl hi, fun h => hs.trans h, hstops⟩

theorem carryOn_onward (now : α) (p : Poller α) {turn : Watch.Turn α} (h : turn.Current) :
    turn.Onward (carryOn now p turn) := by
  unfold carryOn
  split
  · exact Watch.follow_onward now h
  · exact ⟨rfl, rfl, rfl, h, rfl, rfl⟩

theorem wake_moves (s : Station α) (now : α) (poller : Nat) (p : Poller α) :
    Moves s (.wake poller) (s.resume poller p (carryOn now p (s.watch.wake now))) := by
  have hwake := Watch.wake_plain s.watch now
  have h := carryOn_onward now p hwake.current
  exact moves_of_same (h.fleet.trans hwake.fleet) (h.index.trans hwake.index)
    (h.stopping.trans hwake.stopping) (.inl rfl)

theorem receive_moves (s : Station α) (now : α) (poller : Nat) (p : Poller α)
    (answer : Except QueryFault (Int × List Node)) :
    Moves s (.receive poller answer)
      (s.resume poller p (carryOn now p (s.watch.receive (answerOf answer)))) := by
  obtain ⟨hf, hi, hs, -, -, -⟩ :=
    carryOn_onward now p (Watch.receive_current s.watch (answerOf answer))
  have hidle (hfail : ∀ f, answerOf answer ≠ .error (.failed f))
      (hok : ∀ found, answerOf answer = .ok found → s.watch.stopping = true) :
      Moves s (.receive poller answer)
        (s.resume poller p (carryOn now p (s.watch.receive (answerOf answer)))) := by
    obtain ⟨hw, -, -⟩ := Watch.receive_idle hfail hok
    rw [hw] at hf hi hs
    exact moves_of_same hf hi hs (.inl rfl)
  cases answer with
  | error e =>
    cases e with
    | failed f =>
      exact ⟨⟨[], hf, by simp⟩, fun _ => .inr ⟨hi, poller, f, rfl⟩, fun h => hs.trans h, .inl rfl⟩
    | escaped | unencodable | tooDeep =>
      exact hidle (by simp [answerOf, Except.map]) (by simp [answerOf, Except.map])
  | ok found =>
    obtain ⟨index, nodes⟩ := found
    cases hstop : s.watch.stopping with
    | true => exact hidle (by simp [answerOf, Except.map]) fun _ _ => hstop
    | false =>
      have hnot (h : s.watch.stopping = true) : False := by
        rw [hstop] at h
        cases h
      have htaken := Watch.receive_ok hstop (.ofNodes index nodes)
      have hfleet : (s.watch.receive (answerOf (.ok (index, nodes)))).watch.fleet =
          s.watch.fleet.run [.reconcile index nodes] := by
        rw [answerOf, Except.map, htaken]
        rfl
      exact ⟨⟨[.reconcile index nodes], hf.trans hfleet, fun h => (hnot h).elim⟩,
        fun h => (hnot h).elim, fun h => (hnot h).elim, .inl rfl⟩

theorem step_moves (s : Station α) (now : α) (e : Event α) : Moves s e (s.step now e) := by
  have hstill : Moves s e s := moves_of_same rfl rfl rfl (.inl rfl)
  cases e with
  | fleet e =>
    refine ⟨⟨[e], rfl, fun _ hhand x hx => ?_⟩, fun _ => .inl rfl, id, .inl rfl⟩
    rintro index nodes rfl
    exact hhand ⟨index, nodes, by rw [List.mem_singleton.mp hx]⟩
  | poll =>
    have hpoll := Watch.poll_plain s.watch now
    exact moves_of_same hpoll.fleet hpoll.index hpoll.stopping (.inl rfl)
  | run =>
    have hrun := Watch.run_plain s.watch now
    exact moves_of_same hrun.fleet hrun.index hrun.stopping (.inl rfl)
  | wake poller =>
    rw [step]
    split
    · split
      · exact wake_moves s now poller _
      · exact hstill
    · exact hstill
  | receive poller answer =>
    rw [step]
    split
    · split
      · exact receive_moves s now poller _ answer
      · exact hstill
    · exact hstill
  | giveUp poller =>
    rw [step]
    split
    · exact moves_of_same rfl rfl rfl (.inl rfl)
    · exact hstill
  | stop deadline =>
    refine ⟨⟨[.stopAll], rfl, fun _ _ x hx => ?_⟩, fun _ => .inl rfl, fun _ => rfl,
      .inr (.inl ⟨deadline, rfl⟩)⟩
    rw [List.mem_singleton.mp hx]
    simp
  | look stop =>
    rw [step]
    split
    · exact moves_of_same rfl rfl rfl (.inr (.inr ⟨stop, rfl⟩))
    · exact hstill

theorem after_books {s : Station α} (ho : s.watch.fleet.Orderly) (ht : s.watch.fleet.Tracked)
    (events : List (α × Event α)) :
    (s.after events).watch.fleet.Orderly ∧ (s.after events).watch.fleet.Tracked := by
  induction events generalizing s with
  | nil => exact ⟨ho, ht⟩
  | cons e events ih =>
    obtain ⟨es, hfleet, -⟩ := (step_moves s e.1 e.2).fleet
    have ho' := Fleet.run_orderly ho es
    have ht' := Fleet.run_tracked ht ho es
    rw [← hfleet] at ho' ht'
    exact ih ho' ht'

/-- A station that was told to stop, `n` stops before that not counted. -/
structure Closing (n : Nat) (s : Station α) : Prop where
  stopping : s.watch.stopping = true
  orderly : s.watch.fleet.Orderly
  tracked : s.watch.fleet.Tracked
  active : s.watch.fleet.active = []
  covers : ∀ i shutdown, n ≤ i → s.stops[i]? = some shutdown → shutdown.Covers s.watch.fleet

theorem step_wanes {s : Station α} (h : s.watch.stopping = true) (now : α) {e : Event α}
    (he : ¬ e.ByHand) : s.watch.fleet.Wanes (s.step now e).watch.fleet := by
  obtain ⟨es, hfleet, hes⟩ := (step_moves s now e).fleet
  rw [hfleet]
  exact Fleet.run_wanes s.watch.fleet (hes h he)

theorem stop_closing {s : Station α} (ho : s.watch.fleet.Orderly) (ht : s.watch.fleet.Tracked)
    (now : α) (deadline : Option α) : Closing s.stops.length (s.step now (.stop deadline)) := by
  refine ⟨rfl, Fleet.stopProbes_orderly ho _, Fleet.stopProbes_tracked ht ho _,
    Fleet.stopAll_active ho, fun i shutdown hi hs => ?_⟩
  simp only [step] at hs
  rw [List.getElem?_append_right hi, List.getElem?_singleton] at hs
  split at hs
  · cases hs
    exact Shutdown.begin_covers ho ht deadline
  · cases hs

theorem step_closing {n : Nat} {s : Station α} (h : Closing n s) (now : α) {e : Event α}
    (he : ¬ e.ByHand) : Closing n (s.step now e) := by
  have hmoves := step_moves s now e
  have hwanes := step_wanes h.stopping now he
  obtain ⟨es, hfleet, -⟩ := hmoves.fleet
  have ho := Fleet.run_orderly h.orderly es
  have ht := Fleet.run_tracked h.tracked h.orderly es
  rw [← hfleet] at ho ht
  refine ⟨hmoves.stopping h.stopping, ho, ht, hwanes.active_nil h.active,
    fun i shutdown hi hs => ?_⟩
  obtain hsame | ⟨deadline, rfl⟩ | ⟨stop, rfl⟩ := hmoves.stops
  · rw [hsame] at hs
    exact (h.covers i shutdown hi hs).of_wanes hwanes
  · -- The new stop stands behind the others.
    simp only [step] at hs
    rw [List.getElem?_append] at hs
    split at hs
    · exact (h.covers i shutdown hi hs).of_wanes hwanes
    · rw [List.getElem?_singleton] at hs
      split at hs
      · cases hs
        exact Shutdown.begin_covers h.orderly h.tracked deadline
      · cases hs
  · simp only [step] at hs ⊢
    split at hs
    · next looking hlooking =>
      rw [List.getElem?_set] at hs
      split at hs
      · next heq =>
        subst heq
        split at hs
        · cases hs
          exact Shutdown.advance_covers (h.covers stop looking hi hlooking) now
        · cases hs
      · exact h.covers i shutdown hi hs
    · exact h.covers i shutdown hi hs

theorem after_closing {n : Nat} {s : Station α} (h : Closing n s) (events : List (α × Event α))
    (hevents : ∀ x ∈ events, ¬ x.2.ByHand) : Closing n (s.after events) := by
  induction events generalizing s with
  | nil => exact h
  | cons e events ih =>
    have hstep := step_closing h e.1 (hevents e List.mem_cons_self)
    exact ih hstep fun x hx => hevents x (List.mem_cons_of_mem _ hx)

theorem after_stopping {s : Station α} (h : s.watch.stopping = true)
    (events : List (α × Event α)) : (s.after events).watch.stopping = true := by
  induction events generalizing s with
  | nil => exact h
  | cons e events ih => exact ih ((step_moves s e.1 e.2).stopping h)

omit [Quantity α] in
theorem Closing.spent {n i : Nat} {s : Station α} (h : Closing n s) (hi : n ≤ i)
    (hover : s.stops[i]? = some .over) : s.watch.fleet.Spent := by
  refine ⟨s.watch.fleet.finished_of_none fun task => ?_, ?_⟩
  · rw [Bool.eq_false_iff]
    exact h.covers i .over hi hover task
  · rw [Fleet.keys, h.active, List.map_nil]

/-- A stop that looks at tasks which have all finished is over. -/
theorem look_over {s : Station α} (h : ∀ m ∈ s.watch.fleet.members, m.finish.isSome = true)
    {i : Nat} (hi : i < s.stops.length) (now : α) :
    (s.step now (.look i)).stops[i]? = some .over := by
  have hover := Shutdown.advance_over (s.watch.fleet.isUnfinished_false h) s.stops[i] now
  simp only [step, List.getElem?_eq_getElem hi]
  rw [List.getElem?_set_self hi, hover]

/-- **A stop is final and complete**, whatever has happened before and whatever goes on while it
waits. No poll, begun before or after it, creates a task any more or moves the index, but for a
failed query, which takes the index back to zero. When the stop is over, every task ever created
has finished and no probe runs; and it is over as soon as it looks at tasks that have all
finished. -/
theorem stop_complete_and_final (bucket : Bucket α) (cost : Int) (before : List (α × Event α))
    (now : α) (deadline : Option α) (later : List (α × Event α)) :
    let s := (start bucket cost).after before
    let t := (s.step now (.stop deadline)).after later
    (∀ time e, ¬ e.ByHand →
      (t.step time e).watch.fleet.members.length = t.watch.fleet.members.length ∧
        ((t.step time e).watch.index = t.watch.index ∨
          (t.step time e).watch.index = 0 ∧ e.Fails)) ∧
      ((∀ x ∈ later, ¬ x.2.ByHand) → ∀ i, s.stops.length ≤ i → i < t.stops.length →
        (t.stops[i]? = some .over → t.watch.fleet.Spent) ∧
          ((∀ m ∈ t.watch.fleet.members, m.finish.isSome = true) →
            ∀ time, (t.step time (.look i)).stops[i]? = some .over)) := by
  intro s t
  obtain ⟨ho, ht⟩ := after_books (s := start bucket cost) Fleet.empty_orderly Fleet.empty_tracked
    before
  have hclosing := stop_closing ho ht now deadline
  refine ⟨fun time e he => ?_, fun hlater i hi hlt => ⟨fun hover => ?_, fun hall time => ?_⟩⟩
  · have hstopping := after_stopping hclosing.stopping later
    exact ⟨(step_wanes hstopping time he).length, (step_moves t time e).index hstopping⟩
  · exact (after_closing hclosing later hlater).spent hi hover
  · exact look_over hall hlt time

/-- A full bucket of one token. -/
def oneToken : Bucket Rat := ⟨.whole 1, .whole 1, 1, 1, .whole 0⟩

/-- A probe runs that an earlier snapshot started, and a loop has asked the catalog. -/
def asking : List (Rat × Event Rat) := [(0, .fleet (.reconcile 5 [⟨"c", "h", 1⟩])), (0, .run)]

/-- The catalog answers while the stop waits, the probe ignores its stop request until it is
cancelled, and a poll is begun once more. -/
def stubborn : List (Rat × Event Rat) :=
  [(2, .receive 0 (.ok (7, [⟨"c", "h", 1⟩]))), (6, .look 0), (6, .fleet (.finish 0 .cancelled)),
    (7, .look 0), (8, .poll)]

theorem stubborn_spent :
    (((start oneToken 1).after asking).step 1 (.stop (some 6))).watch.fleet.isUnfinished 0 = true ∧
      ((((start oneToken 1).after asking).step 1 (.stop (some 6))).after
        stubborn).watch.fleet.Spent ∧
      ∀ answer, (((((start oneToken 1).after asking).step 1 (.stop (some 6))).after
        stubborn).step 8 (.receive 1 (.ok answer))).watch.fleet.members.length = 1 := by
  obtain ⟨hfinal, hcomplete⟩ :=
    stop_complete_and_final oneToken 1 asking 1 (some 6) stubborn
  have hhand : ∀ x ∈ stubborn, ¬ x.2.ByHand := by
    rintro x hx ⟨index, nodes, h⟩
    simp only [stubborn, List.mem_cons, List.not_mem_nil, or_false] at hx
    obtain rfl | rfl | rfl | rfl | rfl := hx <;> cases h
  obtain ⟨hspent, -⟩ := hcomplete hhand 0 (by decide +kernel) (by decide +kernel)
  refine ⟨by decide +kernel, hspent (by decide +kernel), fun answer => ?_⟩
  have hsame := hfinal 8 (.receive 1 (.ok answer)) (by rintro ⟨index, nodes, h⟩; cases h)
  exact hsame.1.trans (by decide +kernel)

end Station

end FleetProbe
