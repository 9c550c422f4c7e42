import FleetProbe.Fleet.Watch
/-!
What the steps of a poll change of a watch. Tokens and rounds of the loop are no matter of the
fleet or of the index; only an answer of the catalog changes these, and not even that once the
watch is stopping.
-/

namespace FleetProbe.Watch

open Catalog

variable {α : Type}

namespace Turn

/-- What a turn asks the catalog, it asks behind the index at hand. -/
def Current (turn : Turn α) : Prop :=
  ∀ previous, turn.stand = .waiting (.catalog previous) → previous = turn.watch.index

theorem current_of_over {turn : Turn α} (h : ∃ r, turn.stand = .over r) : turn.Current := by
  intro previous hp
  obtain ⟨r, hr⟩ := h
  cases hr.symm.trans hp

/-- A step that only waits or goes on. -/
structure Plain (w : Watch α) (turn : Turn α) : Prop where
  fleet : turn.watch.fleet = w.fleet
  index : turn.watch.index = w.index
  stopping : turn.watch.stopping = w.stopping
  current : turn.Current
  orders : turn.orders = []
  failures : turn.failures = 0

theorem Plain.of_same {w v : Watch α} {turn : Turn α} (h : Plain w turn)
    (hf : w.fleet = v.fleet) (hi : w.index = v.index) (hs : w.stopping = v.stopping) :
    Plain v turn :=
  ⟨h.fleet.trans hf, h.index.trans hi, h.stopping.trans hs, h.current, h.orders, h.failures⟩

end Turn

theorem query_plain (w : Watch α) : Turn.Plain w w.query := by
  refine ⟨rfl, rfl, rfl, fun previous hp => ?_, rfl, rfl⟩
  simp only [query, Stand.waiting.injEq, Wait.catalog.injEq] at hp
  exact hp.symm

variable [Quantity α]

theorem poll_plain (w : Watch α) (now : α) : Turn.Plain w (w.poll now) := by
  unfold poll
  split
  · exact (query_plain _).of_same rfl rfl rfl
  · exact ⟨rfl, rfl, rfl, fun previous hp => by simp at hp, rfl, rfl⟩
  · exact ⟨rfl, rfl, rfl, Turn.current_of_over ⟨_, rfl⟩, rfl, rfl⟩

theorem wake_plain (w : Watch α) (now : α) : Turn.Plain w (w.wake now) :=
  (query_plain _).of_same rfl rfl rfl

theorem round_plain (w : Watch α) (now : α) : Turn.Plain w (w.round now) := by
  have hpoll := poll_plain w now
  unfold round
  split
  · exact ⟨rfl, rfl, rfl, Turn.current_of_over ⟨_, rfl⟩, rfl, rfl⟩
  · dsimp only
    split
    · next r hr =>
      exact ⟨hpoll.fleet, hpoll.index, hpoll.stopping, Turn.current_of_over ⟨r, hr⟩, hpoll.orders,
        hpoll.failures⟩
    · exact hpoll

theorem run_plain (w : Watch α) (now : α) : Turn.Plain w (w.run now) := by
  unfold run
  split
  · exact ⟨rfl, rfl, rfl, Turn.current_of_over ⟨_, rfl⟩, rfl, rfl⟩
  · have hround := round_plain { w with running := true } now
    exact ⟨hround.fleet, hround.index, hround.stopping, hround.current, hround.orders,
      hround.failures⟩

/-- The loop that goes on after a poll adds nothing to what the poll did. -/
structure Turn.Onward (turn next : Turn α) : Prop where
  fleet : next.watch.fleet = turn.watch.fleet
  index : next.watch.index = turn.watch.index
  stopping : next.watch.stopping = turn.watch.stopping
  current : next.Current
  orders : next.orders = turn.orders
  failures : next.failures = turn.failures

theorem follow_onward (now : α) {turn : Turn α} (h : turn.Current) :
    Turn.Onward turn (follow now turn) := by
  unfold follow
  split
  · exact ⟨rfl, rfl, rfl, h, rfl, rfl⟩
  · have hround := round_plain turn.watch now
    refine ⟨hround.fleet, hround.index, hround.stopping, hround.current, ?_, ?_⟩
    · simp only [Turn.andThen, hround.orders, List.append_nil]
    · simp only [Turn.andThen, hround.failures, Nat.add_zero]
  · next f hf => exact ⟨rfl, rfl, rfl, Turn.current_of_over ⟨_, hf⟩, rfl, rfl⟩

theorem follow_wake_plain (w : Watch α) (now : α) : Turn.Plain w (follow now (w.wake now)) := by
  have hwake := wake_plain w now
  have h := follow_onward now hwake.current
  exact ⟨h.fleet.trans hwake.fleet, h.index.trans hwake.index, h.stopping.trans hwake.stopping,
    h.current, h.orders.trans hwake.orders, h.failures.trans hwake.failures⟩

omit [Quantity α]

theorem receive_current (w : Watch α) (r : Except QueryFault Snapshot) :
    (w.receive r).Current := by
  refine Turn.current_of_over ?_
  unfold receive
  split
  · exact ⟨_, rfl⟩
  · exact ⟨_, rfl⟩
  · split
    · exact ⟨_, rfl⟩
    · exact ⟨_, rfl⟩

theorem receive_failed (w : Watch α) (f : Failure) :
    w.receive (.error (.failed f)) =
      { watch := { w with index := 0 }, stand := .over (.ok none), notices := [pollFailed]
        failures := 1 } := rfl

theorem receive_ok {w : Watch α} (h : w.stopping = false) (s : Snapshot) :
    w.receive (.ok s) =
      { watch := { w with index := s.index, fleet := (w.fleet.reconcile s).fleet }
        stand := .over (.ok (some s)), orders := (w.fleet.reconcile s).orders
        notices := (w.fleet.reconcile s).notices } := by
  simp only [receive, h, Bool.false_eq_true, if_false]

/-- Nothing else changes the watch, least of all a snapshot that comes while it is stopping. -/
theorem receive_idle {w : Watch α} {r : Except QueryFault Snapshot}
    (hf : ∀ f, r ≠ .error (.failed f)) (hs : ∀ s, r = .ok s → w.stopping = true) :
    (w.receive r).watch = w ∧ (w.receive r).orders = [] ∧ (w.receive r).failures = 0 := by
  cases r with
  | error e =>
    cases e with
    | failed f => exact absurd rfl (hf f)
    | escaped | unencodable | tooDeep => exact ⟨rfl, rfl, rfl⟩
  | ok s =>
    have hover : w.receive (.ok s) = { watch := w, stand := .over (.ok none) } := by
      simp only [receive, hs s rfl, if_true]
    rw [hover]
    exact ⟨rfl, rfl, rfl⟩

theorem receive_failures {w : Watch α} {r : Except QueryFault Snapshot}
    (hf : ∀ f, r ≠ .error (.failed f)) : (w.receive r).failures = 0 := by
  cases r with
  | error e => exact (receive_idle hf nofun).2.2
  | ok s =>
    cases hs : w.stopping with
    | true => exact (receive_idle hf fun _ _ => hs).2.2
    | false => rw [receive_ok hs]

variable [Quantity α]

/-- A poll comes to an end at once only when the bucket fails it. -/
theorem poll_stand (w : Watch α) (now : α) (found : Option Snapshot) :
    (w.poll now).stand ≠ .over (.ok found) := by
  unfold poll
  split
  · simp [query]
  · simp
  · simp

/-- A loop that ends without a fault was told to stop. -/
theorem round_over {w : Watch α} {now : α} {found : Option Snapshot}
    (h : (w.round now).stand = .over (.ok found)) : w.stopping = true := by
  unfold round at h
  split at h
  · assumption
  · dsimp only at h
    split at h
    · exact absurd h (poll_stand w now found)
    · exact absurd h (poll_stand w now found)

end FleetProbe.Watch
