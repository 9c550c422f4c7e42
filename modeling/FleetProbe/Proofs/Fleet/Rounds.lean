import FleetProbe.Fleet.Watch
import FleetProbe.Proofs.Catalog.Polls
/-!
Rounds of the loop of polls. With a bucket that can hold what a poll takes, every poll that ends
with a snapshot or with a failed query is followed by the next one.
-/

namespace FleetProbe

variable {α : Type} [Quantity α]

theorem Amount.combine?_real {onInt : Int → Int → Int} {onReal : α → α → α} {x y : α}
    {b : Amount α} (h : b.real? = some y) :
    combine? onInt onReal (.real x) b = some (.real (onReal x y)) := by
  cases b with
  | whole n => simp only [combine?, real?] at h ⊢; rw [h]
  | real z =>
    cases h
    rfl

namespace Bucket

/-- A bucket that can hold some tokens, and knows its clock and its rate as real numbers. -/
structure Serves (b : Bucket α) (tokens : Amount α) : Prop where
  fits : Amount.lt b.capacity tokens = false
  clock : b.last.real?.isSome = true
  rate : b.quantum.real?.isSome = true
  count : tokens.real?.isSome = true

namespace Serves

variable {b : Bucket α} {tokens : Amount α}

theorem set (h : b.Serves tokens) (available now : α) :
    Serves { b with available, last := .real now } tokens :=
  ⟨h.fits, rfl, h.rate, h.count⟩

theorem refill? (h : b.Serves tokens) (now : α) :
    ∃ level, b.refill? (.real now) = some { b with available := level, last := .real now } := by
  obtain ⟨last, hlast⟩ := Option.isSome_iff_exists.mp h.clock
  obtain ⟨rate, hrate⟩ := Option.isSome_iff_exists.mp h.rate
  obtain ⟨d, hd⟩ : ∃ d, b.elapsed? (.real now) = some (.real d) := by
    simp only [elapsed?, Amount.sub?, Amount.combine?_real hlast, Option.map_some]
    split
    · exact ⟨_, rfl⟩
    · exact ⟨_, rfl⟩
  simp only [Bucket.refill?, hd, Option.bind_some, levelAfter?, Amount.mul?,
    Amount.combine?_real hrate, Amount.real?, Option.map_some]
  exact ⟨_, rfl⟩

theorem request (h : b.Serves tokens) (now later : α) :
    ∃ grant, (b.request (.real now) (.real later) tokens).2 = .ok grant ∧
      (b.request (.real now) (.real later) tokens).1.Serves tokens := by
  obtain ⟨level, hlevel⟩ := h.refill? now
  obtain ⟨count, hcount⟩ := Option.isSome_iff_exists.mp h.count
  obtain ⟨rate, hrate⟩ := Option.isSome_iff_exists.mp h.rate
  have hdelay (available : α) : ∃ seconds,
      delay? { b with available, last := .real now } tokens = some seconds := by
    simp only [delay?, hcount, hrate]
    exact ⟨_, rfl⟩
  simp only [Bucket.request, h.fits, Bool.false_eq_true, if_false, hlevel, hcount]
  split
  · exact ⟨.granted, rfl, h⟩
  · split
    · exact ⟨.granted, rfl, h.set _ later⟩
    · obtain ⟨seconds, hseconds⟩ := hdelay level
      rw [hseconds]
      exact ⟨.sleep seconds, rfl, h.set _ now⟩

end Serves

end Bucket

namespace Watch

open Catalog

/-- A poll waits when the bucket can hold what it takes, and the bucket can hold it afterwards. -/
theorem poll_affords {w : Watch α} (h : w.bucket.Serves (.whole w.cost)) (now : α) :
    ∃ bucket wait, bucket.Serves (.whole w.cost) ∧ (w.poll now).watch = { w with bucket } ∧
      (w.poll now).stand = .waiting wait := by
  obtain ⟨grant, hgrant, hserves⟩ := h.request now now
  unfold Watch.poll
  cases hrequest : w.bucket.request (.real now) (.real now) (.whole w.cost) with
  | mk bucket result =>
    rw [hrequest] at hgrant hserves
    cases hgrant
    cases grant with
    | granted => exact ⟨bucket, _, hserves, rfl, rfl⟩
    | sleep seconds => exact ⟨bucket, _, hserves, rfl, rfl⟩

/-- A loop of polls is under way, and nothing at hand ends it. -/
structure Going (w : Watch α) : Prop where
  running : w.running = true
  wanted : w.stopping = false
  affords : w.bucket.Serves (.whole w.cost)

/-- The loop waits for tokens or for the catalog. -/
def Turn.Waits (turn : Turn α) : Prop := (∃ wait, turn.stand = .waiting wait) ∧ turn.watch.Going

namespace Going

variable {w : Watch α}

theorem of_fleet (h : w.Going) (fleet : Fleet) : Going { w with fleet } :=
  ⟨h.running, h.wanted, h.affords⟩

theorem of_bucket (h : w.Going) {bucket : Bucket α} (hb : bucket.Serves (.whole w.cost)) :
    Going { w with bucket } :=
  ⟨h.running, h.wanted, hb⟩

theorem poll (h : w.Going) (now : α) : (w.poll now).Waits := by
  obtain ⟨bucket, wait, hbucket, hwatch, hwait⟩ := poll_affords h.affords now
  refine ⟨⟨wait, hwait⟩, ?_⟩
  rw [hwatch]
  exact h.of_bucket hbucket

theorem wake (h : w.Going) (now : α) : (follow now (w.wake now)).Waits :=
  ⟨⟨_, rfl⟩, h.of_bucket (h.affords.set _ now)⟩

theorem round (h : w.Going) (now : α) : (w.round now).Waits := by
  obtain ⟨⟨wait, hwait⟩, hgoing⟩ := h.poll now
  unfold Watch.round
  rw [h.wanted]
  simp only [Bool.false_eq_true, if_false]
  rw [hwait]
  exact ⟨⟨wait, hwait⟩, hgoing⟩

theorem run (hrunning : w.running = false) (hwanted : w.stopping = false)
    (haffords : w.bucket.Serves (.whole w.cost)) (now : α) : (w.run now).Waits := by
  have hgoing : Going { w with running := true } := ⟨rfl, hwanted, haffords⟩
  unfold Watch.run
  rw [hrunning]
  exact hgoing.round now

theorem follow_over (now : α) {turn : Turn α} {found : Option Snapshot}
    (hstand : turn.stand = .over (.ok found)) (h : turn.watch.Going) :
    (follow now turn).Waits := by
  unfold follow
  rw [hstand]
  exact h.round now

theorem receive (h : w.Going) (now : α) {r : Except QueryFault Snapshot} (hr : Foreseen r) :
    (follow now (w.receive r)).Waits := by
  obtain ⟨s, rfl⟩ | ⟨f, rfl⟩ := hr
  · have htaken : w.receive (.ok s) =
        { watch := { w with index := s.index, fleet := (w.fleet.reconcile s).fleet }
          stand := .over (.ok (some s))
          orders := (w.fleet.reconcile s).orders
          notices := (w.fleet.reconcile s).notices } := by
      simp only [Watch.receive, h.wanted, Bool.false_eq_true, if_false]
    rw [htaken]
    exact follow_over now rfl ⟨h.running, h.wanted, h.affords⟩
  · exact follow_over now rfl ⟨h.running, h.wanted, h.affords⟩

end Going

/-- A poll that ends in any other way ends the loop. -/
theorem follow_receive_error (w : Watch α) (now : α) {e : QueryFault} (he : ∀ f, e ≠ .failed f) :
    (follow now (w.receive (.error e))).stand = .over (.error (.query e)) := by
  cases e with
  | failed f => exact absurd rfl (he f)
  | escaped f => rfl
  | unencodable => rfl
  | tooDeep => rfl

/-- What a step of the loop does with the bucket: it begins a poll, or it leaves the bucket alone and
the loop does not wait. -/
inductive Draws (w : Watch α) (now : α) (turn : Turn α) : Prop where
  | poll {v : Watch α} : v.bucket = w.bucket → v.cost = w.cost →
    turn.watch.bucket = (v.poll now).watch.bucket → turn.watch.cost = w.cost →
    turn.stand = (v.poll now).stand → Draws w now turn
  | rest {r : Except (Fault α) (Option Snapshot)} : turn.watch.bucket = w.bucket →
    turn.watch.cost = w.cost → turn.stand = .over r → (∀ f, r ≠ .error (.pacing f)) →
    Draws w now turn

theorem poll_cost (w : Watch α) (now : α) : (w.poll now).watch.cost = w.cost := by
  unfold Watch.poll
  split
  · rfl
  · rfl
  · rfl

theorem round_draws {v w : Watch α} (hbucket : v.bucket = w.bucket) (hcost : v.cost = w.cost)
    (now : α) : w.Draws now (v.round now) := by
  have hpolled := (v.poll_cost now).trans hcost
  unfold Watch.round
  split
  · exact .rest hbucket hcost rfl (by simp)
  · dsimp only
    split
    · next hstand => exact .poll hbucket hcost rfl hpolled rfl
    · exact .poll hbucket hcost rfl hpolled rfl

theorem run_draws (w : Watch α) (now : α) : w.Draws now (w.run now) := by
  unfold Watch.run
  split
  · exact .rest rfl rfl rfl (by simp)
  · cases round_draws (v := { w with running := true }) (w := w) rfl rfl now with
    | poll hbucket hcost hpolled hkept hstand => exact .poll hbucket hcost hpolled hkept hstand
    | rest hbucket hcost hstand hpaced => exact .rest hbucket hcost hstand hpaced

theorem follow_receive_draws (w : Watch α) (now : α) (r : Except QueryFault Snapshot) :
    w.Draws now (follow now (w.receive r)) := by
  have hover {turn : Turn α} {found : Option Snapshot} (hstand : turn.stand = .over (.ok found))
      (hbucket : turn.watch.bucket = w.bucket) (hcost : turn.watch.cost = w.cost) :
      w.Draws now (follow now turn) := by
    unfold follow
    rw [hstand]
    cases round_draws hbucket hcost now with
    | poll hbucket hcost hpolled hkept hstand => exact .poll hbucket hcost hpolled hkept hstand
    | rest hbucket hcost hstand hpaced => exact .rest hbucket hcost hstand hpaced
  cases r with
  | error e =>
    cases e with
    | failed f => exact hover rfl rfl rfl
    | escaped f => exact .rest rfl rfl rfl (by simp)
    | unencodable => exact .rest rfl rfl rfl (by simp)
    | tooDeep => exact .rest rfl rfl rfl (by simp)
  | ok s =>
    unfold receive
    dsimp only
    split
    · exact hover rfl rfl rfl
    · exact hover rfl rfl rfl

end Watch

end FleetProbe
