import Mathlib.Data.List.Forall2
import FleetProbe.Proofs.Metrics.Ownership
import FleetProbe.Proofs.Metrics.Record
/-!
How the series of a node grow. Whatever is counted adds to them, for whichever probe; a claim leaves
them alone; and only the release by the probe that holds the node takes any of them away.
-/

namespace FleetProbe.Metrics

namespace Family

variable {L V : Type} [DecidableEq L] {R : V → V → Prop} {mine : L → Prop} {f g h : Family L V}

theorem find?_update (f : Family L V) (l x : L) (fresh : V) (change : V → V) :
    (f.update l fresh change).find? x =
      if l = x then some (change ((f.find? x).getD fresh)) else f.find? x := by
  induction f with
  | nil =>
    by_cases hl : l = x
    · simp [update, find?, hl]
    · simp [update, find?, hl]
  | cons e f ih =>
    obtain ⟨k, v⟩ := e
    simp only [find?] at ih
    by_cases hk : k = l
    · by_cases hl : l = x
      · simp [update, find?, hk, hl]
      · simp [update, find?, hk, hl]
    · by_cases hx : k = x
      · subst hx
        simp [update, find?, hk, Ne.symm hk]
      · simp [update, find?, hk, hx, ih]

theorem find?_foldl_erase {gone : List L} {x : L} (hx : x ∉ gone) :
    (gone.foldl erase f).find? x = f.find? x := by
  have hkeeps (e : L × V) :
      ((!decide (e.1 ∈ gone)) = true ∧ decide (e.1 = x) = true) ↔ e.1 = x := by
    by_cases he : e.1 = x
    · simp [he, hx]
    · simp [he]
  simp only [foldl_erase, find?, List.find?_filter, hkeeps]

/-- What is there of some series is there later, and what it has become is related to it. -/
def Grows (R : V → V → Prop) (mine : L → Prop) (f g : Family L V) : Prop :=
  ∀ l v, mine l → f.find? l = some v → ∃ w, g.find? l = some w ∧ R v w

theorem Grows.refl (hR : ∀ v, R v v) : Grows R mine f f := fun _ v _ hv => ⟨v, hv, hR v⟩

theorem Grows.trans (hR : ∀ {u v w}, R u v → R v w → R u w) (hfg : Grows R mine f g)
    (hgh : Grows R mine g h) : Grows R mine f h := by
  intro l u hl hu
  obtain ⟨v, hv, huv⟩ := hfg l u hl hu
  obtain ⟨w, hw, hvw⟩ := hgh l v hl hv
  exact ⟨w, hw, hR huv hvw⟩

theorem grows_update (l : L) (fresh : V) (change : V → V) (hR : ∀ v, R v v)
    (hchange : ∀ v, R v (change v)) : Grows R mine f (f.update l fresh change) := by
  intro x v _ hv
  rw [find?_update]
  split
  · rw [hv]
    exact ⟨_, rfl, hchange v⟩
  · exact ⟨v, hv, hR v⟩

theorem grows_foldl_erase {gone : List L} (hR : ∀ v, R v v) (hgone : ∀ l, mine l → l ∉ gone) :
    Grows R mine f (gone.foldl erase f) := by
  intro l v hl hv
  rw [find?_foldl_erase (hgone l hl)]
  exact ⟨v, hv, hR v⟩

end Family

variable {α : Type}

/-- A log in which nobody claims a node and its holder does not let go. -/
structure Undisturbed (target : Target) (owner : Nat) (log : List (Report α)) : Prop where
  unreleased : .release target owner ∉ log
  unclaimed : ∀ o, .claim target o ∉ log

theorem Undisturbed.of_subset {target : Target} {owner : Nat} {log part : List (Report α)}
    (h : Undisturbed target owner log) (hp : part ⊆ log) : Undisturbed target owner part :=
  ⟨fun hm => h.unreleased (hp hm), fun o hm => h.unclaimed o (hp hm)⟩

theorem hold_undisturbed {target : Target} {owner : Nat} {r : Report α} (hrelease : r ≠ .release target owner)
    (hclaim : ∀ o, r ≠ .claim target o) : hold target (some owner) r = some owner := by
  cases r with
  | request | untimed | failure => rfl
  | claim t o =>
    rw [hold, if_neg]
    rintro rfl
    exact hclaim o rfl
  | release t o =>
    rw [hold, if_neg]
    rintro ⟨rfl, ho⟩
    cases ho
    exact hrelease rfl

variable [Quantity α]

namespace Histogram

/-- A histogram has taken in more amounts, so no count of it has become less. -/
structure Grows (bounds : List α) (h k : Histogram α) : Prop where
  observed : ∃ xs : List α, k = xs.foldl (fun h x => h.observe bounds x) h
  buckets : List.Forall₂ (· ≤ ·) (cumulative 0 h.counts) (cumulative 0 k.counts)
  count : h.count ≤ k.count

variable {bounds : List α}

theorem tally_le (bounds : List α) (x : α) (counts : List Nat) :
    List.Forall₂ (· ≤ ·) counts (tally bounds x counts) := by
  induction counts generalizing bounds with
  | nil => cases bounds <;> exact .nil
  | cons n counts ih =>
    have hrest : List.Forall₂ (· ≤ ·) counts counts := List.forall₂_refl counts
    cases bounds with
    | nil =>
      rw [tally]
      split
      · exact .cons n.le_succ hrest
      · exact .cons n.le_refl hrest
    | cons b bounds =>
      rw [tally]
      split
      · exact .cons n.le_succ hrest
      · exact .cons n.le_refl (ih bounds)

theorem cumulative_le {ns ms : List Nat} (h : List.Forall₂ (· ≤ ·) ns ms) {a b : Nat}
    (hab : a ≤ b) : List.Forall₂ (· ≤ ·) (cumulative a ns) (cumulative b ms) := by
  induction h generalizing a b with
  | nil => exact .nil
  | cons hnm _ ih =>
    have hsum := Nat.add_le_add hab hnm
    exact .cons hsum (ih hsum)

theorem total_le {ns ms : List Nat} (h : List.Forall₂ (· ≤ ·) ns ms) :
    ns.foldr (· + ·) 0 ≤ ms.foldr (· + ·) 0 := by
  induction h with
  | nil => exact Nat.le_refl 0
  | cons hnm _ ih => exact Nat.add_le_add hnm ih

theorem forall₂_le_trans {ks ns ms : List Nat} (h : List.Forall₂ (· ≤ ·) ks ns)
    (h' : List.Forall₂ (· ≤ ·) ns ms) : List.Forall₂ (· ≤ ·) ks ms := by
  induction h generalizing ms with
  | nil => exact h'
  | cons hkn _ ih =>
    cases h' with
    | cons hnm hrest => exact .cons (Nat.le_trans hkn hnm) (ih hrest)

theorem observe_grows (bounds : List α) (x : α) (h : Histogram α) :
    Grows bounds h (h.observe bounds x) := by
  have hcounts := tally_le bounds x h.counts
  exact ⟨⟨[x], rfl⟩, cumulative_le hcounts (Nat.le_refl 0), total_le hcounts⟩

theorem Grows.refl (h : Histogram α) : Grows bounds h h :=
  ⟨⟨[], rfl⟩, List.forall₂_refl _, Nat.le_refl _⟩

theorem Grows.trans {h k l : Histogram α} (hk : Grows bounds h k) (hl : Grows bounds k l) :
    Grows bounds h l := by
  obtain ⟨xs, rfl⟩ := hk.observed
  obtain ⟨ys, rfl⟩ := hl.observed
  exact ⟨⟨xs ++ ys, by rw [List.foldl_append]⟩, forall₂_le_trans hk.buckets hl.buckets,
    Nat.le_trans hk.count hl.count⟩

end Histogram

/-- No series of a node is gone, and none of its counts has become less. -/
structure Grows (target : Target) (m n : Metrics α) : Prop where
  bounds : n.bounds = m.bounds
  requests : m.requests.Grows (· ≤ ·) (·.target = target) n.requests
  latencies : m.latencies.Grows (Histogram.Grows m.bounds) (·.target = target) n.latencies
  failures : m.failures.Grows (· ≤ ·) (· = target) n.failures

variable {target : Target} {m n : Metrics α}

theorem Grows.of_same (hb : n.bounds = m.bounds) (hr : n.requests = m.requests)
    (hl : n.latencies = m.latencies) (hf : n.failures = m.failures) : Grows target m n := by
  refine ⟨hb, ?_, ?_, ?_⟩
  · rw [hr]
    exact .refl Nat.le_refl
  · rw [hl]
    exact .refl .refl
  · rw [hf]
    exact .refl Nat.le_refl

theorem Grows.refl (m : Metrics α) : Grows target m m := .of_same rfl rfl rfl rfl

theorem Grows.trans {o : Metrics α} (hmn : Grows target m n) (hno : Grows target n o) :
    Grows target m o := by
  have hlatencies := hno.latencies
  rw [hmn.bounds] at hlatencies
  exact ⟨hno.bounds.trans hmn.bounds, hmn.requests.trans Nat.le_trans hno.requests,
    hmn.latencies.trans Histogram.Grows.trans hlatencies,
    hmn.failures.trans Nat.le_trans hno.failures⟩

theorem observe_grows (m : Metrics α) (t : Target) (command status : Text) (x : α) :
    Grows target m (m.observe t command status x) :=
  ⟨rfl, Family.grows_update _ _ _ Nat.le_refl Nat.le_succ,
    Family.grows_update _ _ _ .refl (Histogram.observe_grows m.bounds x), .refl Nat.le_refl⟩

theorem countUntimed_grows (m : Metrics α) (t : Target) (command status : Text) :
    Grows target m (m.countUntimed t command status) :=
  ⟨rfl, Family.grows_update _ _ _ Nat.le_refl Nat.le_succ,
    Family.grows_update _ _ _ .refl .refl, .refl Nat.le_refl⟩

theorem recordFailure_grows (m : Metrics α) (t : Target) :
    Grows target m (m.recordFailure t) :=
  ⟨rfl, .refl Nat.le_refl, .refl .refl, Family.grows_update _ _ _ Nat.le_refl Nat.le_succ⟩

/-- Removing a node takes no series of another. -/
theorem remove_grows (m : Metrics α) {t : Target} (ht : t ≠ target) :
    Grows target m (m.remove t) := by
  refine ⟨rfl, Family.grows_foldl_erase Nat.le_refl ?_, Family.grows_foldl_erase .refl ?_, ?_⟩
  · rintro l rfl hgone
    exact ht (of_decide_eq_true (List.mem_filter.mp hgone).2).symm
  · rintro l rfl hgone
    exact ht (of_decide_eq_true (List.mem_filter.mp hgone).2).symm
  · simp only [remove]
    split
    · have hgone : ∀ l, l = target → l ∉ [t] := by
        rintro l rfl hl
        exact ht (List.mem_singleton.mp hl).symm
      exact Family.grows_foldl_erase Nat.le_refl hgone
    · exact .refl Nat.le_refl

/-- Who holds a node is read off the reports. -/
theorem owner?_apply (m : Metrics α) (target : Target) (r : Report α) :
    (m.apply r).owner? target = hold target (m.owner? target) r := by
  cases r with
  | request | untimed | failure => rfl
  | claim t owner => exact owner?_claim m t target owner
  | release t owner =>
    by_cases hown : m.owner? t = some owner
    · have hdropped := owner?_dropped m t target
      rw [release_of_owner hown, hold]
      by_cases ht : t = target
      · rw [if_pos ht] at hdropped
        subst ht
        rw [if_pos ⟨rfl, hown⟩]
        exact hdropped
      · rw [if_neg ht] at hdropped
        rw [if_neg fun hc => ht hc.1]
        exact hdropped
    · rw [release_of_not_owner hown, hold, if_neg]
      rintro ⟨rfl, hheld⟩
      exact hown hheld

/-- While a probe holds a node, only its own release can take series of the node away. -/
theorem apply_grows {owner : Nat} (h : m.owner? target = some owner) {r : Report α}
    (hr : r ≠ .release target owner) : Grows target m (m.apply r) := by
  cases r with
  | request t command status x => exact observe_grows m t command status x
  | untimed t command status => exact countUntimed_grows m t command status
  | failure t => exact recordFailure_grows m t
  | claim t o => exact .of_same rfl rfl rfl rfl
  | release t o =>
    by_cases hown : m.owner? t = some o
    · have ht : t ≠ target := by
        rintro rfl
        cases h.symm.trans hown
        exact hr rfl
      rw [release_of_owner hown]
      exact (Grows.of_same rfl rfl rfl rfl : Grows target m { m with
        owners := m.owners.filter fun e => !decide (e.1 = t) }).trans (remove_grows _ ht)
    · rw [release_of_not_owner hown]
      exact .refl m

/-- **The series of a node that is held only grow**, whoever else lets go of it meanwhile. -/
theorem foldl_grows {owner : Nat} (h : m.owner? target = some owner) {log : List (Report α)}
    (hlog : Undisturbed target owner log) :
    Grows target m (log.foldl apply m) ∧ (log.foldl apply m).owner? target = some owner := by
  induction log generalizing m with
  | nil => exact ⟨.refl m, h⟩
  | cons r log ih =>
    have hrelease : r ≠ .release target owner := fun hr => hlog.unreleased (hr ▸ .head log)
    have hclaim (o : Nat) : r ≠ .claim target o := fun hr => hlog.unclaimed o (hr ▸ .head log)
    have howner : (m.apply r).owner? target = some owner := by
      rw [owner?_apply, h, hold_undisturbed hrelease hclaim]
    obtain ⟨hgrows, hheld⟩ := ih howner (hlog.of_subset (List.subset_cons_self r log))
    exact ⟨(apply_grows h hrelease).trans hgrows, hheld⟩

/-- When the holder lets go, nothing of the node is left. -/
theorem apply_release_clear {owner : Nat} (hm : Recorded m) (h : m.owner? target = some owner) :
    Clear target (m.apply (.release target owner)) := by
  have hrecorded : Recorded { m with owners := m.owners.filter fun e => !decide (e.1 = target) } :=
    ⟨hm.requests, hm.latencies, hm.failures⟩
  rw [release_of_owner h, (remove_recorded hrecorded target).clear_iff, tracked_remove]
  exact fun hgone => hgone.2 rfl

end FleetProbe.Metrics
