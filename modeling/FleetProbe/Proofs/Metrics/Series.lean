import FleetProbe.Metrics.Basic
/-!
The series of one node: what every operation on the metrics adds to them and takes from them. What
is counted with a time is put on record with its labels, so removing a node leaves none of its
series behind, and what is done to one node does not touch another.
-/

namespace FleetProbe.Metrics

namespace Family

variable {L V : Type} [DecidableEq L]

/-- Labels of the series that are there. -/
def labels (f : Family L V) : List L := f.map Prod.fst

@[simp]
theorem mem_labels_update (f : Family L V) (l x : L) (fresh : V) (change : V → V) :
    x ∈ (f.update l fresh change).labels ↔ x ∈ f.labels ∨ x = l := by
  induction f with
  | nil => simp [update, labels]
  | cons e f ih =>
    obtain ⟨k, v⟩ := e
    simp only [labels] at ih
    by_cases hk : k = l
    · subst hk
      simp [update, labels, or_comm]
    · simp [update, labels, hk, ih, or_assoc]

@[simp]
theorem mem_labels_erase (f : Family L V) (l x : L) :
    x ∈ (f.erase l).labels ↔ x ∈ f.labels ∧ x ≠ l := by
  simp only [labels, erase, List.mem_map, List.mem_filter, Bool.not_eq_true',
    decide_eq_false_iff_not]
  constructor
  · rintro ⟨e, ⟨he, hne⟩, rfl⟩
    exact ⟨⟨e, he, rfl⟩, hne⟩
  · rintro ⟨⟨e, he, rfl⟩, hne⟩
    exact ⟨e, ⟨he, hne⟩, rfl⟩

@[simp]
theorem mem_labels_foldl_erase (gone : List L) (f : Family L V) (x : L) :
    x ∈ (gone.foldl erase f).labels ↔ x ∈ f.labels ∧ x ∉ gone := by
  induction gone generalizing f with
  | nil => simp
  | cons l gone ih => simp [ih, and_assoc]

end Family

@[simp]
theorem mem_note {L : Type} [DecidableEq L] (known : List L) (l x : L) :
    x ∈ note known l ↔ x ∈ known ∨ x = l := by
  unfold note
  split
  · next h =>
    constructor
    · exact .inl
    · rintro (hx | rfl)
      · exact hx
      · exact h
  · simp

theorem mem_foldl_note {L : Type} [DecidableEq L] (ls known : List L) (x : L) :
    x ∈ ls.foldl note known ↔ x ∈ known ∨ x ∈ ls := by
  induction ls generalizing known with
  | nil => simp
  | cons l ls ih => simp [ih, or_assoc]

variable {α : Type}

theorem mem_tracked (m : Metrics α) (target : Target) :
    target ∈ m.tracked ↔ (∃ l ∈ m.knownRequests, l.target = target) ∨
      (∃ l ∈ m.knownLatencies, l.target = target) ∨ target ∈ m.knownFailures := by
  simp [tracked, mem_foldl_note, or_assoc]

/-- No series of a node is there, and none is on record. -/
structure Clear (target : Target) (m : Metrics α) : Prop where
  requests : ∀ l ∈ m.requests.labels, l.target ≠ target
  latencies : ∀ l ∈ m.latencies.labels, l.target ≠ target
  failures : target ∉ m.failures.labels
  tracked : target ∉ m.tracked

/-- Every series that is there is on record. -/
structure Recorded (m : Metrics α) : Prop where
  requests : ∀ l ∈ m.requests.labels, l ∈ m.knownRequests
  latencies : ∀ l ∈ m.latencies.labels, l ∈ m.knownLatencies
  failures : ∀ t ∈ m.failures.labels, t ∈ m.knownFailures

/-- Where everything is on record, a node without series on record has none. -/
theorem Recorded.clear_iff {m : Metrics α} (h : Recorded m) (target : Target) :
    Clear target m ↔ target ∉ m.tracked := by
  refine ⟨fun hc => hc.tracked, fun hc => ?_⟩
  have ht := hc
  rw [mem_tracked] at ht
  simp only [not_or, not_exists, not_and] at ht
  obtain ⟨hr, hl, hf⟩ := ht
  exact ⟨fun l hm => hr l (h.requests l hm), fun l hm => hl l (h.latencies l hm),
    fun hm => hf (h.failures target hm), hc⟩

theorem tracked_recordFailure (m : Metrics α) (t target : Target) :
    target ∈ (m.recordFailure t).tracked ↔ target ∈ m.tracked ∨ target = t := by
  simp only [mem_tracked, recordFailure, mem_note, or_assoc]

theorem recordFailure_recorded {m : Metrics α} (h : Recorded m) (t : Target) :
    Recorded (m.recordFailure t) := by
  refine ⟨h.requests, h.latencies, fun l hl => ?_⟩
  simp only [recordFailure, Family.mem_labels_update, mem_note] at hl ⊢
  exact hl.imp_left (h.failures l)

theorem claim_recorded {m : Metrics α} (h : Recorded m) (t : Target) (owner : Nat) :
    Recorded (m.claim t owner) := ⟨h.requests, h.latencies, h.failures⟩

/-- Removing a node takes it off the record, and no other. -/
theorem tracked_remove (m : Metrics α) (t target : Target) :
    target ∈ (m.remove t).tracked ↔ target ∈ m.tracked ∧ target ≠ t := by
  simp only [mem_tracked, remove, List.mem_filter, Bool.not_eq_true', decide_eq_false_iff_not]
  constructor
  · rintro (⟨l, ⟨hl, hne⟩, rfl⟩ | ⟨l, ⟨hl, hne⟩, rfl⟩ | ⟨hf, hne⟩)
    · exact ⟨.inl ⟨l, hl, rfl⟩, hne⟩
    · exact ⟨.inr (.inl ⟨l, hl, rfl⟩), hne⟩
    · exact ⟨.inr (.inr hf), hne⟩
  · rintro ⟨⟨l, hl, rfl⟩ | ⟨l, hl, rfl⟩ | hf, hne⟩
    · exact .inl ⟨l, ⟨hl, hne⟩, rfl⟩
    · exact .inr (.inl ⟨l, ⟨hl, hne⟩, rfl⟩)
    · exact .inr (.inr ⟨hf, hne⟩)

/-- What is on record and is removed is no longer there, so nothing is left off the record. -/
theorem remove_recorded {m : Metrics α} (h : Recorded m) (t : Target) : Recorded (m.remove t) := by
  refine ⟨fun l hl => ?_, fun l hl => ?_, fun l hl => ?_⟩
  · simp only [remove, Family.mem_labels_foldl_erase, List.mem_filter, not_and,
      decide_eq_true_eq, Bool.not_eq_true', decide_eq_false_iff_not] at hl ⊢
    have hk := h.requests l hl.1
    exact ⟨hk, hl.2 hk⟩
  · simp only [remove, Family.mem_labels_foldl_erase, List.mem_filter, not_and,
      decide_eq_true_eq, Bool.not_eq_true', decide_eq_false_iff_not] at hl ⊢
    have hk := h.latencies l hl.1
    exact ⟨hk, hl.2 hk⟩
  · simp only [remove, List.mem_filter, Bool.not_eq_true', decide_eq_false_iff_not] at hl ⊢
    split at hl
    · rw [Family.mem_labels_erase] at hl
      exact ⟨h.failures l hl.1, hl.2⟩
    · next ht =>
      have hk := h.failures l hl
      exact ⟨hk, fun he => ht (he ▸ hk)⟩

theorem owner?_claim (m : Metrics α) (t target : Target) (owner : Nat) :
    (m.claim t owner).owner? target = if t = target then some owner else m.owner? target := by
  by_cases h : t = target
  · simp [claim, owner?, h]
  · have hne (e : Target × Nat) : (!decide (e.1 = t) && decide (e.1 = target)) =
        decide (e.1 = target) := by
      by_cases he : e.1 = target
      · simp [he, Ne.symm h]
      · simp [he]
    simp [claim, owner?, h, List.find?_filter, hne]

theorem owner?_dropped (m : Metrics α) (t target : Target) :
    owner? { m with owners := m.owners.filter fun e => !decide (e.1 = t) } target =
      if t = target then none else m.owner? target := by
  by_cases h : t = target
  · simp [owner?, h]
  · have hne (e : Target × Nat) : (!decide (e.1 = t) && decide (e.1 = target)) =
        decide (e.1 = target) := by
      by_cases he : e.1 = target
      · simp [he, Ne.symm h]
      · simp [he]
    simp [owner?, h, List.find?_filter, hne]

variable [Quantity α]

theorem tracked_observe (m : Metrics α) (t target : Target) (command status : Text) (x : α) :
    target ∈ (m.observe t command status x).tracked ↔ target ∈ m.tracked ∨ target = t := by
  simp only [mem_tracked, observe, mem_note]
  constructor
  · rintro (⟨l, hl | rfl, rfl⟩ | ⟨l, hl | rfl, rfl⟩ | hf)
    · exact .inl (.inl ⟨l, hl, rfl⟩)
    · exact .inr rfl
    · exact .inl (.inr (.inl ⟨l, hl, rfl⟩))
    · exact .inr rfl
    · exact .inl (.inr (.inr hf))
  · rintro ((⟨l, hl, rfl⟩ | ⟨l, hl, rfl⟩ | hf) | rfl)
    · exact .inl ⟨l, .inl hl, rfl⟩
    · exact .inr (.inl ⟨l, .inl hl, rfl⟩)
    · exact .inr (.inr hf)
    · exact .inl ⟨_, .inr rfl, rfl⟩

theorem observe_recorded {m : Metrics α} (h : Recorded m) (t : Target) (command status : Text)
    (x : α) : Recorded (m.observe t command status x) := by
  refine ⟨fun l hl => ?_, fun l hl => ?_, h.failures⟩
  · simp only [observe, Family.mem_labels_update, mem_note] at hl ⊢
    exact hl.imp_left (h.requests l)
  · simp only [observe, Family.mem_labels_update, mem_note] at hl ⊢
    exact hl.imp_left (h.latencies l)

theorem release_of_owner {m : Metrics α} {t : Target} {owner : Nat}
    (h : m.owner? t = some owner) :
    m.apply (.release t owner) =
      { m with owners := m.owners.filter fun e => !decide (e.1 = t) }.remove t := by
  simp only [apply, release, if_pos h]

theorem release_of_not_owner {m : Metrics α} {t : Target} {owner : Nat}
    (h : m.owner? t ≠ some owner) : m.apply (.release t owner) = m := by
  simp only [apply, release, if_neg h]

end FleetProbe.Metrics
