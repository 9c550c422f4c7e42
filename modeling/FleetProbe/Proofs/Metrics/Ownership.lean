import FleetProbe.Proofs.Metrics.Series
/-!
Who holds a node over a log of reports, and what a log leaves behind. A node is cleared when its
holder lets go. What is counted for it at a time when nobody holds it stays until the next holder
lets go, and so for ever when there is none.
-/

namespace FleetProbe.Metrics

variable {α : Type}

/-- Whether a report counts something for a node. -/
def Report.Counts (target : Target) : Report α → Prop
  | .request t _ _ _ => t = target
  | .untimed t _ _ => t = target
  | .failure t => t = target
  | .claim _ _ => False
  | .release _ _ => False

/-- Whether what is counted has a time, so that all of it is put on record. -/
def Report.Timed : Report α → Prop
  | .untimed _ _ _ => False
  | _ => True

/-- Who holds a node after one more report. -/
def hold (target : Target) (holder : Option Nat) : Report α → Option Nat
  | .claim t owner => if t = target then some owner else holder
  | .release t owner => if t = target ∧ holder = some owner then none else holder
  | _ => holder

/-- Who holds a node after a log of reports: the last to claim it, unless that one has let go. -/
def holder? (target : Target) (log : List (Report α)) : Option Nat := log.foldl (hold target) none

/-- Something was counted for a node that nobody held, and nobody has claimed it since. -/
def Late (target : Target) (log : List (Report α)) : Prop :=
  ∃ before r after, log = before ++ r :: after ∧ Report.Counts target r ∧
    holder? target before = none ∧ ∀ owner, .claim target owner ∉ after

theorem holder?_concat (target : Target) (log : List (Report α)) (r : Report α) :
    holder? target (log ++ [r]) = hold target (holder? target log) r := by
  rw [holder?, holder?, List.foldl_append, List.foldl_cons, List.foldl_nil]

theorem hold_of_counts {target t : Target} {r : Report α} (h : r.Counts t) (holder : Option Nat) :
    hold target holder r = holder := by
  cases r with
  | request | untimed | failure => rfl
  | claim => cases h
  | release => cases h

theorem not_late_nil (target : Target) : ¬ Late target ([] : List (Report α)) := by
  rintro ⟨before, r, after, hlog, -⟩
  simp at hlog

/-- The last report is itself late, or leaves a late one late. -/
theorem late_concat (target : Target) (log : List (Report α)) (r : Report α) :
    Late target (log ++ [r]) ↔ (Late target log ∧ ∀ owner, r ≠ .claim target owner) ∨
      (r.Counts target ∧ holder? target log = none) := by
  constructor
  · rintro ⟨before, x, after, hlog, hx, hnone, hclaims⟩
    -- The late report is the last one when nothing follows it.
    cases List.eq_nil_or_concat after with
    | inl hnil =>
      subst hnil
      obtain ⟨rfl, hr⟩ := List.append_inj' hlog rfl
      cases hr
      exact .inr ⟨hx, hnone⟩
    | inr hlast =>
      obtain ⟨after', y, rfl⟩ := hlast
      rw [List.concat_eq_append, ← List.cons_append, ← List.append_assoc] at hlog
      obtain ⟨rfl, hr⟩ := List.append_inj' hlog rfl
      cases hr
      rw [List.concat_eq_append] at hclaims
      refine .inl ⟨⟨before, x, after', rfl, hx, hnone, fun owner hm => ?_⟩, fun owner he => ?_⟩
      · exact hclaims owner (List.mem_append_left _ hm)
      · exact hclaims owner (List.mem_append_right _ (he ▸ List.mem_singleton_self _))
  · rintro (⟨⟨before, x, after, rfl, hx, hnone, hclaims⟩, hr⟩ | ⟨hr, hnone⟩)
    · refine ⟨before, x, after ++ [r], by simp, hx, hnone, fun owner hm => ?_⟩
      obtain hm | hm := List.mem_append.mp hm
      · exact hclaims owner hm
      · exact hr owner (List.mem_singleton.mp hm).symm
    · exact ⟨log, r, [], rfl, hr, hnone, fun owner hm => by cases hm⟩

/-- What the metrics are after a log, as far as one node goes. -/
structure Reflects (target : Target) (log : List (Report α)) (m : Metrics α) : Prop where
  owner : m.owner? target = holder? target log
  recorded : Recorded m
  /-- A late report is one that nobody has taken over. -/
  late : Late target log → holder? target log = none
  tracked : holder? target log = none → (target ∈ m.tracked ↔ Late target log)

namespace Reflects

variable {target : Target} {log : List (Report α)} {m n : Metrics α} {r : Report α}

/-- A report that makes or leaves the node held says nothing of what is late. -/
theorem of_held {owner : Nat} (ho : n.owner? target = holder? target (log ++ [r]))
    (hr : Recorded n) (hheld : holder? target (log ++ [r]) = some owner)
    (hlate : ¬ Late target (log ++ [r])) : Reflects target (log ++ [r]) n := by
  refine ⟨ho, hr, fun h => absurd h hlate, fun h => ?_⟩
  rw [hheld] at h
  cases h

/-- A report that concerns neither the holder nor the record of the node. -/
theorem of_same (h : Reflects target log m) (hr : Recorded n)
    (ho : n.owner? target = m.owner? target)
    (hh : hold target (holder? target log) r = holder? target log)
    (ht : target ∈ n.tracked ↔ target ∈ m.tracked) (hc : ¬ r.Counts target)
    (hclaim : ∀ owner, r ≠ .claim target owner) : Reflects target (log ++ [r]) n := by
  have hlate : Late target (log ++ [r]) ↔ Late target log := by
    rw [late_concat]
    constructor
    · rintro (hl | hl)
      · exact hl.1
      · exact absurd hl.1 hc
    · exact fun hl => .inl ⟨hl, hclaim⟩
  have hholder : holder? target (log ++ [r]) = holder? target log := by rw [holder?_concat, hh]
  refine ⟨?_, hr, ?_, ?_⟩
  · rw [ho, hholder, h.owner]
  · rw [hlate, hholder]
    exact h.late
  · rw [hlate, hholder, ht]
    exact h.tracked

/-- A report that counts for the node: late exactly when nobody holds it. -/
theorem of_counts (h : Reflects target log m) (hr : Recorded n)
    (ho : n.owner? target = m.owner? target) (ht : target ∈ n.tracked)
    (hc : r.Counts target) : Reflects target (log ++ [r]) n := by
  have hholder : holder? target (log ++ [r]) = holder? target log := by
    rw [holder?_concat, hold_of_counts hc]
  refine ⟨?_, hr, ?_, ?_⟩
  · rw [ho, hholder, h.owner]
  · rw [hholder, late_concat]
    rintro (hl | hl)
    · exact h.late hl.1
    · exact hl.2
  · rw [hholder, late_concat]
    exact fun hnone => ⟨fun _ => .inr ⟨hc, hnone⟩, fun _ => ht⟩

/-- **What is left of a node.** When nobody holds a node, its series are gone unless something was
counted for it too late. -/
theorem clear_iff (h : Reflects target log m) (hnone : holder? target log = none) :
    Clear target m ↔ ¬ Late target log := by
  rw [h.recorded.clear_iff, h.tracked hnone]

end Reflects

theorem start_reflects (target : Target) (bounds : List α) :
    Reflects target [] ({ bounds } : Metrics α) := by
  have hrecorded : Recorded ({ bounds } : Metrics α) := by constructor <;> simp [Family.labels]
  refine ⟨rfl, hrecorded, fun hl => absurd hl (not_late_nil target), fun _ => ?_⟩
  exact ⟨fun hm => absurd hm List.not_mem_nil, fun hl => absurd hl (not_late_nil target)⟩

variable [Quantity α]

theorem apply_reflects {target : Target} {log : List (Report α)} {m : Metrics α}
    (h : Reflects target log m) (r : Report α) (hr : r.Timed) :
    Reflects target (log ++ [r]) (m.apply r) := by
  cases r with
  | request t command status x =>
    have ht := tracked_observe m t target command status x
    have hrec := observe_recorded h.recorded t command status x
    by_cases he : t = target
    · exact h.of_counts hrec rfl (ht.mpr (.inr he.symm)) he
    · refine h.of_same hrec rfl rfl ?_ he (by simp)
      exact ⟨fun hm => (ht.mp hm).resolve_right fun hm => he hm.symm, fun hm => ht.mpr (.inl hm)⟩
  | untimed => cases hr
  | failure t =>
    have ht := tracked_recordFailure m t target
    have hrec := recordFailure_recorded h.recorded t
    by_cases he : t = target
    · exact h.of_counts hrec rfl (ht.mpr (.inr he.symm)) he
    · refine h.of_same hrec rfl rfl ?_ he (by simp)
      exact ⟨fun hm => (ht.mp hm).resolve_right fun hm => he hm.symm, fun hm => ht.mpr (.inl hm)⟩
  | claim t owner =>
    have ho := owner?_claim m t target owner
    have hrec := claim_recorded h.recorded t owner
    by_cases he : t = target
    · subst he
      rw [if_pos rfl] at ho
      have hheld : holder? t (log ++ [.claim t owner]) = some owner := by
        rw [holder?_concat, hold, if_pos rfl]
      refine .of_held (by rw [hheld]; exact ho) hrec hheld fun hl => ?_
      obtain hl | hl := (late_concat t log _).mp hl
      · exact hl.2 owner rfl
      · exact hl.1
    · rw [if_neg he] at ho
      exact h.of_same hrec ho (by rw [hold, if_neg he]) Iff.rfl id fun o hc => he (by cases hc; rfl)
  | release t owner =>
    by_cases hown : m.owner? t = some owner
    · have hrec : Recorded { m with owners := m.owners.filter fun e => !decide (e.1 = t) } :=
        ⟨h.recorded.requests, h.recorded.latencies, h.recorded.failures⟩
      have ho := owner?_dropped m t target
      have ht := tracked_remove { m with owners := m.owners.filter fun e => !decide (e.1 = t) }
        t target
      rw [release_of_owner hown]
      by_cases he : t = target
      · subst he
        have hheld : holder? t log = some owner := by rw [← h.owner, hown]
        have hnone : holder? t (log ++ [.release t owner]) = none := by
          rw [holder?_concat, hheld, hold, if_pos ⟨rfl, rfl⟩]
        have hlate : ¬ Late t (log ++ [.release t owner]) := by
          rw [late_concat]
          rintro (hl | hl)
          · have hnot := h.late hl.1
            rw [hheld] at hnot
            cases hnot
          · exact hl.1
        rw [if_pos rfl] at ho
        refine ⟨by rw [hnone]; exact ho, remove_recorded hrec t, fun hl => absurd hl hlate, ?_⟩
        exact fun _ => ⟨fun hm => absurd rfl (ht.mp hm).2, fun hl => absurd hl hlate⟩
      · rw [if_neg he] at ho
        refine h.of_same (remove_recorded hrec t) ho ?_ ?_ id (by simp)
        · rw [hold, if_neg fun hc => he hc.1]
        · exact ⟨fun hm => (ht.mp hm).1, fun hm => ht.mpr ⟨hm, fun hc => he hc.symm⟩⟩
    · rw [release_of_not_owner hown]
      refine h.of_same h.recorded rfl ?_ Iff.rfl id (by simp)
      rw [hold, if_neg]
      rintro ⟨rfl, hheld⟩
      exact hown (h.owner.trans hheld)

theorem foldl_reflects {target : Target} {log : List (Report α)} {m : Metrics α}
    (h : Reflects target log m) (more : List (Report α)) (hm : ∀ r ∈ more, r.Timed) :
    Reflects target (log ++ more) (more.foldl apply m) := by
  induction more generalizing log m with
  | nil =>
    rw [List.append_nil]
    exact h
  | cons r more ih =>
    have hstep := apply_reflects h r (hm r List.mem_cons_self)
    rw [List.append_cons]
    exact ih hstep fun x hx => hm x (List.mem_cons_of_mem _ hx)

end FleetProbe.Metrics
