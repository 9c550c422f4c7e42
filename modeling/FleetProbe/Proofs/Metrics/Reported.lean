import FleetProbe.Proofs.Metrics.Counts
/-!
What the reports of a node come to. Metrics that had no series of the node count these reports and
nothing else for it, whatever is reported of other nodes in between.
-/

namespace FleetProbe.Metrics

variable {α : Type}

namespace Report

/-- The node that a report is about. -/
def target : Report α → Target
  | .request t _ _ _ | .untimed t _ _ | .failure t | .claim t _ | .release t _ => t

/-- What is reported stays: it is neither a request whose time is of no use nor a release. -/
def Lasting : Report α → Prop
  | .untimed _ _ _ | .release _ _ => False
  | _ => True

def isFailure : Report α → Bool
  | .failure _ => true
  | _ => false

/-- A report as something done to the metrics. A request whose time is of no use is not put on
record, so it is none. -/
def act? : Report α → Option (Act α)
  | .request t command status x => some (.observe t command status x)
  | .untimed _ _ _ => none
  | .failure t => some (.recordFailure t)
  | .claim t owner => some (.claim t owner)
  | .release t owner => some (.release t owner)

end Report

variable {target : Target} {log : List (Report α)}

/-- What is done by the reports of other nodes may be left out where it gives nothing. -/
theorem filterMap_own {β : Type} (f : Act α → Option β)
    (hf : ∀ r : Report α, r.target ≠ target → r.act?.bind f = none) :
    ((log.filter fun r => r.target = target).filterMap Report.act?).filterMap f =
      (log.filterMap Report.act?).filterMap f := by
  rw [List.filterMap_filterMap, List.filterMap_filterMap, List.filterMap_filter]
  refine List.filterMap_congr fun r _ => ?_
  by_cases hr : r.target = target
  · simp only [hr, decide_true, if_true]
  · simp only [hr, decide_false, Bool.false_eq_true, if_false]
    exact (hf r hr).symm

theorem countP_own (p : Act α → Bool)
    (hp : ∀ r : Report α, r.target ≠ target → r.act?.any p = false) :
    ((log.filter fun r => r.target = target).filterMap Report.act?).countP p =
      (log.filterMap Report.act?).countP p := by
  have hguard (acts : List (Act α)) :
      acts.countP p = (acts.filterMap (Option.guard fun a => p a)).length := by
    rw [List.filterMap_eq_filter, List.countP_eq_length_filter]
  rw [hguard, hguard, filterMap_own _ fun r hr => ?_]
  have hnone := hp r hr
  cases ha : r.act? with
  | none => rfl
  | some a =>
    rw [ha] at hnone
    have hfalse : p a = false := hnone
    simp [Option.guard, hfalse]

variable [Quantity α] {m : Metrics α}

theorem apply_counted {acts : List (Act α)} (h : CountedActs target acts m) {r : Report α}
    (hr : r.target = target → r.Lasting) :
    CountedActs target (acts ++ r.act?.toList) (m.apply r) := by
  cases r with
  | request t command status x => exact h.concat (a := .observe t command status x) id id
  | untimed t command status =>
    have ht : t ≠ target := fun ht => hr ht
    simpa [Report.act?, CountedActs, apply] using h.add (countUntimed_adds ht m command status)
  | failure t => exact h.concat (a := .recordFailure t) id id
  | claim t owner => exact h.concat (a := .claim t owner) id id
  | release t owner => exact h.concat (a := .release t owner) (fun ha => hr ha.1) id

/-- Metrics without a series of a node count what is reported of it from then on. -/
theorem foldl_counted (habsent : ∀ s, m.Has s → s.target ≠ target)
    (hlog : ∀ r ∈ log, r.target = target → r.Lasting) :
    CountedActs target (log.filterMap Report.act?) (log.foldl apply m) := by
  induction log using List.reverseRecOn with
  | nil => exact .of_absent habsent
  | append_singleton log r ih =>
    have hcounted := ih fun s hs => hlog s (List.mem_append_left _ hs)
    have hstep := apply_counted hcounted (hlog r (by simp))
    rw [List.foldl_append, List.filterMap_append]
    cases ha : r.act? <;> simpa [ha] using hstep

theorem foldl_bounds (m : Metrics α) (log : List (Report α)) :
    (log.foldl apply m).bounds = m.bounds := by
  have hone (m : Metrics α) (r : Report α) : (m.apply r).bounds = m.bounds := by
    cases r with
    | release t owner => exact (perform_frame m (.release t owner)).1
    | request | untimed | failure | claim => rfl
  induction log generalizing m with
  | nil => rfl
  | cons r log ih => exact (ih _).trans (hone m r)

/-- The reports of a node alone tell what its series count. -/
theorem CountedActs.own (h : CountedActs target (log.filterMap Report.act?) m) :
    CountedActs target ((log.filter fun r => r.target = target).filterMap Report.act?) m := by
  have htimes (l : LatencyLabels) (hl : l.target = target) :
      times l ((log.filter fun r => r.target = target).filterMap Report.act?) =
        times l (log.filterMap Report.act?) := by
    refine filterMap_own _ fun r hr => ?_
    cases r with
    | request t command status x =>
      have hne : (⟨t, command⟩ : LatencyLabels) ≠ l := by
        rintro rfl
        exact hr hl
      simp [Report.act?, Act.time?, hne]
    | untimed | failure | claim | release => rfl
  refine ⟨fun l hl => ?_, fun l hl => ?_, fun l hl => ?_, ?_⟩
  · rw [countP_own _ fun r hr => ?_]
    · exact h.requests l hl
    · cases r with
      | request t command status x =>
        have hne : (⟨t, status, command⟩ : RequestLabels) ≠ l := by
          rintro rfl
          exact hr hl
        simp [Report.act?, Act.isRequest, hne]
      | untimed | failure | claim | release => rfl
  · rw [htimes l hl]
    exact h.totals l hl
  · rw [htimes l hl]
    exact h.latencies l hl
  · rw [countP_own _ fun r hr => ?_]
    · exact h.failures
    · cases r with
      | failure t => exact decide_eq_false hr
      | request | untimed | claim | release => rfl

/-- The series of a node that was not there, after reports of which some are about it. -/
theorem reported_series {m : Metrics Rat} (hb : isSorted m.bounds = true)
    (habsent : ∀ s, m.Has s → s.target ≠ target) {log own : List (Report Rat)}
    (honly : (log.filter fun r => r.target = target) = own) (hown : ∀ r ∈ own, r.Lasting) :
    ExactSeries (log.foldl apply m).bounds target (own.filterMap Report.act?)
      (log.foldl apply m) := by
  subst honly
  have hcounted : CountedActs target (log.filterMap Report.act?) (log.foldl apply m) :=
    foldl_counted habsent fun r hr ht =>
      hown r (List.mem_filter.mpr ⟨hr, decide_eq_true ht⟩)
  exact hcounted.own.exactSeries ((foldl_bounds m log).symm ▸ hb)

end FleetProbe.Metrics
