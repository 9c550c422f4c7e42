import Mathlib.Tactic.Ring
import FleetProbe.Proofs.Probe.Accounts
/-!
What the series of a node have to do with the accounts of its task. Where a task is the only one to
report for its node, each of its counts is found again in them whenever it looks whether to stop.
-/

namespace FleetProbe

open Effect Exchange Metrics

namespace Metrics

/-- The histogram of some labels; where there is none, an empty one stands for it. -/
def histogram {α : Type} [Quantity α] (m : Metrics α) (l : LatencyLabels) : Histogram α :=
  (m.latencies.find? l).getD (Histogram.empty m.bounds)

/-- The times that the reports of a node bring to the series of a command. -/
theorem times_own {α : Type} {target : Target} {rs : List (Report α)}
    (h : ∀ r ∈ rs, r.target = target) (command : Text) :
    times ⟨target, command⟩ (rs.filterMap Report.act?) =
      ((rs.filterMap recorded?).filter fun r => r.1 = command).map fun r => r.2.2 := by
  induction rs with
  | nil => rfl
  | cons r rs ih =>
    obtain ⟨hr, hrs⟩ := List.forall_mem_cons.mp h
    have hrest := ih hrs
    cases r with
    | request t c status x =>
      obtain rfl : t = target := hr
      rw [times] at hrest ⊢
      by_cases hc : c = command
      · simp [Report.act?, recorded?, Act.time?, hc, hrest]
      · simp [Report.act?, recorded?, Act.time?, hc, hrest]
    | untimed | failure | claim | release => exact hrest

theorem failures_own {α : Type} {target : Target} {rs : List (Report α)}
    (h : ∀ r ∈ rs, r.target = target) :
    (rs.filterMap Report.act?).countP (Act.isFailure target) = rs.countP Report.isFailure := by
  rw [List.countP_filterMap]
  refine List.countP_congr fun r hr => ?_
  cases r with
  | failure t =>
    obtain rfl : t = target := h _ hr
    simp [Report.act?, Act.isFailure, Report.isFailure]
  | request | untimed | claim | release => rfl

end Metrics

namespace Probe

/-- The times of the requests on record that were answered. -/
def answered {α : Type} (p : Phase) (es : List (Effect α)) : List α :=
  ((recorded es).filter fun r => r.1 = (p.command : Text) ∧ r.2.1 ≠ timeoutStatus).map
    fun r => r.2.2

/-- Times are those of answers, and the limit for each command without one. -/
theorem sum_recorded {rows : List (Text × Text × Rat)} {command : Text} {limit : Rat}
    (h : ∀ x, (command, timeoutStatus, x) ∈ rows → x = limit) :
    ((rows.filter fun r => r.1 = command).map fun r => r.2.2).sum =
      ((rows.filter fun r => r.1 = command ∧ r.2.1 ≠ timeoutStatus).map fun r => r.2.2).sum +
        (rows.countP fun r => r.1 = command ∧ r.2.1 = timeoutStatus) * limit := by
  induction rows with
  | nil => simp
  | cons r rows ih =>
    obtain ⟨c, status, x⟩ := r
    have hrest := ih fun y hy => h y (List.mem_cons_of_mem _ hy)
    by_cases hc : c = command
    · by_cases hs : status = timeoutStatus
      · have hx : x = limit := h x (by simp [hc, hs])
        rw [List.filter_cons_of_pos (by simp [hc]), List.filter_cons_of_neg (by simp [hs]),
          List.countP_cons_of_pos (by simp [hc, hs]), List.map_cons, List.sum_cons, hrest, hx]
        push_cast
        ring
      · rw [List.filter_cons_of_pos (by simp [hc]), List.filter_cons_of_pos (by simp [hc, hs]),
          List.countP_cons_of_neg (by simp [hs]), List.map_cons, List.map_cons, List.sum_cons,
          List.sum_cons, hrest, add_assoc]
    · rw [List.filter_cons_of_neg (by simp [hc]), List.filter_cons_of_neg (by simp [hc]),
        List.countP_cons_of_neg (by simp [hc]), hrest]

/-- The counts of a task are found again in what failed and in the series of its node. -/
structure Agrees (target : Target) (timeout : TimeLimit Rat) (probes failures : Nat)
    (es : List (Effect Rat)) (m : Metrics Rat) : Prop where
  failed : failures = (toll es).connects + (toll es).sets + (toll es).gets
  failureSeries : m.failures.find? target = shown failures
  setRequests : m.total ⟨target, Phase.set.command⟩ = probes + (toll es).gets
  setTimes : (m.histogram ⟨target, Phase.set.command⟩).count = probes + (toll es).gets
  getRequests : m.total ⟨target, Phase.get.command⟩ = probes
  getTimes : (m.histogram ⟨target, Phase.get.command⟩).count = probes
  /-- Each command that ran out of time adds the limit to the times of those with an answer. -/
  sums : ∀ p : Phase, ∃ limit : Rat,
    (0 < es.countP (isTimedOut p.command) → timeout.seconds = .ok limit) ∧
    (m.histogram ⟨target, p.command⟩).sum =
      (answered p es).sum + es.countP (isTimedOut p.command) * limit

theorem Books.agrees {s : Setup Rat} {probes failures : Nat} {es : List (Effect Rat)}
    (h : Books s probes failures 0 es) {m : Metrics Rat} (hb : isSorted m.bounds = true)
    (habsent : ∀ x, m.Has x → x.target ≠ s.target) {log : List (Report Rat)}
    (honly : (log.filter fun r => r.target = s.target) = reports es) :
    Agrees s.target s.timeout probes failures es (log.foldl apply m) := by
  have hexact := reported_series hb habsent honly fun r hr => (h.own r hr).2
  have hown : ∀ r ∈ reports es, r.target = s.target := fun r hr => (h.own r hr).1
  have htimes := times_own hown
  have hcount (p : Phase) :
      ((log.foldl apply m).histogram ⟨s.target, p.command⟩).count = asked p es := by
    refine (hexact.exact _).count.trans ?_
    rw [htimes, List.length_map, ← List.countP_eq_length_filter]
    rfl
  have htotal (p : Phase) : (log.foldl apply m).total ⟨s.target, p.command⟩ = asked p es :=
    (hexact.totals _).trans (hcount p)
  refine ⟨h.failed, ?_, (htotal .set).trans h.sets, (hcount .set).trans h.sets,
    (htotal .get).trans h.gets, (hcount .get).trans h.gets, fun p => ?_⟩
  · rw [hexact.failures, failures_own hown, h.told]
  · have hsum : ((log.foldl apply m).histogram ⟨s.target, p.command⟩).sum =
        (((recorded es).filter fun r => r.1 = (p.command : Text)).map fun r => r.2.2).sum := by
      rw [recorded, ← htimes]
      exact (hexact.exact _).sum
    obtain ⟨limit, hlimit⟩ : ∃ limit : Rat, ∀ x, s.timeout.seconds = .ok x → x = limit := by
      cases s.timeout.seconds with
      | ok limit => exact ⟨limit, fun x hx => (Except.ok.inj hx).symm⟩
      | error f => exact ⟨0, fun x hx => by cases hx⟩
    refine ⟨limit, fun hsome => ?_, ?_⟩
    · rw [← h.timed.said, List.countP_pos_iff] at hsome
      obtain ⟨⟨command, status, x⟩, hm, hr⟩ := hsome
      obtain ⟨rfl, rfl⟩ := of_decide_eq_true hr
      have hx := h.timed.limit _ x hm
      exact hlimit x hx ▸ hx
    · rw [hsum, sum_recorded fun x hm => hlimit x (h.timed.limit _ x hm), h.timed.said]
      rfl

namespace Task

section Looks

variable {α : Type} [Quantity α] {t : Task α} {es fs : List (Effect α)} {now : α}

/-- A task looks whether to stop: as it is then, with what it has done at the event before. What
comes next is a turn. It looks at the start of a round, and before it ends because it is to stop. -/
structure Looks (t : Task α) (now : α) (e : Event) (n : Next α) : Prop where
  turns : t.step now e = (n.task.turn now).after n.effects
  begins : t.round? now e = some n.task ∨ t.fate? = none ∧ n.task.stopRequested = true

omit [Quantity α] in
/-- Whether there is a connection to close shows in what a task waits for at its end. -/
theorem shutdown_effects {u v : Task α} {how : Ending} (hid : u.id = v.id) (hnode : u.node = v.node)
    (hwait : (u.shutdown how).task.wait = (v.shutdown how).task.wait) :
    (u.shutdown how).effects = (v.shutdown how).effects := by
  unfold shutdown at hwait ⊢
  cases hu : u.client with
  | none =>
    cases hv : v.client with
    | none => simp only [finish, hid, target, hnode]
    | some d =>
      rw [hu, hv] at hwait
      cases hwait
  | some c =>
    cases hv : v.client with
    | none =>
      rw [hu, hv] at hwait
      cases hwait
    | some d => rfl

/-- How a task ends tells its counts. -/
theorem shutdown_inj {u v : Task α} {gs : List (Effect α)} {how : Ending}
    (h : (u.shutdown how).after fs = (v.shutdown how).after gs) :
    u.setup = v.setup ∧ u.probes = v.probes ∧ u.failures = v.failures ∧ fs = gs := by
  have htask : (u.shutdown how).task = (v.shutdown how).task := congrArg (fun n => n.task) h
  have heffects : fs ++ (u.shutdown how).effects = gs ++ (v.shutdown how).effects :=
    congrArg (fun n => n.effects) h
  have hu := shutdown_tells u how
  have hv := shutdown_tells v how
  have hid : u.id = v.id := by rw [← hu.id, htask, hv.id]
  have hnode : u.node = v.node := by rw [← hu.node, htask, hv.node]
  have hconfig : u.config = v.config := by rw [← hu.config, htask, hv.config]
  obtain ⟨hprobes, hfailures, -⟩ := shutdown_counts u how
  obtain ⟨hprobes', hfailures', -⟩ := shutdown_counts v how
  rw [shutdown_effects hid hnode (congrArg Task.wait htask)] at heffects
  refine ⟨?_, ?_, ?_, List.append_cancel_right heffects⟩
  · rw [setup, setup, target, target, hnode, hconfig]
  · rw [← hprobes, htask, hprobes']
  · rw [← hfailures, htask, hfailures']

/-- Whenever a task looks whether to stop, its accounts agree. -/
theorem Looks.even {e : Event} {n : Next α} (hlooks : Looks t now e n)
    (h : t.fate? = none → Balanced t es) : Even n.task (es ++ n.effects) := by
  obtain hu | ⟨hfate, hstop⟩ := hlooks.begins
  · obtain ⟨fs, hfs, hstep⟩ := step_eq_turn hu
    have heffects := congrArg Next.effects (hstep.symm.trans hlooks.turns)
    obtain rfl : fs = n.effects := List.append_cancel_right heffects
    exact round_even (h (fate?_of_round? hu)) hu hfs
  · have hturns := hlooks.turns
    rw [turn, if_pos hstop] at hturns
    have hreturned : (t.step now e).task.fate? = some .returned := by
      rw [hturns]
      exact fate?_shutdown n.task .returned
    obtain ⟨u, fs, hn, -, heven⟩ := (step_goes hfate (h hfate) now e).returned hreturned
    obtain ⟨hsetup, hprobes, hfailures, rfl⟩ := shutdown_inj (hn.symm.trans hturns)
    rw [Even, ← hsetup, ← hprobes, ← hfailures]
    exact heven

/-- A task looks whether to stop whenever a round begins and whenever it turns to return. -/
theorem exists_looks {e : Event} (h : t.fate? = none → Balanced t es)
    (he : (t.round? now e).isSome ∨
      t.fate? = none ∧ (t.step now e).task.fate? = some .returned) : ∃ n, Looks t now e n := by
  obtain hu | ⟨hfate, hreturned⟩ := he
  · obtain ⟨u, hu⟩ := Option.isSome_iff_exists.mp hu
    obtain ⟨fs, -, hstep⟩ := step_eq_turn hu
    exact ⟨⟨u, fs⟩, hstep, .inl hu⟩
  · obtain ⟨u, fs, hn, hstop, -⟩ := (step_goes hfate (h hfate) now e).returned hreturned
    refine ⟨⟨u, fs⟩, ?_, .inr ⟨hfate, hstop⟩⟩
    rw [hn, turn, if_pos hstop]

end Looks

end Task

end Probe

end FleetProbe
