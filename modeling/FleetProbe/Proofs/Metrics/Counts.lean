import Mathlib.Data.List.Induction
import FleetProbe.Proofs.Metrics.Growth
import FleetProbe.Proofs.Metrics.Buckets
/-!
What the series of a node say. They count what was observed since the node was last removed, and
nothing from before that or of another node: every count is the number of observations with its
labels, and a histogram has taken in the times that came with them.
-/

namespace FleetProbe.Metrics

namespace Family

variable {L V : Type}

theorem find?_filter_node [DecidableEq L] (f : Family L V) (node : L → Target) (t : Target)
    (l : L) : Family.find? (f.filter fun e => !decide (node e.1 = t)) l =
      if node l = t then none else f.find? l := by
  simp only [find?, List.find?_filter]
  by_cases hl : node l = t
  · rw [if_pos hl, Option.map_eq_none_iff, List.find?_eq_none]
    rintro e - hboth
    simp only [Bool.not_eq_true', decide_eq_false_iff_not, decide_eq_true_eq] at hboth
    exact hboth.1 (hboth.2 ▸ hl)
  · have hkeeps (e : L × V) :
        ((!decide (node e.1 = t)) = true ∧ decide (e.1 = l) = true) ↔ e.1 = l := by
      by_cases he : e.1 = l
      · simp [he, hl]
      · simp [he]
    simp only [hkeeps, hl, if_false]

/-- Values of the series with some labels, added up. -/
def total (p : L → Bool) (f : Family L Nat) : Nat := ((f.filter fun e => p e.1).map Prod.snd).sum

theorem total_filter (p q : L → Bool) (f : Family L Nat) :
    Family.total p (f.filter fun e => q e.1) = f.total fun l => p l && q l := by
  simp only [total, List.filter_filter]

theorem total_update [DecidableEq L] (p : L → Bool) (f : Family L Nat) (l : L) :
    (f.update l 0 (· + 1)).total p = f.total p + if p l then 1 else 0 := by
  induction f with
  | nil => cases hp : p l <;> simp [update, total, hp]
  | cons e f ih =>
    obtain ⟨k, v⟩ := e
    simp only [total] at ih
    by_cases hk : k = l
    · subst hk
      cases hp : p k with
      | true => simp [update, total, hp, Nat.add_right_comm]
      | false => simp [update, total, hp]
    · cases hp : p k with
      | true => simp [update, total, hk, hp, ih, Nat.add_assoc]
      | false => simp [update, total, hk, hp, ih]

end Family

section

variable {α : Type}

/-- A count as its series shows it, which is not there before anything is counted. -/
def shown (n : Nat) : Option Nat := if n = 0 then none else some n

theorem shown_succ (n : Nat) : shown (n + 1) = some ((shown n).getD 0 + 1) := by
  cases n <;> rfl

/-- Requests of a node by command, whatever their status is. -/
def total (m : Metrics α) (l : LatencyLabels) : Nat :=
  m.requests.total fun r => decide (r.target = l.target ∧ r.command = l.command)

variable [Quantity α] {bounds : List α}

/-- One step adds to the series of a node what it counts for them, and nothing else. -/
structure Adds (target : Target) (request : RequestLabels → Bool)
    (time? : LatencyLabels → Option α) (failure : Bool) (m n : Metrics α) : Prop where
  bounds : n.bounds = m.bounds
  requests : ∀ l : RequestLabels, l.target = target → n.requests.find? l =
    if request l then some ((m.requests.find? l).getD 0 + 1) else m.requests.find? l
  totals : ∀ l : LatencyLabels, l.target = target →
    n.total l = m.total l + (time? l).toList.length
  latencies : ∀ l : LatencyLabels, l.target = target → n.latencies.find? l =
    match time? l with
    | some x => some (((m.latencies.find? l).getD (Histogram.empty m.bounds)).observe m.bounds x)
    | none => m.latencies.find? l
  failures : n.failures.find? target =
    if failure then some ((m.failures.find? target).getD 0 + 1) else m.failures.find? target

/-- The series of a node are what these counts and times make of them. -/
structure Counted (target : Target) (requests : RequestLabels → Nat)
    (times : LatencyLabels → List α) (failures : Nat) (m : Metrics α) : Prop where
  requests : ∀ l : RequestLabels, l.target = target → m.requests.find? l = shown (requests l)
  totals : ∀ l : LatencyLabels, l.target = target → m.total l = (times l).length
  latencies : ∀ l : LatencyLabels, l.target = target → m.latencies.find? l =
    if times l = [] then none else some (Histogram.taken m.bounds (times l))
  failures : m.failures.find? target = shown failures

variable {target : Target} {m n : Metrics α}

theorem Counted.add {requests : RequestLabels → Nat} {times : LatencyLabels → List α}
    {failures : Nat} {request : RequestLabels → Bool} {time? : LatencyLabels → Option α}
    {failure : Bool} (h : Counted target requests times failures m)
    (hn : Adds target request time? failure m n) :
    Counted target (fun l => requests l + if request l then 1 else 0)
      (fun l => times l ++ (time? l).toList) (failures + if failure then 1 else 0) n := by
  refine ⟨fun l hl => ?_, fun l hl => ?_, fun l hl => ?_, ?_⟩
  · rw [hn.requests l hl, h.requests l hl]
    cases request l with
    | false => rfl
    | true => exact (shown_succ _).symm
  · rw [hn.totals l hl, h.totals l hl, List.length_append]
  · rw [hn.latencies l hl, h.latencies l hl, hn.bounds]
    cases time? l with
    | none => simp only [Option.toList_none, List.append_nil]
    | some x =>
      simp only [Option.toList_some, List.append_eq_nil_iff, List.cons_ne_nil, and_false,
        if_false, Histogram.taken_concat]
      by_cases ht : times l = []
      · rw [if_pos ht, ht]
        rfl
      · rw [if_neg ht]
        rfl
  · rw [hn.failures, h.failures]
    cases failure with
    | false => rfl
    | true => exact (shown_succ _).symm

/-- Nothing is counted for a node, and its series are as they were. -/
theorem Adds.none (hb : n.bounds = m.bounds)
    (hr : ∀ l : RequestLabels, l.target = target → n.requests.find? l = m.requests.find? l)
    (ht : ∀ l : LatencyLabels, l.target = target → n.total l = m.total l)
    (hl : ∀ l : LatencyLabels, l.target = target → n.latencies.find? l = m.latencies.find? l)
    (hf : n.failures.find? target = m.failures.find? target) :
    Adds target (fun _ => false) (fun _ => .none) false m n :=
  ⟨hb, hr, ht, hl, hf⟩

theorem Adds.of_series (hb : n.bounds = m.bounds) (hr : n.requests = m.requests)
    (hl : n.latencies = m.latencies) (hf : n.failures = m.failures) :
    Adds target (fun _ => false) (fun _ => .none) false m n := by
  refine .none hb (fun l _ => by rw [hr]) (fun l _ => ?_) (fun l _ => by rw [hl]) (by rw [hf])
  rw [total, total, hr]

theorem observe_adds (m : Metrics α) (t target : Target) (command status : Text) (x : α) :
    Adds target (fun l => decide ((⟨t, status, command⟩ : RequestLabels) = l))
      (fun l => if (⟨t, command⟩ : LatencyLabels) = l then some x else none) false m
      (m.observe t command status x) := by
  refine ⟨rfl, fun l _ => ?_, fun l _ => ?_, fun l _ => ?_, rfl⟩
  · rw [observe, Family.find?_update]
    simp only [decide_eq_true_eq]
  · rw [total, observe, Family.total_update]
    obtain ⟨u, c⟩ := l
    by_cases hl : t = u ∧ command = c
    · simp [total, hl]
    · simp [total, hl]
  · rw [observe, Family.find?_update]
    split <;> rfl

theorem recordFailure_adds (m : Metrics α) (t target : Target) :
    Adds target (fun _ => false) (fun _ => .none) (decide (t = target)) m (m.recordFailure t) := by
  refine ⟨rfl, fun _ _ => rfl, fun _ _ => rfl, fun _ _ => rfl, ?_⟩
  rw [recordFailure, Family.find?_update]
  simp only [decide_eq_true_eq]

/-- A request of another node, whose time is of no use. -/
theorem countUntimed_adds {t : Target} (ht : t ≠ target) (m : Metrics α) (command status : Text) :
    Adds target (fun _ => false) (fun _ => .none) false m (m.countUntimed t command status) := by
  refine .none rfl ?_ ?_ ?_ rfl
  · rintro l rfl
    rw [countUntimed, Family.find?_update, if_neg]
    rintro rfl
    exact ht rfl
  · rintro l rfl
    rw [total, countUntimed, Family.total_update, if_neg (by simp [ht])]
    rfl
  · rintro l rfl
    rw [countUntimed, Family.find?_update, if_neg]
    rintro rfl
    exact ht rfl

theorem remove_adds {t : Target} (ht : t ≠ target) (m : Metrics α) :
    Adds target (fun _ => false) (fun _ => .none) false m (m.remove t) := by
  have hkept : ∀ (known : List RequestLabels) (l : RequestLabels), l.target = target →
      l ∉ known.filter fun l => l.target = t := by
    rintro known l rfl hl
    exact ht (of_decide_eq_true (List.mem_filter.mp hl).2).symm
  refine .none rfl (fun l hl => Family.find?_foldl_erase (hkept _ l hl)) ?_ ?_ ?_
  · rintro ⟨u, c⟩ rfl
    have hall (l : RequestLabels) :
        (decide (l.target = u ∧ l.command = c) &&
          !decide (l ∈ m.knownRequests.filter fun l => l.target = t)) =
        decide (l.target = u ∧ l.command = c) := by
      by_cases hl : l.target = u
      · simp [hkept m.knownRequests l hl, -List.mem_filter]
      · simp [hl]
    simp only [total, remove, Family.foldl_erase]
    rw [Family.total_filter _ fun l => !decide (l ∈ m.knownRequests.filter fun l => l.target = t)]
    simp only [hall]
  · rintro l rfl
    refine Family.find?_foldl_erase fun hl => ?_
    exact ht (of_decide_eq_true (List.mem_filter.mp hl).2).symm
  · simp only [remove]
    split
    · have hone : m.failures.erase t = [t].foldl Family.erase m.failures := rfl
      rw [hone, Family.find?_foldl_erase (by simpa using ht.symm)]
    · rfl

/-- Nothing of a node is left once it is removed. -/
theorem Counted.of_without (h : Without target m n) :
    Counted target (fun _ => 0) (fun _ => []) 0 n := by
  refine ⟨fun l hl => ?_, fun l hl => ?_, fun l hl => ?_, ?_⟩
  · have hgone := Family.find?_filter_node m.requests (·.target) target l
    rw [if_pos hl] at hgone
    rw [h.requests]
    exact hgone
  · have hgone (r : RequestLabels) :
        (decide (r.target = l.target ∧ r.command = l.command) && !decide (r.target = target)) =
          false := by
      by_cases hr : r.target = target
      · simp [hr]
      · simp [hl, hr]
    rw [total, h.requests,
      Family.total_filter _ fun r : RequestLabels => !decide (r.target = target)]
    simp only [hgone, Family.total, List.filter_false, List.map_nil, List.sum_nil, List.length_nil]
  · have hgone := Family.find?_filter_node m.latencies (·.target) target l
    rw [if_pos hl] at hgone
    rw [h.latencies]
    exact hgone
  · have hgone := Family.find?_filter_node m.failures id target target
    rw [h.failures]
    exact hgone.trans (if_pos rfl)

/-- Metrics without a series of a node. -/
theorem Counted.of_absent (h : ∀ s, m.Has s → s.target ≠ target) :
    Counted target (fun _ => 0) (fun _ => []) 0 m := by
  have hnone {L V : Type} [DecidableEq L] (f : Family L V) (l : L) (hl : l ∉ f.labels) :
      f.find? l = none := by
    rw [Family.find?, Option.map_eq_none_iff, List.find?_eq_none]
    intro e he hel
    exact hl (of_decide_eq_true hel ▸ List.mem_map_of_mem he)
  refine ⟨fun l hl => hnone _ _ fun hm => h (.request l) hm hl, fun l hl => ?_,
    fun l hl => hnone _ _ fun hm => h (.latency l) hm hl,
    hnone _ _ fun hm => h (.failure target) hm rfl⟩
  have hgone : m.requests.filter (fun e => decide (e.1.target = l.target ∧ e.1.command = l.command))
      = [] := by
    rw [List.filter_eq_nil_iff]
    rintro e he hel
    exact h (.request e.1) (List.mem_map_of_mem he) ((of_decide_eq_true hel).1.trans hl)
  rw [total, Family.total, hgone]
  rfl

/-- Whether an act counts a request under some labels. -/
def Act.isRequest (l : RequestLabels) : Act α → Bool
  | .observe t command status _ => decide ((⟨t, status, command⟩ : RequestLabels) = l)
  | _ => false

/-- The time that an act brings to the series of some labels. -/
def Act.time? (l : LatencyLabels) : Act α → Option α
  | .observe t command _ x => if (⟨t, command⟩ : LatencyLabels) = l then some x else none
  | _ => none

def Act.isFailure (target : Target) : Act α → Bool
  | .recordFailure t => decide (t = target)
  | _ => false

def Act.isDiscoveryFailure : Act α → Bool
  | .recordDiscoveryFailure => true
  | _ => false

/-- The times that came with the requests of some labels, in order. -/
def times (l : LatencyLabels) (acts : List (Act α)) : List α := acts.filterMap (Act.time? l)

/-- Whether an act removes a node: by removing it, or by a release that goes through. -/
def Act.Removes (m : Metrics α) (target : Target) : Act α → Prop
  | .remove t => t = target
  | .release t owner => t = target ∧ (m.release t owner).2 = true
  | _ => False

/-- The series of a node count what was done. -/
abbrev CountedActs (target : Target) (acts : List (Act α)) (m : Metrics α) : Prop :=
  Counted target (fun l => acts.countP (Act.isRequest l)) (fun l => times l acts)
    (acts.countP (Act.isFailure target)) m

theorem perform_adds {a : Act α} (ha : ¬ a.Removes m target) (hdrop : ¬ a.IsDrop) :
    Adds target (fun l => a.isRequest l) (fun l => a.time? l) (a.isFailure target) m
      (m.perform a) := by
  cases a with
  | observe t command status x => exact observe_adds m t target command status x
  | recordFailure t => exact recordFailure_adds m t target
  | recordDiscoveryFailure => exact .of_series rfl rfl rfl rfl
  | claim t owner => exact .of_series rfl rfl rfl rfl
  | release t owner =>
    by_cases hown : m.owner? t = some owner
    · have ht : t ≠ target := fun ht => ha ⟨ht, by rw [release, if_pos hown]⟩
      rw [perform, release, if_pos hown]
      have hothers :=
        remove_adds ht { m with owners := m.owners.filter fun e => !decide (e.1 = t) }
      exact ⟨hothers.bounds, hothers.requests, hothers.totals, hothers.latencies, hothers.failures⟩
    · rw [perform, release, if_neg hown]
      exact .of_series rfl rfl rfl rfl
  | remove t => exact remove_adds ha m
  | drop => exact absurd trivial hdrop

theorem perform_removes (h : Recorded m) {a : Act α} (ha : a.Removes m target) :
    CountedActs target [] (m.perform a) := by
  cases a with
  | release t owner =>
    obtain ⟨rfl, hr⟩ := ha
    by_cases hown : m.owner? t = some owner
    · rw [perform, release, if_pos hown]
      have hrest : Recorded { m with owners := m.owners.filter fun e => !decide (e.1 = t) } :=
        ⟨h.requests, h.latencies, h.failures⟩
      exact .of_without (remove_without hrest t)
    · rw [release, if_neg hown] at hr
      cases hr
  | remove t =>
    obtain rfl : t = target := ha
    exact .of_without (remove_without h t)
  | observe | recordFailure | recordDiscoveryFailure | claim | drop => cases ha

theorem CountedActs.concat {acts : List (Act α)} (h : CountedActs target acts m) {a : Act α}
    (ha : ¬ a.Removes m target) (hdrop : ¬ a.IsDrop) :
    CountedActs target (acts ++ [a]) (m.perform a) := by
  have hadded := h.add (perform_adds ha hdrop)
  have htimes (l : LatencyLabels) : times l (acts ++ [a]) = times l acts ++ (a.time? l).toList := by
    rw [times, times, List.filterMap_append]
    cases ha : a.time? l <;> simp [ha]
  simpa only [CountedActs, List.countP_append, List.countP_singleton, htimes] using hadded

/-- A history cut right after the last act that removed a node, or at the start if none did. -/
structure CutAtRemoval (bounds : List α) (target : Target) (before recent : List (Act α)) :
    Prop where
  removed : before = [] ∨
    ∃ earlier a, before = earlier ++ [a] ∧ a.Removes (performAll bounds earlier) target
  kept : ∀ part a rest, recent = part ++ a :: rest →
    ¬ a.Removes (performAll bounds (before ++ part)) target

theorem performAll_concat (bounds : List α) (acts : List (Act α)) (a : Act α) :
    performAll bounds (acts ++ [a]) = (performAll bounds acts).perform a := by
  rw [performAll, performAll, List.foldl_append, List.foldl_cons, List.foldl_nil]

/-- An act that does not remove the node leaves the cut where it is. -/
theorem CutAtRemoval.concat {before recent : List (Act α)}
    (h : CutAtRemoval bounds target before recent) {a : Act α}
    (ha : ¬ a.Removes (performAll bounds (before ++ recent)) target) :
    CutAtRemoval bounds target before (recent ++ [a]) := by
  refine ⟨h.removed, fun part b rest hsplit => ?_⟩
  cases List.eq_nil_or_concat rest with
  | inl hnil =>
    subst hnil
    obtain ⟨rfl, hlast⟩ := List.append_inj' hsplit rfl
    cases hlast
    exact ha
  | inr hlonger =>
    obtain ⟨rest, c, rfl⟩ := hlonger
    rw [List.concat_eq_append, ← List.cons_append, ← List.append_assoc] at hsplit
    exact h.kept part b rest (List.append_inj' hsplit rfl).1

theorem exists_cutAtRemoval (bounds : List α) (target : Target) (acts : List (Act α))
    (hacts : ∀ a ∈ acts, ¬ a.IsDrop) :
    ∃ before recent, acts = before ++ recent ∧ CutAtRemoval bounds target before recent ∧
      CountedActs target recent (performAll bounds acts) := by
  induction acts using List.reverseRecOn with
  | nil =>
    have hnone : CutAtRemoval bounds target [] [] := ⟨.inl rfl, by simp⟩
    exact ⟨[], [], rfl, hnone, .of_absent (by rintro (l | l | t) hs <;> cases hs)⟩
  | append_singleton acts a ih =>
    obtain ⟨before, recent, rfl, hcut, hcounted⟩ :=
      ih fun b hb => hacts b (List.mem_append_left _ hb)
    have hdrop : ¬ a.IsDrop := hacts a (by simp)
    rw [performAll_concat]
    by_cases ha : a.Removes (performAll bounds (before ++ recent)) target
    · refine ⟨before ++ recent ++ [a], [], by simp, ⟨.inr ⟨_, a, rfl, ha⟩, by simp⟩, ?_⟩
      exact perform_removes (performAll_recorded bounds _) ha
    · exact ⟨before, recent ++ [a], by simp, hcut.concat ha, hcounted.concat ha hdrop⟩

/-- The bounds stay as they are, and only a failed poll is counted as one. -/
theorem perform_frame (m : Metrics α) (a : Act α) :
    (m.perform a).bounds = m.bounds ∧ (m.perform a).discoveryFailures =
      m.discoveryFailures + if a.isDiscoveryFailure then 1 else 0 := by
  cases a with
  | release t owner =>
    rw [perform]
    obtain hr | ⟨owners, hr⟩ := release_cases m t owner
    · rw [hr]
      exact ⟨rfl, rfl⟩
    · rw [hr]
      exact ⟨rfl, rfl⟩
  | drop name labels =>
    rw [perform]
    cases hd : m.drop? name labels with
    | none => exact ⟨rfl, rfl⟩
    | some n =>
      obtain ⟨s, rfl⟩ := drop?_eq_some hd
      cases s <;> exact ⟨rfl, rfl⟩
  | observe | recordFailure | recordDiscoveryFailure | claim | remove => exact ⟨rfl, rfl⟩

theorem performAll_frame (bounds : List α) (acts : List (Act α)) :
    (performAll bounds acts).bounds = bounds ∧
      (performAll bounds acts).discoveryFailures = acts.countP Act.isDiscoveryFailure := by
  induction acts using List.reverseRecOn with
  | nil => exact ⟨rfl, rfl⟩
  | append_singleton acts a ih =>
    obtain ⟨hbounds, hpolls⟩ := ih
    obtain ⟨hb, hp⟩ := perform_frame (performAll bounds acts) a
    rw [performAll_concat, List.countP_append, List.countP_singleton, hb, hp, hpolls]
    exact ⟨hbounds, rfl⟩

end

/-- What the series of a node tell after the acts since its last removal. Where there is no
histogram, an empty one stands for it. -/
structure ExactSeries (bounds : List Rat) (target : Target) (recent : List (Act Rat))
    (m : Metrics Rat) : Prop where
  requests : ∀ status command, m.requests.find? ⟨target, status, command⟩ =
    shown (recent.countP (Act.isRequest ⟨target, status, command⟩))
  latencies : ∀ command, m.latencies.find? ⟨target, command⟩ = none ↔
    times ⟨target, command⟩ recent = []
  totals : ∀ command, m.total ⟨target, command⟩ =
    ((m.latencies.find? ⟨target, command⟩).getD (Histogram.empty bounds)).count
  exact : ∀ command, Histogram.Exact bounds (times ⟨target, command⟩ recent)
    ((m.latencies.find? ⟨target, command⟩).getD (Histogram.empty bounds))
  failures : m.failures.find? target = shown (recent.countP (Act.isFailure target))

theorem CountedActs.exactSeries {target : Target} {m : Metrics Rat} {recent : List (Act Rat)}
    (hb : isSorted m.bounds = true) (h : CountedActs target recent m) :
    ExactSeries m.bounds target recent m := by
  have htaken (command : Text) :
      (m.latencies.find? ⟨target, command⟩).getD (Histogram.empty m.bounds) =
        Histogram.taken m.bounds (times ⟨target, command⟩ recent) := by
    rw [h.latencies ⟨target, command⟩ rfl]
    by_cases ht : times ⟨target, command⟩ recent = []
    · rw [if_pos ht, ht]
      rfl
    · rw [if_neg ht]
      rfl
  refine ⟨fun status command => h.requests _ rfl, fun command => ?_, fun command => ?_,
    fun command => ?_, h.failures⟩
  · rw [h.latencies ⟨target, command⟩ rfl]
    simp
  · rw [htaken, (Histogram.taken_exact hb _).count, h.totals ⟨target, command⟩ rfl]
  · rw [htaken]
    exact Histogram.taken_exact hb _

/-- **The series of a node count what was done since it was last removed**, by a removal or by a
release that went through, and failed polls are counted for ever. A series of requests is there once
there is something to count; a histogram has as many amounts as there are requests of its command,
sums up the times that came with them, and counts at each bound those that are at most the bound. -/
theorem counts_since_removal {bounds : List Rat} (hb : isSorted bounds = true)
    (acts : List (Act Rat)) (hacts : ∀ a ∈ acts, ¬ a.IsDrop) :
    (performAll bounds acts).discoveryFailures = acts.countP Act.isDiscoveryFailure ∧
    ∀ target, ∃ before recent, acts = before ++ recent ∧
      CutAtRemoval bounds target before recent ∧
      ExactSeries bounds target recent (performAll bounds acts) := by
  obtain ⟨hbounds, hpolls⟩ := performAll_frame bounds acts
  refine ⟨hpolls, fun target => ?_⟩
  obtain ⟨before, recent, hsplit, hcut, hcounted⟩ := exists_cutAtRemoval bounds target acts hacts
  have hexact := hcounted.exactSeries (hbounds.symm ▸ hb)
  rw [hbounds] at hexact
  exact ⟨before, recent, hsplit, hcut, hexact⟩

theorem returning_counts :
    let near : Target := ⟨"fleet", "10.0.0.1:11211"⟩
    let far : Target := ⟨"fleet", "10.0.0.2:11211"⟩
    let bounds : List Rat := [1 / 1000, 1 / 2]
    let acts := returning near far
    let m := performAll bounds acts
    isSorted bounds = true ∧ (∀ a ∈ acts, ¬ a.IsDrop) ∧
    m.discoveryFailures = 1 ∧
    (∃ before recent, acts = before ++ recent ∧ CutAtRemoval bounds near before recent ∧
      ExactSeries bounds near recent m) ∧
    m.requests.find? ⟨near, "NoError", "get"⟩ = none ∧ m.failures.find? near = some 1 := by
  intro near far bounds acts m
  have hsorted : isSorted bounds = true := by decide +kernel
  have hkept : ∀ a ∈ acts, ¬ a.IsDrop := by simp [acts, returning, Act.IsDrop]
  obtain ⟨hdiscovery, hseries⟩ := counts_since_removal hsorted acts hkept
  have hpolls : acts.countP Act.isDiscoveryFailure = 1 := by decide +kernel
  exact ⟨hsorted, hkept, hdiscovery.trans hpolls, hseries near, by decide +kernel,
    by decide +kernel⟩

end FleetProbe.Metrics
