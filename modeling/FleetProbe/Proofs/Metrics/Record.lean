import Mathlib.Data.List.Perm.Basic
import FleetProbe.Proofs.Metrics.Series
/-!
The record of the series. Whatever is done to the metrics, a series that is there is on record, and
only taking a series away by hand leaves one on record that is not there. So a node can be removed
at any time: all of its series go, and nothing else changes.
-/

namespace FleetProbe.Metrics

namespace Family

variable {L V : Type} [DecidableEq L]

theorem mem_of_mem_erase {f : Family L V} {l x : L} (h : x ∈ (f.erase l).labels) : x ∈ f.labels :=
  ((mem_labels_erase f l x).mp h).1

theorem erase_comm (f : Family L V) (k l : L) : (f.erase k).erase l = (f.erase l).erase k := by
  simp only [erase, List.filter_filter, Bool.and_comm]

theorem foldl_erase (gone : List L) (f : Family L V) :
    gone.foldl erase f = f.filter fun e => !decide (e.1 ∈ gone) := by
  induction gone generalizing f with
  | nil => simp
  | cons l gone ih =>
    rw [List.foldl_cons, ih, erase, List.filter_filter]
    congr 1
    funext e
    simp [Bool.and_comm]

variable (f : Family L V) (known : List L) (node : L → Target) (target : Target)

/-- Where every series is on record, erasing those on record for a node erases all of the node. -/
theorem foldl_erase_known (h : ∀ l ∈ f.labels, l ∈ known) :
    (known.filter fun l => node l = target).foldl erase f =
      f.filter fun e => !decide (node e.1 = target) := by
  rw [foldl_erase]
  apply List.filter_congr
  intro e he
  have hknown := h e.1 (List.mem_map_of_mem he)
  simp [hknown]

/-- What is there and stays on record stays there. -/
theorem mem_labels_of_kept (h : ∀ l ∈ known, l ∈ f.labels) :
    ∀ l ∈ known.filter (fun l => !decide (node l = target)),
      l ∈ ((known.filter fun l => node l = target).foldl erase f).labels := by
  intro l hl
  simp only [mem_labels_foldl_erase, List.mem_filter, Bool.not_eq_true', decide_eq_false_iff_not,
    decide_eq_true_eq] at hl ⊢
  exact ⟨h l hl.1, fun hgone => hl.2 hgone.2⟩

end Family

/-- A series of one of the three metrics with labels. -/
inductive Series where
  | request (labels : RequestLabels)
  | latency (labels : LatencyLabels)
  | failure (target : Target)
  deriving DecidableEq, Repr

namespace Series

def target : Series → Target
  | request l => l.target
  | latency l => l.target
  | failure t => t

def name : Series → Name
  | request _ => .requests
  | latency _ => .latencies
  | failure _ => .failures

/-- The labels in order. -/
def texts : Series → List Text
  | request l => [l.target.cluster, l.target.socket, l.status, l.command]
  | latency l => [l.target.cluster, l.target.socket, l.command]
  | failure t => [t.cluster, t.socket]

end Series

/-- What is done to the metrics, one thing at a time. A request comes with the time it took. -/
inductive Act (α : Type) where
  | observe (target : Target) (command status : Text) (seconds : α)
  | recordFailure (target : Target)
  | recordDiscoveryFailure
  | claim (target : Target) (owner : Nat)
  | release (target : Target) (owner : Nat)
  | remove (target : Target)
  /-- A series is taken away by hand. Labels in a wrong number take nothing. -/
  | drop (name : Name) (labels : List Text)
  deriving DecidableEq, Repr

def Act.IsDrop {α : Type} : Act α → Prop
  | .drop _ _ => True
  | _ => False

variable {α : Type}

/-- The series is there. -/
def Has (m : Metrics α) : Series → Prop
  | .request l => l ∈ m.requests.labels
  | .latency l => l ∈ m.latencies.labels
  | .failure t => t ∈ m.failures.labels

/-- The series is on record. -/
def Knows (m : Metrics α) : Series → Prop
  | .request l => l ∈ m.knownRequests
  | .latency l => l ∈ m.knownLatencies
  | .failure t => t ∈ m.knownFailures

theorem Recorded.knows {m : Metrics α} (h : Recorded m) (s : Series) (hs : m.Has s) : m.Knows s := by
  cases s with
  | request l => exact h.requests l hs
  | latency l => exact h.latencies l hs
  | failure t => exact h.failures t hs

theorem mem_tracked_iff_knows (m : Metrics α) (target : Target) :
    target ∈ m.tracked ↔ ∃ s, m.Knows s ∧ s.target = target := by
  rw [mem_tracked]
  constructor
  · rintro (⟨l, hl, rfl⟩ | ⟨l, hl, rfl⟩ | hf)
    · exact ⟨.request l, hl, rfl⟩
    · exact ⟨.latency l, hl, rfl⟩
    · exact ⟨.failure target, hf, rfl⟩
  · rintro ⟨s, hs, rfl⟩
    cases s with
    | request l => exact .inl ⟨l, hs, rfl⟩
    | latency l => exact .inr (.inl ⟨l, hs, rfl⟩)
    | failure t => exact .inr (.inr hs)

/-- Every series on record is there. -/
structure Live (m : Metrics α) : Prop where
  requests : ∀ l ∈ m.knownRequests, l ∈ m.requests.labels
  latencies : ∀ l ∈ m.knownLatencies, l ∈ m.latencies.labels
  failures : ∀ t ∈ m.knownFailures, t ∈ m.failures.labels

theorem Live.has {m : Metrics α} (h : Live m) (s : Series) (hs : m.Knows s) : m.Has s := by
  cases s with
  | request l => exact h.requests l hs
  | latency l => exact h.latencies l hs
  | failure t => exact h.failures t hs

/-- Takes a series away. -/
def erase (m : Metrics α) : Series → Metrics α
  | .request l => { m with requests := m.requests.erase l }
  | .latency l => { m with latencies := m.latencies.erase l }
  | .failure t => { m with failures := m.failures.erase t }

theorem drop?_texts (m : Metrics α) (s : Series) : m.drop? s.name s.texts = some (m.erase s) := by
  cases s <;> rfl

theorem drop?_eq_some {m n : Metrics α} {name : Name} {labels : List Text}
    (h : m.drop? name labels = some n) : ∃ s, n = m.erase s := by
  unfold drop? at h
  split at h
  · exact ⟨.request _, (Option.some.inj h).symm⟩
  · exact ⟨.latency _, (Option.some.inj h).symm⟩
  · exact ⟨.failure _, (Option.some.inj h).symm⟩
  · cases h

theorem erase_recorded {m : Metrics α} (h : Recorded m) (s : Series) : Recorded (m.erase s) := by
  cases s with
  | request l =>
    exact ⟨fun x hx => h.requests x (Family.mem_of_mem_erase hx), h.latencies, h.failures⟩
  | latency l =>
    exact ⟨h.requests, fun x hx => h.latencies x (Family.mem_of_mem_erase hx), h.failures⟩
  | failure t =>
    exact ⟨h.requests, h.latencies, fun x hx => h.failures x (Family.mem_of_mem_erase hx)⟩

theorem remove_live {m : Metrics α} (h : Live m) (t : Target) : Live (m.remove t) := by
  refine ⟨Family.mem_labels_of_kept _ _ _ _ h.requests,
    Family.mem_labels_of_kept _ _ _ _ h.latencies, fun u hu => ?_⟩
  simp only [remove, List.mem_filter, Bool.not_eq_true', decide_eq_false_iff_not] at hu ⊢
  have hthere := h.failures u hu.1
  split
  · exact (Family.mem_labels_erase _ _ _).mpr ⟨hthere, hu.2⟩
  · exact hthere

theorem recordFailure_live {m : Metrics α} (h : Live m) (t : Target) :
    Live (m.recordFailure t) := by
  refine ⟨h.requests, h.latencies, fun u hu => ?_⟩
  simp only [recordFailure, Family.mem_labels_update, mem_note] at hu ⊢
  exact hu.imp_left (h.failures u)

/-- A node is released with all that is counted for it, or not at all. -/
theorem release_cases (m : Metrics α) (t : Target) (owner : Nat) :
    (m.release t owner).1 = m ∨ ∃ owners, (m.release t owner).1 = { m with owners }.remove t := by
  rw [release]
  split
  · exact .inr ⟨_, rfl⟩
  · exact .inl rfl

/-- Takes series away one after the other, unless one of them is refused. -/
def dropEach? (m : Metrics α) (series : List Series) : Option (Metrics α) :=
  series.foldlM (fun n s => n.drop? s.name s.texts) m

/-- The series on record for a node. -/
def removals (m : Metrics α) (target : Target) : List Series :=
  (m.knownRequests.filter fun l => l.target = target).map .request ++
    (m.knownLatencies.filter fun l => l.target = target).map .latency ++
    if target ∈ m.knownFailures then [.failure target] else []

/-- Takes a node off the record, its series aside. -/
def forget (m : Metrics α) (target : Target) : Metrics α :=
  { m with
    knownRequests := m.knownRequests.filter fun l => !decide (l.target = target)
    knownLatencies := m.knownLatencies.filter fun l => !decide (l.target = target)
    knownFailures := m.knownFailures.filter fun t => !decide (t = target) }

/-- None is refused, for each has as many labels as its metric. -/
theorem dropEach?_eq (m : Metrics α) (series : List Series) :
    m.dropEach? series = some (series.foldl erase m) := by
  induction series generalizing m with
  | nil => rfl
  | cons s series ih =>
    have hs := ih (m.erase s)
    rw [dropEach?] at hs ⊢
    rw [List.foldlM_cons, drop?_texts, List.foldl_cons, ← hs]
    rfl

instance : RightCommutative (erase (α := α)) where
  right_comm m s r := by
    cases s <;> cases r <;> simp only [erase, Family.erase_comm]

theorem foldl_erase_removals (m : Metrics α) (target : Target) :
    (m.removals target).foldl erase (m.forget target) = m.remove target := by
  -- Erasing series of one metric does not look at the others.
  have hrequests (ls : List RequestLabels) (n : Metrics α) :
      (ls.map Series.request).foldl erase n =
        { n with requests := ls.foldl Family.erase n.requests } := by
    induction ls generalizing n with
    | nil => rfl
    | cons l ls ih => exact ih (n.erase (.request l))
  have hlatencies (ls : List LatencyLabels) (n : Metrics α) :
      (ls.map Series.latency).foldl erase n =
        { n with latencies := ls.foldl Family.erase n.latencies } := by
    induction ls generalizing n with
    | nil => rfl
    | cons l ls ih => exact ih (n.erase (.latency l))
  rw [removals, List.foldl_append, List.foldl_append, hrequests, hlatencies, remove]
  by_cases hf : target ∈ m.knownFailures
  · rw [if_pos hf, if_pos hf]
    rfl
  · rw [if_neg hf, if_neg hf]
    rfl

/-- The series of a node are gone, it is off the record, and all else is as it was. -/
structure Without (target : Target) (m n : Metrics α) : Prop where
  gone : ∀ s, n.Has s → s.target ≠ target
  requests : n.requests = m.requests.filter fun e => !decide (e.1.target = target)
  latencies : n.latencies = m.latencies.filter fun e => !decide (e.1.target = target)
  failures : n.failures = m.failures.filter fun e => !decide (e.1 = target)
  tracked : ∀ t, t ∈ n.tracked ↔ t ∈ m.tracked ∧ t ≠ target
  owners : n.owners = m.owners
  discoveryFailures : n.discoveryFailures = m.discoveryFailures

theorem remove_without {m : Metrics α} (h : Recorded m) (target : Target) :
    Without target m (m.remove target) := by
  have hcut := remove_recorded h target
  refine ⟨fun s hs ht => ?_, Family.foldl_erase_known _ _ _ _ h.requests,
    Family.foldl_erase_known _ _ _ _ h.latencies, ?_, fun t => tracked_remove m target t, rfl, rfl⟩
  · -- A series that were left would be on record, and the node is off it.
    have htracked : target ∈ (m.remove target).tracked :=
      (mem_tracked_iff_knows _ _).mpr ⟨s, hcut.knows s hs, ht⟩
    exact ((tracked_remove m target target).mp htracked).2 rfl
  · by_cases hf : target ∈ m.knownFailures
    · exact if_pos hf
    · refine (if_neg hf).trans (List.filter_eq_self.mpr fun e he => ?_).symm
      have hne : e.1 ≠ target := fun hc => hf (hc ▸ h.failures e.1 (List.mem_map_of_mem he))
      simp [hne]

theorem remove_remove (m : Metrics α) (target : Target) :
    (m.remove target).remove target = m.remove target := by
  simp [remove, List.filter_filter]

variable [Quantity α]

theorem observe_live {m : Metrics α} (h : Live m) (t : Target) (command status : Text) (x : α) :
    Live (m.observe t command status x) := by
  refine ⟨fun l hl => ?_, fun l hl => ?_, h.failures⟩
  · simp only [observe, Family.mem_labels_update, mem_note] at hl ⊢
    exact hl.imp_left (h.requests l)
  · simp only [observe, Family.mem_labels_update, mem_note] at hl ⊢
    exact hl.imp_left (h.latencies l)

def perform (m : Metrics α) : Act α → Metrics α
  | .observe target command status seconds => m.observe target command status seconds
  | .recordFailure target => m.recordFailure target
  | .recordDiscoveryFailure => m.recordDiscoveryFailure
  | .claim target owner => m.claim target owner
  | .release target owner => (m.release target owner).1
  | .remove target => m.remove target
  | .drop name labels => (m.drop? name labels).getD m

/-- Fresh metrics, after all that was done. -/
def performAll (bounds : List α) (acts : List (Act α)) : Metrics α := acts.foldl perform { bounds }

theorem perform_recorded {m : Metrics α} (h : Recorded m) (a : Act α) : Recorded (m.perform a) := by
  cases a with
  | observe t command status x => exact observe_recorded h t command status x
  | recordFailure t => exact recordFailure_recorded h t
  | recordDiscoveryFailure => exact ⟨h.requests, h.latencies, h.failures⟩
  | claim t owner => exact claim_recorded h t owner
  | release t owner =>
    rw [perform]
    obtain he | ⟨owners, he⟩ := release_cases m t owner
    · rw [he]
      exact h
    · have hrest : Recorded { m with owners } := ⟨h.requests, h.latencies, h.failures⟩
      rw [he]
      exact remove_recorded hrest t
  | remove t => exact remove_recorded h t
  | drop name labels =>
    rw [perform]
    cases hd : m.drop? name labels with
    | none => exact h
    | some n =>
      obtain ⟨s, rfl⟩ := drop?_eq_some hd
      exact erase_recorded h s

theorem perform_live {m : Metrics α} (h : Live m) {a : Act α} (ha : ¬ a.IsDrop) :
    Live (m.perform a) := by
  cases a with
  | observe t command status x => exact observe_live h t command status x
  | recordFailure t => exact recordFailure_live h t
  | recordDiscoveryFailure => exact ⟨h.requests, h.latencies, h.failures⟩
  | claim t owner => exact ⟨h.requests, h.latencies, h.failures⟩
  | release t owner =>
    rw [perform]
    obtain he | ⟨owners, he⟩ := release_cases m t owner
    · rw [he]
      exact h
    · have hrest : Live { m with owners } := ⟨h.requests, h.latencies, h.failures⟩
      rw [he]
      exact remove_live hrest t
  | remove t => exact remove_live h t
  | drop => exact absurd trivial ha

theorem performAll_recorded (bounds : List α) (acts : List (Act α)) :
    Recorded (performAll bounds acts) := by
  have hfresh : Recorded ({ bounds } : Metrics α) := by constructor <;> simp [Family.labels]
  exact List.foldlRecOn acts perform hfresh fun m hm a _ => perform_recorded hm a

theorem performAll_live (bounds : List α) (acts : List (Act α)) (h : ∀ a ∈ acts, ¬ a.IsDrop) :
    Live (performAll bounds acts) := by
  have hfresh : Live ({ bounds } : Metrics α) := by constructor <;> simp
  exact List.foldlRecOn acts perform hfresh fun m hm a ha => perform_live hm (h a ha)

/-- **The record is exact.** After anything that was done, every series that is there is on record,
and if none was taken away by hand, the nodes on record are those with a series. A node can be
removed at any time: the series on record for it can be taken away in any order and none is
refused; the node is gone with all of its series, all else is as it was, and removing it again
changes nothing. -/
theorem record_exact (bounds : List α) (acts : List (Act α)) :
    (∀ s, (performAll bounds acts).Has s → (performAll bounds acts).Knows s) ∧
    ((∀ a ∈ acts, ¬ a.IsDrop) →
      (∀ s, (performAll bounds acts).Knows s → (performAll bounds acts).Has s) ∧
      ∀ target, target ∈ (performAll bounds acts).tracked ↔
        ∃ s, (performAll bounds acts).Has s ∧ s.target = target) ∧
    ∀ target,
      (∀ order, order.Perm ((performAll bounds acts).removals target) →
        ((performAll bounds acts).forget target).dropEach? order =
          some ((performAll bounds acts).remove target)) ∧
      Without target (performAll bounds acts) ((performAll bounds acts).remove target) ∧
      ((performAll bounds acts).remove target).remove target =
        (performAll bounds acts).remove target := by
  have hrecorded := performAll_recorded bounds acts
  refine ⟨hrecorded.knows, fun hacts => ?_, fun target => ⟨fun order horder => ?_,
    remove_without hrecorded target, remove_remove _ target⟩⟩
  · have hlive := performAll_live bounds acts hacts
    refine ⟨hlive.has, fun target => ?_⟩
    rw [mem_tracked_iff_knows]
    constructor
    · rintro ⟨s, hs, ht⟩
      exact ⟨s, hlive.has s hs, ht⟩
    · rintro ⟨s, hs, ht⟩
      exact ⟨s, hrecorded.knows s hs, ht⟩
  · rw [dropEach?_eq, horder.foldl_eq, foldl_erase_removals]

/-- A node that is counted for again after it was released, and another that stays. -/
def returning (near far : Target) : List (Act Rat) :=
  [.claim near 1, .observe near "get" "NoError" (1 / 500), .recordFailure near,
    .observe far "set" "Timeout" 1, .recordFailure far, .release near 1, .recordFailure near,
    .recordDiscoveryFailure]

theorem returning_record_exact :
    let near : Target := ⟨"fleet", "10.0.0.1:11211"⟩
    let far : Target := ⟨"fleet", "10.0.0.2:11211"⟩
    let m := performAll [] (returning near far)
    (∀ a ∈ returning near far, ¬ a.IsDrop) ∧
    near ∈ m.tracked ∧ (∃ s, m.Has s ∧ s.target = near) ∧
    m.removals far =
      [.request ⟨far, "Timeout", "set"⟩, .latency ⟨far, "set"⟩, .failure far] ∧
    (m.forget far).dropEach? (m.removals far).reverse = some (m.remove far) ∧
    Without far m (m.remove far) := by
  intro near far m
  obtain ⟨-, hlive, hremove⟩ := record_exact [] (returning near far)
  have hkept : ∀ a ∈ returning near far, ¬ a.IsDrop := by simp [returning, Act.IsDrop]
  have htracked : near ∈ m.tracked := by decide +kernel
  obtain ⟨horder, hwithout, -⟩ := hremove far
  exact ⟨hkept, htracked, ((hlive hkept).2 near).mp htracked, by decide +kernel,
    horder _ (List.reverse_perm _), hwithout⟩

end FleetProbe.Metrics
