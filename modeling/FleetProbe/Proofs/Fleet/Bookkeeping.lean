import FleetProbe.Proofs.Fleet.Run
/-!
The books of a fleet. A task that has not finished is the running probe of one key, or it was asked
to stop and is retiring; it is never both and never lost sight of. Taking notice of a task that has
finished strikes out that task alone, so a newer task of its key stays where it is.
-/

namespace FleetProbe.Fleet

/-- No task slips out of sight: one that has not finished is a running probe or is retiring, and
whatever is retiring was asked to stop. -/
structure Tracked (f : Fleet) : Prop where
  nodup : f.retiring.Nodup
  asked : ∀ task ∈ f.retiring, f.isAsked task = true
  seen : ∀ task, f.isUnfinished task = true →
    (∃ key, (key, task) ∈ f.active) ∨ task ∈ f.retiring

/-- What the books of a fleet say. -/
structure Bookkept (f : Fleet) : Prop where
  /-- One running probe under a key. -/
  single : f.keys.Nodup
  /-- It probes a node of that key and was not asked to stop. -/
  keyed : ∀ key task, (key, task) ∈ f.active →
    ∃ m, f.members[task]? = some m ∧ m.node.key = key ∧ m.stopRequested = false
  /-- A task that has not finished is the running probe of exactly one key, or it is retiring. -/
  either : ∀ task, f.isUnfinished task = true →
    ((∃! key, (key, task) ∈ f.active) ∧ task ∉ f.retiring) ∨
      ((∀ key, (key, task) ∉ f.active) ∧ task ∈ f.retiring)
  /-- What is retiring was asked to stop. -/
  asked : ∀ task ∈ f.retiring, f.isAsked task = true
  /-- Taking notice of a finished task strikes no other off. -/
  spared : ∀ task, f.isUnfinished task = false → ∀ key other, other ≠ task →
    f.task? key = some other → (f.collect task).fleet.task? key = some other
  /-- Of the tasks of a key, one at most goes on without having been asked to stop. -/
  alone : ∀ (a b : Nat) (m n : Member), f.members[a]? = some m → f.members[b]? = some n →
    m.finish = none → n.finish = none → m.stopRequested = false → n.stopRequested = false →
    m.node.key = n.node.key → a = b

theorem empty_tracked : Tracked {} :=
  ⟨List.nodup_nil, by simp, by simp [isUnfinished]⟩

theorem isUnfinished_iff (f : Fleet) (task : Nat) :
    f.isUnfinished task = true ↔ ∃ m, f.members[task]? = some m ∧ m.finish = none := by
  simp [isUnfinished, Option.any_eq_true]

theorem isAsked_iff (f : Fleet) (task : Nat) :
    f.isAsked task = true ↔ ∃ m, f.members[task]? = some m ∧ m.stopRequested = true := by
  simp [isAsked, Option.any_eq_true]

theorem isUnfinished_ask (f : Fleet) (task i : Nat) :
    (f.ask task).isUnfinished i = f.isUnfinished i := by
  rw [isUnfinished, isUnfinished, ask_getElem?, Option.any_map]
  congr 1
  funext m
  split
  · rfl
  · rfl

theorem isAsked_ask {f : Fleet} {task i : Nat} (h : f.isAsked i = true) :
    (f.ask task).isAsked i = true := by
  obtain ⟨m, hm, hs⟩ := (isAsked_iff f i).mp h
  refine (isAsked_iff _ i).mpr ⟨if task = i then { m with stopRequested := true } else m, ?_, ?_⟩
  · rw [ask_getElem?, hm]
    rfl
  · split
    · rfl
    · exact hs

theorem isAsked_ask_self {f : Fleet} {task : Nat} (h : task < f.members.length) :
    (f.ask task).isAsked task = true := by
  refine (isAsked_iff _ task).mpr ⟨{ f.members[task] with stopRequested := true }, ?_, rfl⟩
  rw [ask_getElem?, List.getElem?_eq_getElem h]
  simp

theorem Orderly.task_unique {f : Fleet} (h : f.Orderly) {key : Text} {task other : Nat}
    (hm : (key, task) ∈ f.active) (hm' : (key, other) ∈ f.active) : task = other := by
  have ht := (task?_eq_some_iff f h.nodup key task).mpr hm
  rw [(task?_eq_some_iff f h.nodup key other).mpr hm'] at ht
  exact (Option.some.inj ht).symm

section Steps

variable {f : Fleet}

theorem start_tracked (h : f.Tracked) (n : Catalog.Node) (hn : n.key ∉ f.keys) :
    (f.start n).Tracked := by
  have hold {i : Nat} {m : Member} (hi : i < f.members.length) :
      (f.start n).members[i]? = some m ↔ f.members[i]? = some m := by
    rw [start, List.getElem?_append_left hi]
  refine ⟨h.nodup, fun task ht => ?_, fun task ht => ?_⟩
  · obtain ⟨m, hm, hs⟩ := (isAsked_iff f task).mp (h.asked task ht)
    have hi := (List.getElem?_eq_some_iff.mp hm).1
    exact (isAsked_iff _ task).mpr ⟨m, (hold hi).mpr hm, hs⟩
  · obtain ⟨m, hm, hf⟩ := (isUnfinished_iff _ task).mp ht
    obtain hi | hi := Nat.lt_or_ge task f.members.length
    · have hu := (isUnfinished_iff f task).mpr ⟨m, (hold hi).mp hm, hf⟩
      obtain ⟨key, hk⟩ | hr := h.seen task hu
      · left
        exact ⟨key, start_active f n hn ▸ List.mem_append_left _ hk⟩
      · exact .inr hr
    · -- The only new task is that of the node.
      left
      have hlt := (List.getElem?_eq_some_iff.mp hm).1
      simp only [start, List.length_append, List.length_singleton] at hlt
      obtain rfl : task = f.members.length := by omega
      exact ⟨n.key, start_active f n hn ▸ List.mem_append_right _ List.mem_cons_self⟩

theorem startMissing_tracked (h : f.Tracked) (ho : f.Orderly) (ns : List (Text × Catalog.Node))
    (hk : ∀ e ∈ ns, e.1 = e.2.key) : (f.startMissing ns).1.Tracked := by
  induction ns generalizing f with
  | nil => exact h
  | cons e es ih =>
    obtain ⟨key, n⟩ := e
    have hes : ∀ e ∈ es, e.1 = e.2.key := fun e he => hk e (List.mem_cons_of_mem _ he)
    have hkey : key = n.key := hk (key, n) List.mem_cons_self
    rw [startMissing]
    split
    · exact ih h ho hes
    · next hna =>
      have hn : n.key ∉ f.keys := by rwa [← hkey, ← isActive_iff]
      exact ih (start_tracked h n hn) (start_orderly ho n hn) hes

/-- A probe that is stopped goes from the running ones to the retiring ones, unless its task has
finished. -/
theorem stopProbe_books (ho : f.Orderly) {key : Text} {task : Nat} (hm : (key, task) ∈ f.active) :
    (stopProbe key f).fleet.members = (f.ask task).members ∧
    (stopProbe key f).fleet.active = f.active.filter (fun e => e.1 != key) ∧
    (f.retiring.Nodup → (stopProbe key f).fleet.retiring.Nodup) ∧
    ∀ i, i ∈ (stopProbe key f).fleet.retiring ↔
      i ∈ f.retiring ∨ (i = task ∧ f.isUnfinished task = true) := by
  rw [stopProbe_of_mem ho hm]
  refine ⟨rfl, rfl, fun hd => ?_, fun i => ?_⟩
  · dsimp only
    split
    · next hnew =>
      have hnot : task ∉ f.retiring := by simpa using (Bool.and_eq_true_iff.mp hnew).2
      exact hd.append (List.nodup_singleton task) (by simpa using hnot)
    · exact hd
  · dsimp only
    split
    · next hnew =>
      have hu := (Bool.and_eq_true_iff.mp hnew).1
      simp [hu]
    · next hold =>
      have hin : f.isUnfinished task = true → task ∈ f.retiring := by simpa using hold
      refine ⟨.inl, fun h => ?_⟩
      obtain h | ⟨rfl, hu⟩ := h
      · exact h
      · exact hin hu

theorem stopProbe_tracked (h : f.Tracked) (ho : f.Orderly) (key : Text) :
    (stopProbe key f).fleet.Tracked := by
  by_cases hk : key ∈ f.keys
  · obtain ⟨⟨key, task⟩, hm, rfl⟩ := List.mem_map.mp hk
    obtain ⟨hmembers, hactive, hnodup, hretiring⟩ := stopProbe_books ho hm
    refine ⟨hnodup h.nodup, fun i hi => ?_, fun i hi => ?_⟩
    · rw [isAsked, hmembers, ← isAsked]
      obtain hi | ⟨rfl, -⟩ := (hretiring i).mp hi
      · exact isAsked_ask (h.asked i hi)
      · exact isAsked_ask_self (ho.task_lt hm)
    · rw [isUnfinished, hmembers, ← isUnfinished, isUnfinished_ask] at hi
      rw [hretiring, hactive]
      obtain ⟨key', hk'⟩ | hr := h.seen i hi
      · by_cases hkey : key' = key
        · subst hkey
          obtain rfl := ho.task_unique hm hk'
          exact .inr (.inr ⟨rfl, hi⟩)
        · exact .inl ⟨key', List.mem_filter.mpr ⟨hk', by simpa using hkey⟩⟩
      · exact .inr (.inl hr)
  · rw [stopProbe_of_notMem f key hk]
    exact h

theorem stopProbes_tracked (h : f.Tracked) (ho : f.Orderly) (keys : List Text) :
    (f.stopProbes keys).fleet.Tracked := by
  induction keys generalizing f with
  | nil => exact h
  | cons key keys ih =>
    rw [stopProbes_cons]
    exact ih (stopProbe_tracked h ho key) (stopProbe_orderly ho key)

theorem reconcile_tracked (h : f.Tracked) (ho : f.Orderly) (s : Catalog.Snapshot)
    (hs : s.WellKeyed) : (f.reconcile s).fleet.Tracked :=
  stopProbes_tracked (startMissing_tracked h ho s.nodes hs.keyed)
    (startMissing_orderly ho s.nodes hs.keyed) _

theorem finish_tracked (h : f.Tracked) (task : Nat) (how : Finish) :
    (f.finish task how).Tracked := by
  refine ⟨h.nodup, fun i hi => ?_, fun i hi => ?_⟩
  · obtain ⟨m, hm, hs⟩ := (isAsked_iff f i).mp (h.asked i hi)
    refine (isAsked_iff _ i).mpr ⟨_, by rw [finish_getElem?, hm]; rfl, ?_⟩
    split
    · exact hs
    · exact hs
  · obtain ⟨m, hm, hf⟩ := (isUnfinished_iff _ i).mp hi
    rw [finish_getElem?] at hm
    obtain ⟨m', hm', rfl⟩ := Option.map_eq_some_iff.mp hm
    refine h.seen i ((isUnfinished_iff f i).mpr ⟨m', hm', ?_⟩)
    split at hf
    · exact (Option.or_eq_none_iff.mp hf).1
    · exact hf

theorem collect_tracked (h : f.Tracked) {task : Nat} (ht : f.isUnfinished task = false) :
    (f.collect task).fleet.Tracked := by
  unfold collect
  split
  · exact h
  · next m hm =>
    refine ⟨h.nodup.filter _, fun i hi => h.asked i (List.mem_of_mem_filter hi), fun i hi => ?_⟩
    have hu : f.isUnfinished i = true := hi
    have hne : i ≠ task := by
      rintro rfl
      rw [ht] at hu
      cases hu
    obtain ⟨key, hk⟩ | hr := h.seen i hu
    · exact .inl ⟨key, List.mem_filter.mpr ⟨hk, by simp [hne]⟩⟩
    · exact .inr (List.mem_filter.mpr ⟨hr, by simpa using hne⟩)

theorem step_tracked (h : f.Tracked) (ho : f.Orderly) (e : Event) : (f.step e).Tracked := by
  cases e with
  | reconcile index nodes =>
    exact reconcile_tracked h ho _ (Catalog.Snapshot.ofNodes_wellKeyed index nodes)
  | stopProbe key => exact stopProbe_tracked h ho key
  | stopAll => exact stopProbes_tracked h ho f.keys
  | finish task how => exact finish_tracked h task how
  | collect task =>
    rw [step]
    split
    · exact h
    · next hf => exact collect_tracked h (by simpa using hf)

theorem run_tracked (h : f.Tracked) (ho : f.Orderly) (es : List Event) : (f.run es).Tracked := by
  induction es generalizing f with
  | nil => exact h
  | cons e es ih => exact ih (step_tracked h ho e) (step_orderly ho e)

end Steps

section Books

variable {f : Fleet}

/-- A running probe is not retiring, for one of the two was asked to stop. -/
theorem Tracked.notMem_retiring (h : f.Tracked) (ho : f.Orderly) {key : Text} {task : Nat}
    (hm : (key, task) ∈ f.active) : task ∉ f.retiring := by
  intro hr
  have ha := h.asked task hr
  rw [ho.isAsked_eq_false hm] at ha
  cases ha

/-- What goes on without having been asked to stop is a running probe. -/
theorem Tracked.mem_active (h : f.Tracked) (ho : f.Orderly) {task : Nat} {m : Member}
    (hm : f.members[task]? = some m) (hf : m.finish = none) (hs : m.stopRequested = false) :
    (m.node.key, task) ∈ f.active := by
  obtain ⟨key, hk⟩ | hr := h.seen task ((isUnfinished_iff f task).mpr ⟨m, hm, hf⟩)
  · obtain ⟨m', hm', rfl, -⟩ := ho.sound key task hk
    rw [hm] at hm'
    cases hm'
    exact hk
  · obtain ⟨m', hm', ha⟩ := (isAsked_iff f task).mp (h.asked task hr)
    rw [hm] at hm'
    cases hm'
    rw [hs] at ha
    cases ha

/-- A running probe other than the task that is struck out goes on being looked up. -/
theorem collect_task? (ho : f.Orderly) {task other : Nat} {key : Text} (hne : other ≠ task)
    (h : f.task? key = some other) : (f.collect task).fleet.task? key = some other := by
  have hm := (task?_eq_some_iff f ho.nodup key other).mp h
  refine (task?_eq_some_iff _ (collect_orderly ho task).nodup key other).mpr ?_
  unfold collect
  split
  · exact hm
  · exact List.mem_filter.mpr ⟨hm, by simp [hne]⟩

theorem Tracked.bookkept (h : f.Tracked) (ho : f.Orderly) : f.Bookkept := by
  refine ⟨ho.nodup, ho.sound, fun task ht => ?_, h.asked, fun task _ key other hne hk => ?_,
    fun a b m n hm hn hmf hnf hms hns hkey => ?_⟩
  · by_cases hr : task ∈ f.retiring
    · exact .inr ⟨fun key hk => h.notMem_retiring ho hk hr, hr⟩
    · obtain ⟨key, hk⟩ := (h.seen task ht).resolve_right hr
      exact .inl ⟨⟨key, hk, fun key' hk' => ho.key_unique hk' hk⟩, hr⟩
  · exact collect_task? ho hne hk
  · have ha := h.mem_active ho hm hmf hms
    have hb := h.mem_active ho hn hnf hns
    rw [hkey] at ha
    exact ho.task_unique ha hb

end Books

/-- **The books are right after every run**, however reconciliations, stops, finishing tasks and
the notices of them follow each other. -/
theorem run_bookkept (es : List Event) : (run {} es).Bookkept :=
  (run_tracked empty_tracked empty_orderly es).bookkept (run_orderly empty_orderly es)

end FleetProbe.Fleet
