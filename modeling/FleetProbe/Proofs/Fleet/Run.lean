import FleetProbe.Fleet.Basic
import FleetProbe.Proofs.Catalog.Snapshot
/-!
Runs of a fleet, and the order that every run keeps: each key has one running probe, whose task was
created for a node of that key and was never asked to stop, and the running probes stand in the
order in which their tasks were created.
-/

namespace FleetProbe.Fleet

open Catalog

/-- What can happen to a fleet. Tasks finish on their own, and some time later the fleet takes
notice of it. -/
inductive Event where
  | reconcile (index : Int) (nodes : List Node)
  | stopProbe (key : Text)
  | stopAll
  | finish (task : Nat) (how : Finish)
  | collect (task : Nat)

def step (f : Fleet) : Event → Fleet
  | .reconcile index nodes => (f.reconcile (.ofNodes index nodes)).fleet
  | .stopProbe key => (f.stopProbe key).fleet
  | .stopAll => f.stopAll.fleet
  | .finish task how => f.finish task how
  | .collect task => if f.isUnfinished task then f else (f.collect task).fleet

def run (f : Fleet) (es : List Event) : Fleet := es.foldl step f

structure Orderly (f : Fleet) : Prop where
  nodup : f.keys.Nodup
  sorted : (f.active.map Prod.snd).Pairwise (· < ·)
  sound : ∀ key task, (key, task) ∈ f.active →
    ∃ m, f.members[task]? = some m ∧ m.node.key = key ∧ m.stopRequested = false

theorem empty_orderly : Orderly {} :=
  ⟨List.nodup_nil, List.Pairwise.nil, by simp⟩

theorem isActive_iff (f : Fleet) (key : Text) : f.isActive key = true ↔ key ∈ f.keys := by
  simp [isActive, task?, keys]

theorem task?_eq_none_iff (f : Fleet) (key : Text) : f.task? key = none ↔ key ∉ f.keys := by
  rw [← isActive_iff, isActive]
  cases f.task? key <;> simp

theorem task?_eq_some_iff (f : Fleet) (h : f.keys.Nodup) (key : Text) (task : Nat) :
    f.task? key = some task ↔ (key, task) ∈ f.active := by
  obtain ⟨members, active, retiring⟩ := f
  simp only [keys, task?] at h ⊢
  induction active with
  | nil => simp
  | cons e es ih =>
    obtain ⟨k, t⟩ := e
    simp only [List.map_cons, List.nodup_cons] at h
    by_cases hk : k = key
    · subst hk
      have hn : ∀ t', (k, t') ∉ es := fun t' ht => h.1 (List.mem_map_of_mem (f := Prod.fst) ht)
      simp [hn, eq_comm]
    · have hk' : key ≠ k := fun he => hk he.symm
      simp [hk, hk', ih h.2]

theorem Orderly.task_lt {f : Fleet} (h : f.Orderly) {key : Text} {task : Nat}
    (hm : (key, task) ∈ f.active) : task < f.members.length := by
  obtain ⟨m, hm, -, -⟩ := h.sound key task hm
  exact (List.getElem?_eq_some_iff.mp hm).1

/-- No two running probes share a task. -/
theorem Orderly.key_unique {f : Fleet} (h : f.Orderly) {key key' : Text} {task : Nat}
    (hm : (key, task) ∈ f.active) (hm' : (key', task) ∈ f.active) : key = key' := by
  obtain ⟨m, hg, hk, -⟩ := h.sound key task hm
  obtain ⟨m', hg', hk', -⟩ := h.sound key' task hm'
  rw [hg] at hg'
  rw [← hk, ← hk', Option.some.inj hg']

theorem Orderly.isAsked_eq_false {f : Fleet} (h : f.Orderly) {key : Text} {task : Nat}
    (hm : (key, task) ∈ f.active) : f.isAsked task = false := by
  obtain ⟨m, hg, -, hs⟩ := h.sound key task hm
  simp [isAsked, hg, hs]

/-- What a run keeps is kept when running probes are dropped and no kept one is asked to stop. -/
theorem Orderly.of_sublist {f g : Fleet} (h : f.Orderly) (hs : g.active.Sublist f.active)
    (hm : ∀ key task m, (key, task) ∈ g.active → f.members[task]? = some m →
      ∃ m', g.members[task]? = some m' ∧ m'.node = m.node ∧ m'.stopRequested = m.stopRequested) :
    g.Orderly := by
  refine ⟨h.nodup.sublist (hs.map _), h.sorted.sublist (hs.map _), ?_⟩
  intro key task he
  obtain ⟨m, hg, hk, hr⟩ := h.sound key task (hs.subset he)
  obtain ⟨m', hg', hn, hr'⟩ := hm key task m he hg
  exact ⟨m', hg', hn ▸ hk, hr'.trans hr⟩

theorem start_active (f : Fleet) (n : Node) (h : n.key ∉ f.keys) :
    (f.start n).active = f.active ++ [(n.key, f.members.length)] :=
  Snapshot.put_of_notMem n.key f.members.length f.active h

theorem start_orderly {f : Fleet} (h : f.Orderly) (n : Node) (hn : n.key ∉ f.keys) :
    (f.start n).Orderly := by
  have ha := start_active f n hn
  refine ⟨?_, ?_, ?_⟩
  · simp only [keys, ha, List.map_append, List.map_cons, List.map_nil]
    exact List.nodup_append.mpr ⟨h.nodup, List.nodup_singleton _, by
      intro a hm b hb
      rw [List.mem_singleton] at hb
      exact fun he => hn (hb ▸ he ▸ hm)⟩
  · simp only [ha, List.map_append, List.map_cons, List.map_nil]
    refine List.pairwise_append.mpr ⟨h.sorted, List.pairwise_singleton _ _, ?_⟩
    intro a hm b hb
    obtain ⟨e, he, rfl⟩ := List.mem_map.mp hm
    rw [List.mem_singleton] at hb
    exact hb ▸ h.task_lt he
  · intro key task he
    rw [ha, List.mem_append, List.mem_singleton, Prod.mk.injEq] at he
    rcases he with he | ⟨rfl, rfl⟩
    · obtain ⟨m, hg, hk, hr⟩ := h.sound key task he
      refine ⟨m, ?_, hk, hr⟩
      simp only [start]
      rw [List.getElem?_append_left (h.task_lt he), hg]
    · exact ⟨{ node := n }, by simp [start], rfl, rfl⟩

theorem startMissing_orderly {f : Fleet} (h : f.Orderly) (ns : List (Text × Node))
    (hk : ∀ e ∈ ns, e.1 = e.2.key) : (f.startMissing ns).1.Orderly := by
  induction ns generalizing f with
  | nil => exact h
  | cons e es ih =>
    obtain ⟨key, n⟩ := e
    have hes : ∀ e ∈ es, e.1 = e.2.key := fun e he => hk e (List.mem_cons_of_mem _ he)
    have hkey : key = n.key := hk (key, n) List.mem_cons_self
    by_cases ha : f.isActive key = true
    · simpa [startMissing, ha] using ih h hes
    · have hn : n.key ∉ f.keys := by rwa [← hkey, ← isActive_iff]
      simpa [startMissing, ha] using ih (start_orderly h n hn) hes

/-- The task of a running probe is asked to stop, the probe is forgotten, and the task is kept in
sight while it has not finished. -/
theorem stopProbe_of_mem {f : Fleet} (h : f.Orderly) {key : Text} {task : Nat}
    (hm : (key, task) ∈ f.active) :
    stopProbe key f =
      { fleet :=
          { members := (f.ask task).members
            active := f.active.filter fun e => e.1 != key
            retiring :=
              if f.isUnfinished task && !f.retiring.contains task then f.retiring ++ [task]
              else f.retiring }
        orders := [.stop task] } := by
  have ht := (task?_eq_some_iff f h.nodup key task).mpr hm
  simp only [stopProbe, ht, h.isAsked_eq_false hm, Bool.false_eq_true, if_false]
  split_ifs <;> rfl

theorem stopProbe_of_notMem (f : Fleet) (key : Text) (h : key ∉ f.keys) :
    stopProbe key f = { fleet := f, notices := [notRunning] } := by
  simp only [stopProbe, (task?_eq_none_iff f key).mpr h]

theorem ask_getElem? (f : Fleet) (task i : Nat) :
    (f.ask task).members[i]? =
      (f.members[i]?).map fun m => if task = i then { m with stopRequested := true } else m := by
  simp only [ask, List.getElem?_modify]
  split_ifs <;> simp

theorem finish_getElem? (f : Fleet) (task i : Nat) (how : Finish) :
    (f.finish task how).members[i]? = (f.members[i]?).map fun m =>
      if task = i then { m with finish := m.finish.or (some how) } else m := by
  simp only [finish, List.getElem?_modify]
  split_ifs <;> simp

theorem stopProbe_orderly {f : Fleet} (h : f.Orderly) (key : Text) :
    (stopProbe key f).fleet.Orderly := by
  by_cases hk : key ∈ f.keys
  · obtain ⟨⟨_, task⟩, hm, rfl⟩ := List.mem_map.mp hk
    rw [stopProbe_of_mem h hm]
    refine h.of_sublist List.filter_sublist ?_
    intro key' task' m hm' hg
    obtain ⟨hm', hne⟩ := List.mem_filter.mp hm'
    have ht : task ≠ task' := by
      rintro rfl
      simp [h.key_unique hm hm'] at hne
    exact ⟨m, by simp [ask_getElem?, hg, ht], rfl, rfl⟩
  · rw [stopProbe_of_notMem f key hk]
    exact h

theorem foldl_stopProbe (keys : List Text) (a : Next) :
    keys.foldl (fun next key => next.andThen (stopProbe key)) a = a.andThen (stopProbes keys) := by
  induction keys generalizing a with
  | nil => simp [Next.andThen, stopProbes]
  | cons key keys ih =>
    have hs : stopProbes (key :: keys) = fun g => (stopProbe key g).andThen (stopProbes keys) := by
      funext g
      rw [stopProbes, List.foldl_cons, ih]
      simp [Next.andThen]
    rw [List.foldl_cons, ih, hs]
    simp [Next.andThen]

theorem stopProbes_cons (key : Text) (keys : List Text) (f : Fleet) :
    f.stopProbes (key :: keys) = (stopProbe key f).andThen (stopProbes keys) := by
  rw [stopProbes, List.foldl_cons, foldl_stopProbe]
  simp [Next.andThen]

theorem stopProbes_orderly {f : Fleet} (h : f.Orderly) (keys : List Text) :
    (f.stopProbes keys).fleet.Orderly := by
  induction keys generalizing f with
  | nil => exact h
  | cons key keys ih =>
    rw [stopProbes_cons]
    exact ih (stopProbe_orderly h key)

theorem reconcile_orderly {f : Fleet} (h : f.Orderly) (s : Snapshot) (hs : s.WellKeyed) :
    (f.reconcile s).fleet.Orderly :=
  stopProbes_orderly (startMissing_orderly h s.nodes hs.keyed) _

theorem finish_orderly {f : Fleet} (h : f.Orderly) (task : Nat) (how : Finish) :
    (f.finish task how).Orderly := by
  refine h.of_sublist (List.Sublist.refl _) ?_
  intro key task' m _ hg
  rw [finish_getElem?, hg]
  refine ⟨_, rfl, ?_, ?_⟩
  · split_ifs <;> rfl
  · split_ifs <;> rfl

theorem collect_orderly {f : Fleet} (h : f.Orderly) (task : Nat) :
    (f.collect task).fleet.Orderly := by
  unfold collect
  cases hm : f.members[task]? with
  | none => exact h
  | some m => exact h.of_sublist List.filter_sublist fun _ _ m' _ hg => ⟨m', hg, rfl, rfl⟩

theorem step_orderly {f : Fleet} (h : f.Orderly) (e : Event) : (f.step e).Orderly := by
  cases e with
  | reconcile index nodes => exact reconcile_orderly h _ (Snapshot.ofNodes_wellKeyed index nodes)
  | stopProbe key => exact stopProbe_orderly h key
  | stopAll => exact stopProbes_orderly h f.keys
  | finish task how => exact finish_orderly h task how
  | collect task =>
    simp only [step]
    split_ifs
    · exact h
    · exact collect_orderly h task

theorem run_orderly {f : Fleet} (h : f.Orderly) (es : List Event) : (f.run es).Orderly := by
  induction es generalizing f with
  | nil => exact h
  | cons e es ih => exact ih (step_orderly h e)

end FleetProbe.Fleet
