import FleetProbe.Proofs.Fleet.Bookkeeping
import FleetProbe.Proofs.Fleet.Enlisting
import FleetProbe.Proofs.Fleet.Reconcile
/-!
How many tasks are created for a key. Between two reconciliations the tasks that were asked to stop
finish, and the fleet takes notice of it, at any instant and in any order. While no other task
finishes, a notice strikes no running probe out, so the running probes go on being those of the
last snapshot, and a task is created for a key whenever it appears.
-/

namespace FleetProbe.Fleet

open Catalog

/-- How many tasks were ever created for a key. -/
def tasksOf (f : Fleet) (key : Text) : Nat := f.nodes.countP fun n => decide (n.key = key)

/-- How often a key is in a snapshot and not in the one before it. -/
def appearances (key : Text) (ss : List Snapshot) : Nat :=
  (({} :: ss).zip ss).countP fun (before, s) => s.contains key && !before.contains key

def Event.snapshot? : Event → Option Snapshot
  | .reconcile index nodes => some (.ofNodes index nodes)
  | _ => none

/-- The snapshots that a run reconciles with. -/
def snapshots (es : List Event) : List Snapshot := es.filterMap Event.snapshot?

/-- Reconciliations alone stop probes, and a task finishes only after it was asked to stop. Notice
may be taken of any task. -/
def Willing (f : Fleet) : Event → Prop
  | .reconcile _ _ | .collect _ => True
  | .finish task _ => f.isAsked task = true
  | .stopProbe _ | .stopAll => False

/-- A run in which no task ends on its own. -/
def Undisturbed (f : Fleet) : List Event → Prop
  | [] => True
  | e :: es => f.Willing e ∧ Undisturbed (f.step e) es

/-- A fleet that runs a snapshot, where whatever has finished was asked to. -/
structure Attends (f : Fleet) (s : Snapshot) : Prop where
  orderly : f.Orderly
  active : ∀ key, f.isActive key = s.contains key
  asked : ∀ (task : Nat) (m : Member), f.members[task]? = some m → m.finish ≠ none →
    m.stopRequested = true

theorem empty_attends : Attends {} {} :=
  ⟨empty_orderly, fun _ => rfl, by simp⟩

section Notice

variable {f : Fleet}

/-- A key whose probe is the very task that is struck out is forgotten. -/
theorem collect_forgets (h : f.Orderly) {task : Nat} {key : Text} (ht : f.task? key = some task) :
    (f.collect task).fleet.task? key = none := by
  have hm := (task?_eq_some_iff f h.nodup key task).mp ht
  obtain ⟨m, hg, hk, -⟩ := h.sound key task hm
  rw [task?_eq_none_iff]
  intro hin
  simp only [collect, hg, keys, List.mem_map, List.mem_filter] at hin
  obtain ⟨⟨_, other⟩, ⟨hother, hne⟩, rfl⟩ := hin
  obtain rfl := h.task_unique hm hother
  simp [hk] at hne

theorem collect_unknown (f : Fleet) (task : Nat) {key : Text} (hkey : f.task? key = none) :
    (f.collect task).fleet.task? key = none := by
  rw [task?_eq_none_iff] at hkey ⊢
  intro hin
  apply hkey
  unfold collect at hin
  split at hin
  · exact hin
  · exact (List.filter_sublist.map Prod.fst).subset hin

/-- Taking notice of a finished task forgets the key that still runs it, and no other. -/
theorem step_collect_task? (h : f.Orderly) (task : Nat) (key : Text) :
    (f.step (.collect task)).task? key =
      if f.isUnfinished task = false ∧ f.task? key = some task then none else f.task? key := by
  rw [step]
  split
  · next hgoes => simp [hgoes]
  · next hended =>
    have hended : f.isUnfinished task = false := by simpa using hended
    cases hkey : f.task? key with
    | none => simpa using collect_unknown f task hkey
    | some other =>
      obtain rfl | hne := eq_or_ne other task
      · rw [if_pos ⟨hended, rfl⟩]
        exact collect_forgets h hkey
      · rw [if_neg fun hsame => hne (Option.some.inj hsame.2)]
        exact collect_task? h hne hkey

theorem step_collect_members (f : Fleet) (task : Nat) :
    (f.step (.collect task)).members = f.members := by
  rw [step]
  split
  · rfl
  · unfold collect
    split
    · rfl
    · rfl

/-- While no task ends on its own, taking notice of one strikes no running probe out. -/
theorem Attends.collect {s : Snapshot} (h : f.Attends s) (task : Nat) :
    (f.step (.collect task)).Attends s := by
  refine ⟨step_orderly h.orderly _, fun key => ?_, ?_⟩
  · rw [← h.active key, isActive, isActive, step_collect_task? h.orderly task key, if_neg]
    rintro ⟨hf, hk⟩
    -- A running probe was not asked to stop, so its task has not finished.
    have hm := (task?_eq_some_iff f h.orderly.nodup key task).mp hk
    obtain ⟨m, hg, -, hs⟩ := h.orderly.sound key task hm
    have hu : m.finish ≠ none := by
      intro hn
      rw [(isUnfinished_iff f task).mpr ⟨m, hg, hn⟩] at hf
      cases hf
    rw [h.asked task m hg hu] at hs
    cases hs
  · rw [step_collect_members]
    exact h.asked

theorem Attends.finish {s : Snapshot} (h : f.Attends s) {task : Nat} (how : Finish)
    (ha : f.isAsked task = true) : (f.finish task how).Attends s := by
  refine ⟨finish_orderly h.orderly task how, h.active, fun i m hm hf => ?_⟩
  rw [finish_getElem?] at hm
  obtain ⟨m', hm', rfl⟩ := Option.map_eq_some_iff.mp hm
  obtain rfl | hi := eq_or_ne task i
  · obtain ⟨n, hn, hs⟩ := (isAsked_iff f task).mp ha
    rw [hm'] at hn
    cases hn
    simpa using hs
  · rw [if_neg hi] at hf ⊢
    exact h.asked i m' hm' hf

end Notice

section Count

variable {f : Fleet} {s : Snapshot}

theorem reconcile_nodes (hs : s.WellKeyed) :
    (f.reconcile s).fleet.nodes = f.nodes ++ (f.missing s.nodes).map Prod.snd := by
  have hcreated : (f.startMissing s.nodes).2.map Prod.snd = (f.missing s.nodes).map Prod.snd := by
    rw [startMissing_eq s.nodes hs.nodup hs.keyed, List.map_map]
    calc ((f.missing s.nodes).zipIdx f.members.length).map (fun x => x.1.2)
        = (((f.missing s.nodes).zipIdx f.members.length).map Prod.fst).map Prod.snd := by
          rw [List.map_map]
          rfl
      _ = (f.missing s.nodes).map Prod.snd := by rw [List.zipIdx_map_fst]
  have hnodes := (reconcile_enlists f s).nodes
  rwa [hcreated] at hnodes

theorem reconcile_tasksOf (hs : s.WellKeyed) (key : Text) :
    (f.reconcile s).fleet.tasksOf key =
      f.tasksOf key + if s.contains key && !f.isActive key then 1 else 0 := by
  have hc : ((f.missing s.nodes).map Prod.snd).countP (fun n => decide (n.key = key)) =
      (s.keys.filter fun key => !f.isActive key).count key := by
    rw [Snapshot.keys, List.filter_map, List.count, List.countP_map, List.countP_map]
    refine List.countP_congr fun e he => ?_
    have hk := hs.keyed e (List.mem_of_mem_filter he)
    simp [hk]
  rw [tasksOf, tasksOf, reconcile_nodes hs, List.countP_append, hc,
    List.Nodup.count (hs.nodup.filter _)]
  simp only [List.mem_filter, ← s.contains_iff, Bool.and_eq_true]

/-- A reconciliation changes nothing of what has finished, and none of its new tasks has. -/
theorem Attends.reconcile {before : Snapshot} (h : f.Attends before) (hs : s.WellKeyed) :
    (f.reconcile s).fleet.Attends s := by
  refine ⟨reconcile_orderly h.orderly s hs, reconcile_isActive h.orderly hs, fun task m hm hf => ?_⟩
  rw [reconcile_member h.orderly hs] at hm
  obtain ⟨m', hm', rfl⟩ := Option.map_eq_some_iff.mp hm
  rw [List.getElem?_append] at hm'
  split at hm'
  · simp [h.asked task m' hm' hf]
  · obtain ⟨e, -, rfl⟩ := List.mem_map.mp (List.mem_of_getElem? hm')
    exact absurd rfl hf

/-- Over a run in which no task ends on its own, the running probes are those of the last snapshot,
and the tasks created for a key are as many as its appearances. -/
theorem Attends.run {before : Snapshot} (h : f.Attends before) {es : List Event}
    (hes : f.Undisturbed es) (key : Text) :
    (f.run es).Attends ((snapshots es).getLastD before) ∧
    (f.run es).tasksOf key = f.tasksOf key +
      ((before :: snapshots es).zip (snapshots es)).countP
        fun (before, s) => s.contains key && !before.contains key := by
  induction es generalizing f before with
  | nil => exact ⟨h, rfl⟩
  | cons e es ih =>
    obtain ⟨he, hes⟩ := hes
    cases e with
    | reconcile index nodes =>
      have hs := Snapshot.ofNodes_wellKeyed index nodes
      obtain ⟨hlast, hcount⟩ := ih (h.reconcile hs) hes
      have hsn : snapshots (.reconcile index nodes :: es) = .ofNodes index nodes :: snapshots es :=
        rfl
      rw [hsn, List.getLastD_cons]
      refine ⟨hlast, hcount.trans ?_⟩
      rw [reconcile_tasksOf hs, h.active, List.zip_cons_cons, List.countP_cons,
        Nat.add_assoc]
      exact congrArg (f.tasksOf key + ·) (Nat.add_comm _ _)
    | finish task how =>
      obtain ⟨hlast, hcount⟩ := ih (h.finish how he) hes
      have hsame : (f.finish task how).tasksOf key = f.tasksOf key :=
        congrArg (List.countP _) (finish_nodes f task how)
      rw [hsame] at hcount
      exact ⟨hlast, hcount⟩
    | collect task =>
      obtain ⟨hlast, hcount⟩ := ih (h.collect task) hes
      have hsame : (f.step (.collect task)).tasksOf key = f.tasksOf key := by
        rw [tasksOf, nodes, step_collect_members]
        rfl
      rw [hsame] at hcount
      exact ⟨hlast, hcount⟩
    | stopProbe key => exact he.elim
    | stopAll => exact he.elim

end Count

/-- After any run, a reconciliation does exactly what its snapshot asks for, doing it again changes
nothing, and no key is started while a task of it goes on that was not asked to stop. Notice of a
finished task forgets the key that still runs that very task, and no other. So, while no task ends
on its own, the running probes are those of the last snapshot whatever finishes and is noticed
meanwhile, and a task is created for a key whenever it appears. -/
theorem reconcile_spawns_and_stops (es : List Event) (index : Int) (nodes : List Node) :
    let f := run {} es
    let s := Snapshot.ofNodes index nodes
    Exact f s (f.reconcile s) ∧
    (f.reconcile s).fleet.reconcile s =
      { fleet := (f.reconcile s).fleet, started := [], stopped := [] } ∧
    (∀ (task : Nat) (m : Member), f.members[task]? = some m → m.node.key ∈ (f.reconcile s).started →
      m.stopRequested = true ∨ m.finish ≠ none) ∧
    (∀ (task : Nat) (key : Text), (f.step (.collect task)).task? key =
      if f.isUnfinished task = false ∧ f.task? key = some task then none else f.task? key) ∧
    ∀ events, Undisturbed {} events → ∀ key,
      (run {} events).isActive key = ((snapshots events).getLastD {}).contains key ∧
      (run {} events).tasksOf key = appearances key (snapshots events) := by
  intro f s
  have h : f.Orderly := run_orderly empty_orderly es
  have hs : s.WellKeyed := Snapshot.ofNodes_wellKeyed index nodes
  have hx := reconcile_exact h hs
  refine ⟨hx, reconcile_eq_self hs (reconcile_isActive h hs), ?_, step_collect_task? h, ?_⟩
  · intro task m hm hk
    by_contra hlive
    push Not at hlive
    have ha := (run_tracked empty_tracked empty_orderly es).mem_active h hm hlive.2
      (by simpa using hlive.1)
    rw [hx.started, List.mem_filter, Bool.not_eq_true', ← Bool.not_eq_true, isActive_iff] at hk
    exact hk.2 (List.mem_map_of_mem ha)
  · intro events he key
    obtain ⟨hlast, hcount⟩ := empty_attends.run he key
    refine ⟨hlast.active key, hcount.trans ?_⟩
    simp [tasksOf, Fleet.nodes, appearances]

/-- A node comes back while the task of its first probe still goes on. That task finishes and is
noticed afterwards, and the node is found once more. -/
def returning : List Event :=
  let node : Node := ⟨"cache", "10.0.0.1", 11211⟩
  [.reconcile 1 [node], .reconcile 2 [], .reconcile 3 [node], .finish 0 .returned, .collect 0,
    .reconcile 4 [node]]

/-- The notice leaves the second probe alone, so the last snapshot starts none. -/
theorem returning_counted :
    Undisturbed {} returning ∧
    (run {} returning).tasksOf "cache:10.0.0.1:11211" = 2 ∧
    (run {} returning).task? "cache:10.0.0.1:11211" = some 1 := by
  have hasked : (run {} (returning.take 3)).isAsked 0 = true := by decide +kernel
  have hes : Undisturbed {} returning :=
    ⟨trivial, trivial, trivial, hasked, trivial, trivial, trivial⟩
  have hcount := ((reconcile_spawns_and_stops [] 0 []).2.2.2.2 returning hes
    "cache:10.0.0.1:11211").2
  refine ⟨hes, hcount.trans ?_, ?_⟩
  · decide +kernel
  · decide +kernel

end FleetProbe.Fleet
