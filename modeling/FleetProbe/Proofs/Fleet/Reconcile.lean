import FleetProbe.Proofs.Fleet.Run
/-!
What a reconciliation does: it starts a probe for every key of the snapshot that has none, stops
the probe of every key that is gone, and leaves every other probe alone.
-/

namespace FleetProbe.Fleet

open Catalog

/-- Entries of a snapshot without a running probe. -/
def missing (f : Fleet) (ns : List (Text × Node)) : List (Text × Node) :=
  ns.filter fun e => !f.isActive e.1

/-- Running probes whose key is not in a snapshot. -/
def surplus (f : Fleet) (s : Snapshot) : List (Text × Nat) :=
  f.active.filter fun e => !s.contains e.1

theorem missing_start (f : Fleet) (n : Node) (ns : List (Text × Node))
    (hf : n.key ∉ f.keys) (hn : n.key ∉ ns.map Prod.fst) :
    (f.start n).missing ns = f.missing ns := by
  refine List.filter_congr ?_
  intro e he
  have hne : e.1 ≠ n.key := fun h => hn (h ▸ List.mem_map_of_mem he)
  have hiff : (f.start n).isActive e.1 = true ↔ f.isActive e.1 = true := by
    rw [isActive_iff, isActive_iff]
    simp [keys, start_active f n hf, hne]
  rw [Bool.eq_iff_iff.mpr hiff]

/-- The tasks of the missing nodes are created in their order, behind all tasks so far. -/
theorem startMissing_eq {f : Fleet} (ns : List (Text × Node)) (hd : (ns.map Prod.fst).Nodup)
    (hk : ∀ e ∈ ns, e.1 = e.2.key) :
    f.startMissing ns =
      ({ f with
          members := f.members ++ (f.missing ns).map fun e => { node := e.2 }
          active := f.active ++
            ((f.missing ns).zipIdx f.members.length).map fun (e, task) => (e.1, task) },
        ((f.missing ns).zipIdx f.members.length).map fun (e, task) => (task, e.2)) := by
  induction ns generalizing f with
  | nil => simp [startMissing, missing]
  | cons e es ih =>
    obtain ⟨key, n⟩ := e
    simp only [List.map_cons, List.nodup_cons] at hd
    have hes : ∀ e ∈ es, e.1 = e.2.key := fun e he => hk e (List.mem_cons_of_mem _ he)
    obtain rfl : key = n.key := hk (key, n) List.mem_cons_self
    by_cases ha : f.isActive n.key = true
    · have hm : f.missing ((n.key, n) :: es) = f.missing es := by simp [missing, ha]
      simp only [startMissing, ha, if_true, hm, ih hd.2 hes]
    · have hn : n.key ∉ f.keys := by rwa [← isActive_iff]
      have hm : f.missing ((n.key, n) :: es) = (n.key, n) :: f.missing es := by simp [missing, ha]
      have hs := missing_start f n es hn hd.1
      have hl : (f.start n).members = f.members ++ [{ node := n }] := rfl
      have hr : (f.start n).retiring = f.retiring := rfl
      simp only [startMissing, ha, hm, ih hd.2 hes, hs, start_active f n hn, hl, hr]
      simp [List.zipIdx_cons]

/-- Stopping some running probes tells each of their tasks so, in this order, and does nothing to
the others. -/
theorem stopProbes_eq {f : Fleet} (h : f.Orderly) (es : List (Text × Nat))
    (hm : ∀ e ∈ es, e ∈ f.active) (hd : (es.map Prod.fst).Nodup) :
    (f.stopProbes (es.map Prod.fst)).orders = es.map (fun e => .stop e.2) ∧
    (f.stopProbes (es.map Prod.fst)).fleet.active =
      f.active.filter (fun e => !decide (e.1 ∈ es.map Prod.fst)) ∧
    ∀ i, (f.stopProbes (es.map Prod.fst)).fleet.members[i]? = (f.members[i]?).map fun m : Member =>
      { m with stopRequested := m.stopRequested || decide (i ∈ es.map Prod.snd) } := by
  induction es generalizing f with
  | nil => simp [stopProbes]
  | cons e es ih =>
    obtain ⟨key, task⟩ := e
    simp only [List.map_cons, List.nodup_cons] at hd
    have hkt : (key, task) ∈ f.active := hm _ List.mem_cons_self
    have he := stopProbe_of_mem h hkt
    have hact : (stopProbe key f).fleet.active = f.active.filter fun e => e.1 != key := by rw [he]
    have hord : (stopProbe key f).orders = [.stop task] := by rw [he]
    have hmem : (stopProbe key f).fleet.members = (f.ask task).members := by rw [he]
    have hes : ∀ e ∈ es, e ∈ (stopProbe key f).fleet.active := by
      intro e hme
      rw [hact]
      refine List.mem_filter.mpr ⟨hm e (List.mem_cons_of_mem _ hme), ?_⟩
      have hne : e.1 ≠ key := fun hk => hd.1 (hk ▸ List.mem_map_of_mem hme)
      simpa using hne
    obtain ⟨ho, ha, hi⟩ := ih (stopProbe_orderly h key) hes hd.2
    rw [List.map_cons, stopProbes_cons]
    refine ⟨?_, ?_, ?_⟩
    · simp [Next.andThen, ho, hord]
    · simp only [Next.andThen, ha, hact, List.filter_filter, List.mem_cons]
      refine List.filter_congr fun e _ => ?_
      by_cases hk : e.1 = key <;> simp [hk]
    · intro i
      simp only [Next.andThen, hi, hmem, ask_getElem?, Option.map_map, List.map_cons, List.mem_cons]
      congr 1
      funext m
      by_cases ht : task = i
      · simp [ht]
      · simp [ht, Ne.symm ht]

/-- A reconciliation that does exactly what the snapshot asks for. -/
structure Exact (f : Fleet) (s : Snapshot) (r : Reconciliation) : Prop where
  started : r.started = s.keys.filter fun key => !f.isActive key
  stopped : r.stopped = f.keys.filter fun key => !s.contains key
  /-- One new task for each started key, none of them asked to stop, and no other. -/
  created : r.fleet.members.drop f.members.length =
    (f.missing s.nodes).map fun e => ({ node := e.2 } : Member)
  /-- Of the tasks so far, those of the stopped keys are asked to stop, and nothing else changes. -/
  asked : ∀ task (m : Member), f.members[task]? = some m → r.fleet.members[task]? = some
    { m with stopRequested :=
        m.stopRequested || decide (∃ key ∈ r.stopped, f.task? key = some task) }
  /-- Tasks are told to start in the order of the snapshot, and to stop in the order in which they
  were created. -/
  orders : ∃ tasks : List Nat, r.stopped.map f.task? = tasks.map some ∧ tasks.Pairwise (· < ·) ∧
    r.orders = ((f.missing s.nodes).zipIdx f.members.length).map
      (fun (e, task) => .start task e.2) ++ tasks.map .stop
  /-- A key in both keeps its task, which is not asked to stop. -/
  kept : ∀ key task, f.task? key = some task → s.contains key = true →
    r.fleet.task? key = some task ∧ r.fleet.isAsked task = false
  /-- A started key runs one of the new tasks. -/
  fresh : ∀ key ∈ r.started, ∃ task, f.members.length ≤ task ∧
    r.fleet.task? key = some task ∧ r.fleet.isAsked task = false
  active : ∀ key, r.fleet.isActive key = s.contains key

section Reconcile

variable {f : Fleet} {s : Snapshot}

theorem reconcile_started (hs : s.WellKeyed) :
    (f.reconcile s).started = s.keys.filter fun key => !f.isActive key := by
  have hk : (f.missing s.nodes).map (fun e => e.2.key) = (f.missing s.nodes).map Prod.fst :=
    List.map_congr_left fun e he => (hs.keyed e (List.mem_of_mem_filter he)).symm
  simp only [reconcile, startMissing_eq s.nodes hs.nodup hs.keyed, List.map_map]
  calc ((f.missing s.nodes).zipIdx f.members.length).map (fun x => x.1.2.key)
      = (((f.missing s.nodes).zipIdx f.members.length).map Prod.fst).map (fun e => e.2.key) := by
        rw [List.map_map]; rfl
    _ = (f.missing s.nodes).map Prod.fst := by rw [List.zipIdx_map_fst, hk]
    _ = s.keys.filter fun key => !f.isActive key := by
        rw [missing, Snapshot.keys, List.filter_map]; rfl

/-- Started keys are in the snapshot, so only probes that ran before are surplus. -/
theorem surplus_startMissing (hs : s.WellKeyed) :
    (f.startMissing s.nodes).1.surplus s = f.surplus s := by
  rw [startMissing_eq s.nodes hs.nodup hs.keyed]
  simp only [surplus, List.filter_append]
  refine (congrArg _ (List.filter_eq_nil_iff.mpr ?_)).trans (List.append_nil _)
  intro e he
  obtain ⟨⟨d, task⟩, hd, rfl⟩ := List.mem_map.mp he
  have hm : d ∈ s.nodes := List.mem_of_mem_filter (List.fst_mem_of_mem_zipIdx hd)
  have hc : s.contains d.1 = true := (s.contains_iff d.1).mpr (List.mem_map_of_mem hm)
  simp [hc]

theorem map_fst_surplus (f : Fleet) (s : Snapshot) :
    (f.surplus s).map Prod.fst = f.keys.filter fun key => !s.contains key := by
  rw [surplus, keys, List.filter_map]
  rfl

theorem reconcile_stopped (hs : s.WellKeyed) :
    (f.reconcile s).stopped = (f.surplus s).map Prod.fst := by
  rw [← surplus_startMissing hs, map_fst_surplus]
  rfl

theorem reconcile_next (hs : s.WellKeyed) :
    (f.reconcile s).fleet =
      ((f.startMissing s.nodes).1.stopProbes ((f.surplus s).map Prod.fst)).fleet ∧
    (f.reconcile s).orders = ((f.startMissing s.nodes).2.map fun (task, n) => .start task n) ++
      ((f.startMissing s.nodes).1.stopProbes ((f.surplus s).map Prod.fst)).orders := by
  rw [← surplus_startMissing hs, map_fst_surplus]
  exact ⟨rfl, rfl⟩

theorem startMissing_surplus (hs : s.WellKeyed) :
    ∀ e ∈ f.surplus s, e ∈ (f.startMissing s.nodes).1.active := by
  rw [← surplus_startMissing hs]
  exact fun e he => List.mem_of_mem_filter he

theorem surplus_nodup (h : f.Orderly) : ((f.surplus s).map Prod.fst).Nodup :=
  h.nodup.sublist (List.filter_sublist.map _)

theorem map_task?_surplus (h : f.Orderly) :
    ((f.surplus s).map Prod.fst).map f.task? = ((f.surplus s).map Prod.snd).map some := by
  rw [List.map_map, List.map_map]
  refine List.map_congr_left fun e he => ?_
  exact (task?_eq_some_iff f h.nodup e.1 e.2).mpr (List.mem_of_mem_filter he)

/-- The running probes that are wanted stay where they are, and the new ones stand behind them. -/
theorem reconcile_active (h : f.Orderly) (hs : s.WellKeyed) :
    (f.reconcile s).fleet.active = f.active.filter (fun e => s.contains e.1) ++
      ((f.missing s.nodes).zipIdx f.members.length).map fun (e, task) => (e.1, task) := by
  rw [(reconcile_next hs).1, (stopProbes_eq (startMissing_orderly h s.nodes hs.keyed) _
    (startMissing_surplus hs) (surplus_nodup h)).2.1, startMissing_eq s.nodes hs.nodup hs.keyed]
  simp only [List.filter_append, map_fst_surplus]
  congr 1
  · refine List.filter_congr fun e he => ?_
    have hk : e.1 ∈ f.keys := List.mem_map_of_mem he
    simp [hk]
  · refine List.filter_eq_self.mpr fun e he => ?_
    obtain ⟨⟨d, task⟩, hd, rfl⟩ := List.mem_map.mp he
    have hm : d ∈ s.nodes := List.mem_of_mem_filter (List.fst_mem_of_mem_zipIdx hd)
    have hc : s.contains d.1 = true := (s.contains_iff d.1).mpr (List.mem_map_of_mem hm)
    simp [hc]

theorem reconcile_member (h : f.Orderly) (hs : s.WellKeyed) (i : Nat) :
    (f.reconcile s).fleet.members[i]? =
      ((f.members ++ (f.missing s.nodes).map fun e => ({ node := e.2 } : Member))[i]?).map
        fun m => { m with
          stopRequested := m.stopRequested || decide (i ∈ (f.surplus s).map Prod.snd) } := by
  rw [(reconcile_next hs).1, (stopProbes_eq (startMissing_orderly h s.nodes hs.keyed) _
    (startMissing_surplus hs) (surplus_nodup h)).2.2, startMissing_eq s.nodes hs.nodup hs.keyed]

theorem mem_surplus_iff (h : f.Orderly) (hs : s.WellKeyed) (task : Nat) :
    task ∈ (f.surplus s).map Prod.snd ↔
      ∃ key ∈ (f.reconcile s).stopped, f.task? key = some task := by
  rw [reconcile_stopped hs]
  constructor
  · intro ht
    obtain ⟨e, he, rfl⟩ := List.mem_map.mp ht
    exact ⟨e.1, List.mem_map_of_mem he,
      (task?_eq_some_iff f h.nodup e.1 e.2).mpr (List.mem_of_mem_filter he)⟩
  · rintro ⟨key, hk, ht⟩
    obtain ⟨e, he, rfl⟩ := List.mem_map.mp hk
    have hm := (task?_eq_some_iff f h.nodup e.1 e.2).mpr (List.mem_of_mem_filter he)
    rw [hm, Option.some.injEq] at ht
    exact ht ▸ List.mem_map_of_mem he

theorem reconcile_keys (h : f.Orderly) (hs : s.WellKeyed) :
    (f.reconcile s).fleet.keys =
      f.keys.filter s.contains ++ s.keys.filter fun key => !f.isActive key := by
  have hz : ((f.missing s.nodes).zipIdx f.members.length).map (fun x => x.1.1) =
      (((f.missing s.nodes).zipIdx f.members.length).map Prod.fst).map Prod.fst := by
    rw [List.map_map]
    rfl
  rw [keys, reconcile_active h hs, List.map_append, List.map_map]
  simp only [Function.comp_def, hz, List.zipIdx_map_fst]
  rw [missing, keys, Snapshot.keys, List.filter_map, List.filter_map]
  rfl

theorem reconcile_isActive (h : f.Orderly) (hs : s.WellKeyed) (key : Text) :
    (f.reconcile s).fleet.isActive key = s.contains key := by
  rw [Bool.eq_iff_iff, isActive_iff, reconcile_keys h hs, List.mem_append, List.mem_filter,
    List.mem_filter, ← isActive_iff, s.contains_iff]
  cases f.isActive key <;> simp

theorem reconcile_exact (h : f.Orderly) (hs : s.WellKeyed) : Exact f s (f.reconcile s) := by
  have hg := reconcile_orderly h s hs
  have hlt : ∀ task ∈ (f.surplus s).map Prod.snd, task < f.members.length := by
    intro task ht
    obtain ⟨e, he, rfl⟩ := List.mem_map.mp ht
    exact h.task_lt (List.mem_of_mem_filter he)
  refine { started := reconcile_started hs, active := reconcile_isActive h hs, stopped := ?stopped,
           created := ?created, asked := ?asked, orders := ?orders, kept := ?kept, fresh := ?fresh }
  case stopped => rw [reconcile_stopped hs, map_fst_surplus]
  case created =>
    refine List.ext_getElem? fun i => ?_
    have hi : f.members.length + i ∉ (f.surplus s).map Prod.snd := fun hm => by
      have := hlt _ hm
      omega
    rw [List.getElem?_drop, reconcile_member h hs, List.getElem?_append_right (by omega)]
    simp [hi]
    rfl
  case asked =>
    intro task m hm
    have hl := (List.getElem?_eq_some_iff.mp hm).1
    rw [reconcile_member h hs, List.getElem?_append_left hl, hm, Option.map_some]
    simp only [mem_surplus_iff h hs]
  case orders =>
    refine ⟨(f.surplus s).map Prod.snd, ?_, h.sorted.sublist (List.filter_sublist.map _), ?_⟩
    · rw [reconcile_stopped hs, map_task?_surplus h]
    · rw [(reconcile_next hs).2, (stopProbes_eq (startMissing_orderly h s.nodes hs.keyed) _
        (startMissing_surplus hs) (surplus_nodup h)).1, startMissing_eq s.nodes hs.nodup hs.keyed]
      simp [Function.comp_def]
  case kept =>
    intro key task ht hc
    have hm := (task?_eq_some_iff f h.nodup key task).mp ht
    have hm' : (key, task) ∈ (f.reconcile s).fleet.active := by
      rw [reconcile_active h hs]
      exact List.mem_append_left _ (List.mem_filter.mpr ⟨hm, hc⟩)
    exact ⟨(task?_eq_some_iff _ hg.nodup key task).mpr hm', hg.isAsked_eq_false hm'⟩
  case fresh =>
    intro key hk
    rw [reconcile_started hs, List.mem_filter, Bool.not_eq_true', ← Bool.not_eq_true,
      isActive_iff] at hk
    have hr : key ∈ (f.reconcile s).fleet.keys := by
      rw [← isActive_iff, reconcile_isActive h hs, s.contains_iff]
      exact hk.1
    obtain ⟨⟨_, task⟩, hm, rfl⟩ := List.mem_map.mp hr
    refine ⟨task, ?_, (task?_eq_some_iff _ hg.nodup _ task).mpr hm, hg.isAsked_eq_false hm⟩
    rw [reconcile_active h hs, List.mem_append] at hm
    rcases hm with hm | hm
    · exact absurd (List.mem_map_of_mem (List.mem_of_mem_filter hm)) hk.2
    · obtain ⟨e, he, heq⟩ := List.mem_map.mp hm
      have hle := List.le_snd_of_mem_zipIdx he
      simp only [Prod.mk.injEq] at heq
      omega

/-- A fleet that runs what the snapshot holds is left as it is. -/
theorem reconcile_eq_self (hs : s.WellKeyed) (ha : ∀ key, f.isActive key = s.contains key) :
    f.reconcile s = { fleet := f, started := [], stopped := [] } := by
  have hm : f.missing s.nodes = [] := by
    refine List.filter_eq_nil_iff.mpr fun e he => ?_
    have hc : s.contains e.1 = true := (s.contains_iff e.1).mpr (List.mem_map_of_mem he)
    simp [ha, hc]
  have hf : f.keys.filter (fun key => !s.contains key) = [] := by
    refine List.filter_eq_nil_iff.mpr fun key hk => ?_
    have hc : s.contains key = true := ha key ▸ (isActive_iff f key).mpr hk
    simp [hc]
  have hst := startMissing_eq (f := f) s.nodes hs.nodup hs.keyed
  simp only [hm, List.zipIdx_nil, List.map_nil, List.append_nil] at hst
  simp [reconcile, hst, hf, stopProbes]

end Reconcile

end FleetProbe.Fleet
