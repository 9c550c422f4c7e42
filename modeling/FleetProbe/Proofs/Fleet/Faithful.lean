import FleetProbe.Proofs.Catalog.Exact
import FleetProbe.Proofs.Catalog.Identity
import FleetProbe.Proofs.Fleet.Enlisting
import FleetProbe.Proofs.Fleet.Patrol
import FleetProbe.Proofs.Fleet.Reconcile
import FleetProbe.Proofs.Probe.Survival
/-!
Whether a fleet probes what the polls of the catalog find. Probes go by the keys of nodes, so a probe
that is there already is taken for that of any node with its key. As long as no two of the nodes
that were ever found have one key, each is in its snapshot, and is the one that is probed.
-/

namespace FleetProbe

open Catalog Metrics Probe

namespace Patrol

variable {α : Type}

/-- The nodes of all tasks ever created, as the tasks know them. -/
def nodes (p : Patrol α) : List Node := p.crew.tasks.map (·.node)

/-- What can happen to a patrol whose snapshots all come from polls of the catalog. -/
inductive Happening where
  | poll (q : Survey)
  | stopProbe (key : Text)
  | stopAll
  | probe (task : Nat) (e : Probe.Event)
  | collect (task : Nat)

/-- All nodes extracted in a run. -/
def found (hs : List (α × Happening)) : List Node :=
  hs.flatMap fun h =>
    match h.2 with
    | .poll q => q.nodes
    | _ => []

section Steps

variable [Quantity α]

def meet (p : Patrol α) (now : α) : Happening → Patrol α
  | .poll q =>
    match q.snapshot? with
    | some s => p.follow now (p.fleet.reconcile s).toNext
    | none => p
  | .stopProbe key => p.step now (.stopProbe key)
  | .stopAll => p.step now .stopAll
  | .probe task e => p.step now (.probe task e)
  | .collect task => p.step now (.collect task)

/-- A run of what happens, each thing at its own time. -/
def walk (p : Patrol α) (hs : List (α × Happening)) : Patrol α :=
  hs.foldl (fun p (now, h) => p.meet now h) p

end Steps

/-- What a run keeps, where all nodes found are among some: the fleet is orderly, and its tasks are
those that it thinks it has. -/
structure Mirrors (among : List Node) (p : Patrol α) : Prop where
  orderly : p.fleet.Orderly
  nodes : p.nodes = p.fleet.nodes
  found : ∀ n ∈ p.fleet.nodes, n ∈ among

/-- The probes are those of a snapshot: under each of its keys the very node is probed that it holds
there, and no other key has a probe. -/
structure Matches (p : Patrol α) (s : Snapshot) : Prop where
  probed : ∀ key n, (key, n) ∈ s.nodes → ∃ task t, p.fleet.task? key = some task ∧
    p.crew.tasks[task]? = some t ∧ t.node = n
  only : ∀ key, p.fleet.isActive key = s.contains key

variable {among : List Node} {p : Patrol α}

/-- When equal keys mean equal nodes, the probes after a poll are those of its snapshot. -/
theorem matches_of_mirrors (h : p.Mirrors among) (hapart : Node.Apart among) {s : Snapshot}
    (hkeyed : s.WellKeyed) (hs : ∀ e ∈ s.nodes, e.2 ∈ among)
    (honly : ∀ key, p.fleet.isActive key = s.contains key) : p.Matches s := by
  refine ⟨fun key n hn => ?_, honly⟩
  have hactive : p.fleet.isActive key = true := by
    rw [honly, s.contains_iff]
    exact List.mem_map_of_mem hn
  obtain ⟨task, htask⟩ := Option.isSome_iff_exists.mp hactive
  have hm := (Fleet.task?_eq_some_iff p.fleet h.orderly.nodup key task).mp htask
  obtain ⟨m, hmember, hkey, -⟩ := h.orderly.sound key task hm
  have hnode : p.nodes[task]? = some m.node := by
    rw [h.nodes, Fleet.nodes, List.getElem?_map, hmember]
    rfl
  rw [nodes, List.getElem?_map] at hnode
  obtain ⟨t, ht, htnode⟩ := Option.map_eq_some_iff.mp hnode
  have hamong : m.node ∈ among :=
    h.found _ (List.mem_map_of_mem (List.mem_of_getElem? hmember))
  have hsame : m.node = n := Node.apart_iff.mp hapart _ hamong n (hs _ hn)
    (hkey.trans (hkeyed.keyed _ hn))
  exact ⟨task, t, htask, ht, htnode.trans hsame⟩

/-- Between two patrols the fleet has the same tasks and the same running probes. -/
structure Upkeep (p q : Patrol α) : Prop where
  nodes : q.fleet.nodes = p.fleet.nodes
  active : q.fleet.active = p.fleet.active
  orderly : p.fleet.Orderly → q.fleet.Orderly

variable [Quantity α]

theorem deliver_upkeep (p : Patrol α) (now : α) (task : Nat) (e : Probe.Event) :
    (p.deliver now task e).nodes = p.nodes ∧ Upkeep p (p.deliver now task e) := by
  constructor
  · cases ht : p.crew.tasks[task]? with
    | none => rw [nodes, nodes, (deliver_of_none ht now e).1]
    | some t =>
      have hnode : (t.step now e).task.node = t.node := (Task.step_same t now e).2.1
      rw [nodes, nodes, (deliver_of_some ht now e).1, List.map_set, hnode]
      obtain ⟨hi, rfl⟩ := List.getElem?_eq_some_iff.mp ht
      rw [← List.getElem_map (fun t : Probe.Task α => t.node) (h := by simpa using hi)]
      exact List.set_getElem_self _
  · have hfleet : (p.deliver now task e).fleet = p.fleet ∨
        ∃ how, (p.deliver now task e).fleet = p.fleet.finish task how := by
      simp only [deliver]
      split
      · exact .inr ⟨_, rfl⟩
      · exact .inl rfl
    obtain hfleet | ⟨how, hfleet⟩ := hfleet
    · exact ⟨by rw [hfleet], by rw [hfleet], fun h => by rwa [hfleet]⟩
    · refine ⟨?_, ?_, fun h => ?_⟩
      · rw [hfleet, Fleet.finish_nodes]
      · rw [hfleet]
        rfl
      · rw [hfleet]
        exact Fleet.finish_orderly h task how

theorem obey_upkeep (p : Patrol α) (now : α) (o : Fleet.Order) :
    (p.obey now o).nodes = p.nodes ++ o.node?.toList ∧ Upkeep p (p.obey now o) := by
  cases o with
  | start task n =>
    refine ⟨?_, rfl, rfl, id⟩
    rw [nodes, nodes, obey, Crew.spawn, List.map_append]
    rfl
  | stop task =>
    have hnodes : (p.obey now (.stop task)).nodes = p.nodes :=
      Fleet.map_modify p.crew.tasks task fun _ => rfl
    exact ⟨hnodes.trans (List.append_nil p.nodes).symm, rfl, rfl, id⟩
  | cancel task =>
    obtain ⟨hnodes, hupkeep⟩ := deliver_upkeep p now task .cancel
    exact ⟨hnodes.trans (List.append_nil p.nodes).symm, hupkeep⟩

/-- Orders create the tasks that the fleet has taken up with them. -/
theorem foldl_obey_mirrors (orders : List Fleet.Order) (now : α) (ho : p.fleet.Orderly)
    (hn : p.nodes ++ orders.filterMap Fleet.Order.node? = p.fleet.nodes)
    (hf : ∀ n ∈ p.fleet.nodes, n ∈ among) :
    (orders.foldl (obey now) p).Mirrors among ∧
      (orders.foldl (obey now) p).fleet.active = p.fleet.active := by
  induction orders generalizing p with
  | nil =>
    rw [List.filterMap_nil, List.append_nil] at hn
    exact ⟨⟨ho, hn, hf⟩, rfl⟩
  | cons o orders ih =>
    obtain ⟨hnodes, hupkeep⟩ := obey_upkeep p now o
    obtain ⟨hmirrors, hactive⟩ := ih (p := p.obey now o) (hupkeep.orderly ho)
      (by rw [hnodes, hupkeep.nodes, ← hn, Fleet.Order.nodes_cons, List.append_assoc])
      (by rwa [hupkeep.nodes])
    exact ⟨hmirrors, hactive.trans hupkeep.active⟩

theorem follow_mirrors (h : p.Mirrors among) (now : α) {new : List Node} {next : Fleet.Next}
    (henlists : p.fleet.Enlists new next) (ho : next.fleet.Orderly) (hnew : ∀ n ∈ new, n ∈ among) :
    (p.follow now next).Mirrors among ∧
      (p.follow now next).fleet.active = next.fleet.active := by
  refine foldl_obey_mirrors (p := { p with fleet := next.fleet }) next.orders now ho ?_ ?_
  · rw [henlists.orders]
    exact (congrArg (· ++ new) h.nodes).trans henlists.nodes.symm
  · intro n hn
    rw [henlists.nodes] at hn
    obtain hn | hn := List.mem_append.mp hn
    · exact h.found n hn
    · exact hnew n hn

theorem poll_mirrors (h : p.Mirrors among) (now : α) {q : Survey} {s : Snapshot}
    (hs : q.snapshot? = some s) (hfound : ∀ n ∈ q.nodes, n ∈ among) :
    (p.follow now (p.fleet.reconcile s).toNext).Mirrors among ∧
      ∀ key, (p.follow now (p.fleet.reconcile s).toNext).fleet.isActive key = s.contains key := by
  have hkeyed : s.WellKeyed := by
    rw [Survey.snapshot?_eq_some hs]
    exact Snapshot.ofNodes_wellKeyed _ _
  have hnodes : ∀ e ∈ s.nodes, e.2 ∈ among := by
    intro e he
    rw [Survey.snapshot?_eq_some hs] at he
    exact hfound _ (Snapshot.mem_of_mem_ofNodes he)
  obtain ⟨hmirrors, hactive⟩ := follow_mirrors h now (p.fleet.reconcile_enlists s)
    (Fleet.reconcile_orderly h.orderly s hkeyed) fun n hn => by
      obtain ⟨e, he, rfl⟩ := List.mem_map.mp (Fleet.startMissing_subset p.fleet s.nodes n hn)
      exact hnodes e he
  refine ⟨hmirrors, fun key => ?_⟩
  rw [← Fleet.reconcile_isActive h.orderly hkeyed key, Fleet.isActive, Fleet.isActive, Fleet.task?,
    Fleet.task?, hactive]

theorem meet_mirrors (h : p.Mirrors among) (now : α) {x : Happening}
    (hfound : ∀ n ∈ found [(now, x)], n ∈ among) : (p.meet now x).Mirrors among := by
  cases x with
  | poll q =>
    rw [meet]
    split
    · next s hs => exact (poll_mirrors h now hs fun n hn => hfound n (by simpa [found] using hn)).1
    · exact h
  | stopProbe key =>
    exact (follow_mirrors h now (Fleet.stopProbe_enlists key p.fleet)
      (Fleet.stopProbe_orderly h.orderly key) (by simp)).1
  | stopAll =>
    exact (follow_mirrors h now (Fleet.stopProbes_enlists p.fleet.keys p.fleet)
      (Fleet.stopProbes_orderly h.orderly p.fleet.keys) (by simp)).1
  | probe task e =>
    obtain ⟨hnodes, hupkeep⟩ := deliver_upkeep p now task e
    refine ⟨hupkeep.orderly h.orderly, ?_, fun n hn => h.found n (hupkeep.nodes ▸ hn)⟩
    exact hnodes.trans (h.nodes.trans hupkeep.nodes.symm)
  | collect task =>
    rw [meet, step]
    split
    · exact h
    · have hnodes := Fleet.collect_nodes p.fleet task
      exact ⟨Fleet.collect_orderly h.orderly task, h.nodes.trans hnodes.symm,
        fun n hn => h.found n (hnodes ▸ hn)⟩

theorem walk_mirrors (h : p.Mirrors among) {hs : List (α × Happening)}
    (hfound : ∀ n ∈ found hs, n ∈ among) : (p.walk hs).Mirrors among := by
  induction hs generalizing p with
  | nil => exact h
  | cons x hs ih =>
    have hsplit : found (x :: hs) = found [x] ++ found hs := by
      rw [found, ← List.singleton_append, List.flatMap_append]
      rfl
    rw [hsplit] at hfound
    exact ih (meet_mirrors h x.1 fun n hn => hfound n (List.mem_append_left _ hn))
      fun n hn => hfound n (List.mem_append_right _ hn)

/-- What a run should do with the nodes that its polls find. -/
structure Faithful (config : Probe.Config α) (bounds : List α) (hs : List (α × Happening)) :
    Prop where
  /-- Two nodes that were found have the same key only if they are equal. -/
  identity : ∀ n ∈ found hs, ∀ m ∈ found hs, n.key = m.key → n = m
  /-- A snapshot has every node that its poll found. -/
  kept : ∀ now q s, (now, .poll q) ∈ hs → q.snapshot? = some s →
    ∀ n ∈ q.nodes, (n.key, n) ∈ s.nodes
  /-- After a poll the probes are those of its snapshot, whatever came before. -/
  matched : ∀ before now q after s, hs = before ++ (now, .poll q) :: after →
    q.snapshot? = some s → (((fresh config bounds).walk before).meet now (.poll q)).Matches s

/-- **No node is taken for another as long as none shifts to another.** In every run, whatever the
catalog answers and the tasks meet, the nodes that are found have keys of their own, are all in
their snapshots, and are those that are probed, exactly when no two of them have names and addresses
that part the same text at different colons. -/
theorem faithful_iff (config : Probe.Config α) (bounds : List α) (hs : List (α × Happening)) :
    Faithful config bounds hs ↔ Node.Apart (found hs) := by
  constructor
  · intro h
    exact Node.apart_iff.mpr h.identity
  · intro hapart
    have hpoll {now : α} {q : Survey} (hq : (now, .poll q) ∈ hs) : ∀ n ∈ q.nodes, n ∈ found hs :=
      fun n hn => List.mem_flatMap.mpr ⟨(now, .poll q), hq, hn⟩
    refine ⟨Node.apart_iff.mp hapart, fun now q s hq hsnapshot n hn => ?_, ?_⟩
    · have hown : Node.Apart q.nodes :=
        fun a ha b hb => hapart a (hpoll hq a ha) b (hpoll hq b hb)
      rw [Survey.snapshot?_eq_some hsnapshot]
      exact Snapshot.mem_ofNodes hown hn
    · rintro before now q after s rfl hsnapshot
      have hempty : Mirrors (found (before ++ (now, .poll q) :: after)) (fresh config bounds) :=
        ⟨Fleet.empty_orderly, rfl, fun n hn => by cases hn⟩
      have hearlier : ∀ n ∈ found before, n ∈ found (before ++ (now, .poll q) :: after) := by
        intro n hn
        rw [found, List.flatMap_append]
        exact List.mem_append_left _ hn
      have hbefore := walk_mirrors hempty hearlier
      have hq := hpoll (List.mem_append_right before List.mem_cons_self)
      obtain ⟨hmirrors, honly⟩ := poll_mirrors hbefore now hsnapshot hq
      have hkeyed : s.WellKeyed := by
        rw [Survey.snapshot?_eq_some hsnapshot]
        exact Snapshot.ofNodes_wellKeyed _ _
      rw [meet, hsnapshot]
      refine matches_of_mirrors hmirrors hapart hkeyed (fun e he => hq _ ?_) honly
      rw [Survey.snapshot?_eq_some hsnapshot] at he
      exact Snapshot.mem_of_mem_ofNodes he

/-- A poll that finds one service with one node. -/
def single (previous : Int) (name address : String) : Survey where
  source := ⟨"http://c", "1s"⟩
  previous
  tag := "m"
  answers := [
    Listing.proper ("\x7b\"" ++ name ++ "\": [\"m\"]\x7d"),
    Listing.proper ("[\x7b\"Address\": \"" ++ address ++ "\", \"ServicePort\": 11211\x7d]")]

/-- The second node has the key of the first, which is gone when it comes. -/
def takeover : List (Rat × Happening) :=
  [(0, .poll (single 0 "cache" "2001:db8::1")), (1, .poll (single 5 "cache:2001" "db8::1"))]

/-- It is then not probed: the probe of the node that is gone is taken for its own. -/
theorem takeover_not_faithful : ¬ Faithful Config.secondly [] takeover := by
  intro h
  have hsnapshot : (single 5 "cache:2001" "db8::1").snapshot? =
      some ⟨5, [("cache:2001:db8::1:11211", ⟨"cache:2001", "db8::1", 11211⟩)]⟩ := by
    decide +kernel
  obtain ⟨task, t, -, ht, hnode⟩ := (h.matched [(0, .poll (single 0 "cache" "2001:db8::1"))] 1 _ []
    _ rfl hsnapshot).probed _ _ (List.mem_singleton_self _)
  have hnodes : ((((fresh Config.secondly []).walk
      [(0, .poll (single 0 "cache" "2001:db8::1"))]).meet 1
        (.poll (single 5 "cache:2001" "db8::1"))).crew.tasks.map (·.node)) =
      [⟨"cache", "2001:db8::1", 11211⟩] := by
    decide +kernel
  have hmem := List.mem_map_of_mem (f := fun t : Probe.Task Rat => t.node) (List.mem_of_getElem? ht)
  rw [hnodes, hnode, List.mem_singleton] at hmem
  exact absurd hmem (by decide)

end Patrol

end FleetProbe
