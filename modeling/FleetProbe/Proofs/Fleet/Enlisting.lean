import FleetProbe.Proofs.Fleet.Run
/-!
The nodes that a fleet ever created tasks for. Reconciliations alone add to them, and they add just
the nodes whose tasks they tell to start.
-/

namespace FleetProbe.Fleet

open Catalog

/-- The nodes of all tasks ever created. -/
def nodes (f : Fleet) : List Node := f.members.map (·.node)

def Order.node? : Order → Option Node
  | .start _ n => some n
  | .stop _ | .cancel _ => none

theorem Order.nodes_cons (o : Order) (orders : List Order) :
    (o :: orders).filterMap Order.node? = o.node?.toList ++ orders.filterMap Order.node? := by
  rw [List.filterMap_eq_flatMap_toList, List.flatMap_cons, ← List.filterMap_eq_flatMap_toList]

/-- A change of one element that leaves a property of it alone leaves those of all alone. -/
theorem map_modify {A B : Type} {f : A → B} {change : A → A} (as : List A) (i : Nat)
    (h : ∀ a, f (change a) = f a) : (as.modify i change).map f = as.map f := by
  refine List.ext_getElem? fun j => ?_
  rw [List.getElem?_map, List.getElem?_map, List.getElem?_modify]
  split
  · cases as[j]? with
    | none => rfl
    | some a => exact congrArg some (h a)
  · simp

theorem ask_nodes (f : Fleet) (task : Nat) : (f.ask task).nodes = f.nodes :=
  map_modify f.members task fun _ => rfl

theorem finish_nodes (f : Fleet) (task : Nat) (how : Finish) :
    (f.finish task how).nodes = f.nodes := map_modify f.members task fun _ => rfl

theorem collect_nodes (f : Fleet) (task : Nat) : (f.collect task).fleet.nodes = f.nodes := by
  unfold collect
  split
  · rfl
  · rfl

/-- The tasks that a step creates are those that it tells to start. -/
structure Enlists (f : Fleet) (new : List Node) (next : Next) : Prop where
  nodes : next.fleet.nodes = f.nodes ++ new
  orders : next.orders.filterMap Order.node? = new

theorem stopProbe_enlists (key : Text) (f : Fleet) : Enlists f [] (stopProbe key f) := by
  have hsame {next : Next} (hn : next.fleet.nodes = f.nodes)
      (ho : next.orders.filterMap Order.node? = []) : Enlists f [] next :=
    ⟨hn.trans (List.append_nil f.nodes).symm, ho⟩
  unfold stopProbe
  split
  · exact hsame rfl rfl
  · next task _ =>
    simp only
    split
    · split
      · exact hsame rfl rfl
      · exact hsame rfl rfl
    · refine hsame ((ask_nodes _ task).trans ?_) rfl
      split
      · rfl
      · rfl

theorem stopProbes_enlists (keys : List Text) (f : Fleet) : Enlists f [] (f.stopProbes keys) := by
  induction keys generalizing f with
  | nil => exact ⟨(List.append_nil f.nodes).symm, rfl⟩
  | cons key keys ih =>
    have hfirst := stopProbe_enlists key f
    have hrest := ih (stopProbe key f).fleet
    have hnodes := hfirst.nodes
    rw [List.append_nil] at hnodes
    rw [stopProbes_cons]
    refine ⟨?_, ?_⟩
    · rw [← hnodes]
      exact hrest.nodes
    · rw [Next.andThen, List.filterMap_append, hfirst.orders, hrest.orders, List.append_nil]

theorem startMissing_nodes (f : Fleet) (ns : List (Text × Node)) :
    (f.startMissing ns).1.nodes = f.nodes ++ (f.startMissing ns).2.map Prod.snd := by
  induction ns generalizing f with
  | nil => exact (List.append_nil f.nodes).symm
  | cons e ns ih =>
    rw [startMissing]
    split
    · exact ih f
    · have hstart : (f.start e.2).nodes = f.nodes ++ [e.2] := by
        rw [nodes, nodes, start, List.map_append]
        rfl
      have hrest := ih (f.start e.2)
      rw [hstart, List.append_assoc] at hrest
      exact hrest

/-- Only nodes of the snapshot are started. -/
theorem startMissing_subset (f : Fleet) (ns : List (Text × Node)) :
    ∀ n ∈ (f.startMissing ns).2.map Prod.snd, n ∈ ns.map Prod.snd := by
  induction ns generalizing f with
  | nil => simp [startMissing]
  | cons e ns ih =>
    intro n hn
    rw [startMissing] at hn
    split at hn
    · exact List.mem_cons_of_mem _ (ih f n hn)
    · obtain rfl | hn := List.mem_cons.mp hn
      · exact List.mem_cons_self
      · exact List.mem_cons_of_mem _ (ih _ n hn)

theorem reconcile_enlists (f : Fleet) (s : Snapshot) :
    Enlists f ((f.startMissing s.nodes).2.map Prod.snd) (f.reconcile s).toNext := by
  have hstopped := stopProbes_enlists
    ((f.startMissing s.nodes).1.keys.filter fun key => !s.contains key) (f.startMissing s.nodes).1
  refine ⟨?_, ?_⟩
  · rw [← startMissing_nodes]
    exact hstopped.nodes.trans (List.append_nil _)
  · simp only [reconcile, List.filterMap_append, List.filterMap_map, hstopped.orders,
      List.append_nil]
    exact congrFun List.filterMap_eq_map _

end FleetProbe.Fleet
