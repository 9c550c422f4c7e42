import Mathlib.Data.List.Induction
import Mathlib.Data.List.Nodup
import FleetProbe.Catalog.Node
/-!
A snapshot holds every key once, and under each key a node that has it.
-/

namespace FleetProbe.Catalog.Snapshot

def keys (s : Snapshot) : List Text := s.nodes.map Prod.fst

/-- The snapshot of some nodes, added one after the other. -/
def ofNodes (index : Int) (nodes : List Node) : Snapshot := nodes.foldl add { index }

structure WellKeyed (s : Snapshot) : Prop where
  nodup : s.keys.Nodup
  keyed : ∀ e ∈ s.nodes, e.1 = e.2.key

theorem contains_iff (s : Snapshot) (key : Text) : s.contains key = true ↔ key ∈ s.keys := by
  simp [contains, keys]

section Put

variable {β : Type}

theorem put_of_notMem (key : Text) (b : β) (es : List (Text × β)) (h : key ∉ es.map Prod.fst) :
    put key b es = es ++ [(key, b)] := by
  induction es with
  | nil => rfl
  | cons e es ih =>
    obtain ⟨k, c⟩ := e
    simp only [List.map_cons, List.mem_cons, not_or] at h
    have hk : k ≠ key := fun he => h.1 he.symm
    simp [put, hk, ih h.2]

/-- A known key keeps its place. -/
theorem map_fst_put (key : Text) (b : β) (es : List (Text × β)) :
    (put key b es).map Prod.fst =
      if key ∈ es.map Prod.fst then es.map Prod.fst else es.map Prod.fst ++ [key] := by
  induction es with
  | nil => rfl
  | cons e es ih =>
    obtain ⟨k, c⟩ := e
    by_cases hk : k = key
    · simp [put, hk]
    · have hk' : key ≠ k := fun he => hk he.symm
      simp only [put, hk, if_false, List.map_cons, ih, List.mem_cons, hk', false_or]
      split_ifs <;> rfl

theorem mem_put {key : Text} {b : β} {es : List (Text × β)} {e : Text × β}
    (h : e ∈ put key b es) : e = (key, b) ∨ e ∈ es := by
  induction es with
  | nil => simpa [put] using h
  | cons d es ih =>
    obtain ⟨k, c⟩ := d
    by_cases hk : k = key
    · simp only [put, hk, if_true, List.mem_cons] at h
      rcases h with h | h
      · exact .inl h
      · exact .inr (List.mem_cons_of_mem _ h)
    · simp only [put, hk, if_false, List.mem_cons] at h
      rcases h with h | h
      · exact .inr (h ▸ List.mem_cons_self)
      · rcases ih h with h | h
        · exact .inl h
        · exact .inr (List.mem_cons_of_mem _ h)

/-- Where no key stands twice, the entry put last is the only one of its key. -/
theorem mem_put_nodup {key : Text} {b : β} {es : List (Text × β)} {e : Text × β}
    (hes : (es.map Prod.fst).Nodup) (h : e ∈ put key b es) :
    e = (key, b) ∨ e ∈ es ∧ e.1 ≠ key := by
  induction es with
  | nil => exact .inl (by simpa [put] using h)
  | cons d es ih =>
    obtain ⟨k, c⟩ := d
    rw [List.map_cons, List.nodup_cons] at hes
    by_cases hk : k = key
    · simp only [put, hk, if_true, List.mem_cons] at h
      obtain h | h := h
      · exact .inl h
      · refine .inr ⟨List.mem_cons_of_mem _ h, fun he => hes.1 ?_⟩
        rw [hk, ← he]
        exact List.mem_map.mpr ⟨e, h, rfl⟩
    · simp only [put, hk, if_false, List.mem_cons] at h
      obtain rfl | h := h
      · exact .inr ⟨List.mem_cons_self, hk⟩
      · obtain h | ⟨h, hne⟩ := ih hes.2 h
        · exact .inl h
        · exact .inr ⟨List.mem_cons_of_mem _ h, hne⟩

end Put

theorem add_keys (s : Snapshot) (n : Node) :
    (s.add n).keys = if n.key ∈ s.keys then s.keys else s.keys ++ [n.key] :=
  map_fst_put n.key n s.nodes

theorem add_wellKeyed (s : Snapshot) (n : Node) (h : s.WellKeyed) : (s.add n).WellKeyed := by
  refine ⟨?_, ?_⟩
  · rw [add_keys]
    split_ifs with hn
    · exact h.nodup
    · exact List.nodup_append.mpr ⟨h.nodup, List.nodup_singleton _, by
        intro a ha b hb
        rw [List.mem_singleton] at hb
        exact fun he => hn (hb ▸ he ▸ ha)⟩
  · intro e he
    rcases mem_put he with rfl | he
    · rfl
    · exact h.keyed e he

theorem foldl_add_wellKeyed (nodes : List Node) {s : Snapshot} (h : s.WellKeyed) :
    (nodes.foldl add s).WellKeyed := by
  induction nodes generalizing s with
  | nil => exact h
  | cons n ns ih => exact ih (add_wellKeyed s n h)

theorem empty_wellKeyed (index : Int) : WellKeyed { index } := ⟨List.nodup_nil, by simp⟩

theorem ofNodes_wellKeyed (index : Int) (nodes : List Node) : (ofNodes index nodes).WellKeyed :=
  foldl_add_wellKeyed nodes (empty_wellKeyed index)

theorem foldl_add_index (nodes : List Node) (s : Snapshot) :
    (nodes.foldl add s).index = s.index := by
  induction nodes generalizing s with
  | nil => rfl
  | cons n ns ih => exact ih (s.add n)

theorem ofNodes_index (index : Int) (nodes : List Node) : (ofNodes index nodes).index = index :=
  foldl_add_index nodes { index }

/-- The snapshot holds some nodes: each key stands where it came first, with the node that came
last. -/
structure Holds (s : Snapshot) (nodes : List Node) : Prop where
  keys : s.keys = (nodes.map Node.key).eraseDups
  last : ∀ e ∈ s.nodes, nodes.reverse.find? (fun n => n.key == e.1) = some e.2

theorem ofNodes_holds (index : Int) (nodes : List Node) : (ofNodes index nodes).Holds nodes := by
  induction nodes using List.reverseRecOn with
  | nil => exact ⟨rfl, by simp [ofNodes]⟩
  | append_singleton ns n ih =>
    have hadd : ofNodes index (ns ++ [n]) = (ofNodes index ns).add n := by
      simp [ofNodes]
    rw [hadd]
    refine ⟨?_, fun e he => ?_⟩
    · rw [add_keys, ih.keys, List.map_append, List.eraseDups_append, List.map_singleton]
      by_cases hmem : n.key ∈ ns.map Node.key
      · have hnew : [n.key].removeAll (ns.map Node.key) = [] := by
          simpa [List.removeAll] using hmem
        rw [if_pos (List.mem_eraseDups.mpr hmem), hnew, List.eraseDups_nil, List.append_nil]
      · have hnew : [n.key].removeAll (ns.map Node.key) = [n.key] := by
          simpa [List.removeAll] using hmem
        rw [if_neg fun h => hmem (List.mem_eraseDups.mp h), hnew]
        rfl
    · rw [List.reverse_append, List.reverse_singleton, List.singleton_append, List.find?_cons]
      obtain rfl | ⟨he, hne⟩ := mem_put_nodup (ofNodes_wellKeyed index ns).nodup he
      · simp
      · have hkey : (n.key == e.1) = false := by simpa using fun h => hne h.symm
        rw [hkey]
        exact ih.last e he

end FleetProbe.Catalog.Snapshot
