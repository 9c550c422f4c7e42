import Mathlib.Data.List.Induction
import FleetProbe.Metrics.Histogram
import FleetProbe.Proofs.Number.Exact
/-!
What a histogram says of the amounts it has taken in, in exact arithmetic: how many there are, their
sum, and how many of them are at most each bound.
-/

namespace FleetProbe.Metrics

namespace Histogram

section

variable {α : Type} [Quantity α]

/-- A histogram that has taken in some amounts, and nothing else. -/
def taken (bounds xs : List α) : Histogram α :=
  xs.foldl (fun h x => h.observe bounds x) (empty bounds)

theorem taken_concat (bounds xs : List α) (x : α) :
    taken bounds (xs ++ [x]) = (taken bounds xs).observe bounds x := by
  rw [taken, taken, List.foldl_append, List.foldl_cons, List.foldl_nil]

end

end Histogram

variable {bounds : List Rat}

/-- Each bound is at most all bounds behind it. -/
theorem pairwise_of_isSorted (h : isSorted bounds = true) :
    bounds.Pairwise (· ≤ ·) := by
  induction bounds with
  | nil => exact .nil
  | cons b bounds ih =>
    cases bounds with
    | nil => exact List.pairwise_singleton _ _
    | cons c bounds =>
      simp only [isSorted, Bool.and_eq_true, Bool.not_eq_true', decide_eq_false_iff_not] at h
      obtain ⟨hbc, hrest⟩ := h
      have hle : b ≤ c := not_lt.mp hbc
      have hsorted := ih hrest
      refine List.pairwise_cons.mpr ⟨fun d hd => ?_, hsorted⟩
      rcases List.mem_cons.mp hd with rfl | hd
      · exact hle
      · exact hle.trans (List.rel_of_pairwise_cons hsorted hd)

namespace Histogram

theorem cumulative_succ (before : Nat) (counts : List Nat) :
    cumulative (before + 1) counts = (cumulative before counts).map (· + 1) := by
  induction counts generalizing before with
  | nil => rfl
  | cons n counts ih =>
    simp only [cumulative, List.map_cons]
    rw [Nat.add_right_comm, ih]

/-- An amount is added to the counts at all bounds that it does not exceed, as the bounds above
the first of them are no lower. -/
theorem cumulative_tally (hb : bounds.Pairwise (· ≤ ·)) (x : Rat)
    {before all : Nat} {counts : List Nat} {upTo : Rat → Nat}
    (h : cumulative before counts = bounds.map upTo ++ [all]) :
    cumulative before (tally bounds x counts) =
      (bounds.map fun b => upTo b + if x ≤ b then 1 else 0) ++ [all + 1] := by
  induction bounds generalizing before counts with
  | nil =>
    match counts, h with
    | [n], h =>
      simp only [cumulative, List.map_nil, List.nil_append, List.cons.injEq, and_true] at h
      simp [tally, cumulative, ← h, Nat.add_assoc]
  | cons b bounds ih =>
    obtain ⟨hle, hsorted⟩ := List.pairwise_cons.mp hb
    match counts, h with
    | n :: counts, h =>
      simp only [cumulative, List.map_cons, List.cons_append, List.cons.injEq] at h
      obtain ⟨hn, hrest⟩ := h
      by_cases hx : x ≤ b
      · have habove (c : Rat) (hc : c ∈ bounds) :
            (upTo c + if x ≤ c then 1 else 0) = upTo c + 1 := by
          rw [if_pos (hx.trans (hle c hc))]
        rw [tally, if_pos hx, cumulative, ← Nat.add_assoc, cumulative_succ, hrest, hn,
          List.map_cons, if_pos hx, List.map_congr_left habove]
        simp
      · rw [tally, if_neg hx, cumulative, ih hsorted hrest, hn, List.map_cons, if_neg hx]
        rfl

theorem count_eq_last {before all : Nat} {counts front : List Nat}
    (h : cumulative before counts = front ++ [all]) : before + counts.foldr (· + ·) 0 = all := by
  induction counts generalizing before front with
  | nil => simp [cumulative] at h
  | cons n counts ih =>
    rw [List.foldr_cons, ← Nat.add_assoc]
    cases front with
    | nil =>
      simp only [cumulative, List.nil_append, List.cons.injEq] at h
      obtain ⟨rfl, hrest⟩ := h
      cases counts with
      | nil => rfl
      | cons m counts => simp [cumulative] at hrest
    | cons k front =>
      simp only [cumulative, List.cons_append, List.cons.injEq] at h
      exact ih h.2

/-- A histogram gives the count of some amounts, their sum, and how many of them are at most each
bound. -/
structure Exact (bounds xs : List Rat) (h : Histogram Rat) : Prop where
  count : h.count = xs.length
  sum : h.sum = xs.sum
  buckets : cumulative 0 h.counts =
    (bounds.map fun b => xs.countP fun x => decide (x ≤ b)) ++ [xs.length]

theorem empty_buckets (bounds : List Rat) :
    cumulative 0 (empty bounds).counts = (bounds.map fun _ => 0) ++ [0] := by
  induction bounds with
  | nil => rfl
  | cons b bounds ih => exact congrArg (List.cons 0) ih

theorem taken_exact (hb : isSorted bounds = true) (xs : List Rat) :
    Exact bounds xs (taken bounds xs) := by
  induction xs using List.reverseRecOn with
  | nil =>
    have hbuckets := empty_buckets bounds
    have hcount := count_eq_last hbuckets
    rw [Nat.zero_add] at hcount
    exact ⟨hcount, rfl, hbuckets⟩
  | append_singleton xs x ih =>
    have hbuckets := cumulative_tally (pairwise_of_isSorted hb) x ih.buckets
    have hcount := count_eq_last hbuckets
    rw [Nat.zero_add] at hcount
    rw [taken_concat]
    refine ⟨?_, ?_, ?_⟩
    · rw [List.length_append]
      exact hcount
    · rw [List.sum_append, List.sum_singleton, ← ih.sum]
      rfl
    · simp only [List.countP_append, List.countP_singleton, List.length_append,
        List.length_singleton, decide_eq_true_eq]
      exact hbuckets

end Histogram

end FleetProbe.Metrics
