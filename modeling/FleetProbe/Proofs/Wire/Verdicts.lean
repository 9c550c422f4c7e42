import FleetProbe.Proofs.Wire.Framing
/-!
The verdict on the bytes from an offset on. It does not depend on what stands before the offset,
it is `incomplete` in two cases only, and once it is another one no more bytes change it. A walk
takes 24 bytes at least with every frame, so it comes to an end wherever it begins.
-/

namespace FleetProbe.Wire.Frame

/-- What keeps a verdict back: there is no whole header from the offset on, or there is that of a
response and its body is not all there. -/
def Lacks (b : Bytes) (o : Nat) : Prop :=
  b.length < o + headerSize ∨
    (b[o]? = some 0x81 ∧ b.length < o + headerSize + Bytes.toNat ((b.drop (o + 8)).take 4))

/-- Check, parse and advance, from an offset to where the check fails. -/
inductive Walks (b : Bytes) : Nat → List Frame → Nat → FrameFault → Prop
  | stop {o : Nat} {e : FrameFault} : check b o = .error e → Walks b o [] o e
  | next {o n last : Nat} {f : Frame} {fs : List Frame} {e : FrameFault} :
    check b o = .ok n → parse b o = .ok f → Walks b (o + n) fs last e → Walks b o (f :: fs) last e

theorem extent_incomplete_iff (bs : Bytes) :
    extent bs = .error .incomplete ↔ bs.length < headerSize ∨
      ((bs.headD 0).toNat = responseMagic ∧ bs.length < headerSize + bodyLength bs) := by
  unfold extent
  split_ifs with hshort hmagic hbody
  · exact iff_of_true rfl (.inl hshort)
  · exact iff_of_false (by simp) (not_or.mpr ⟨hshort, fun h => hmagic h.1⟩)
  · exact iff_of_true rfl (.inr ⟨not_not.mp hmagic, hbody⟩)
  · exact iff_of_false (by simp) (not_or.mpr ⟨hshort, fun h => hbody h.2⟩)

theorem headD_drop_iff {b : Bytes} {o : Nat} (h : o < b.length) :
    ((b.drop o).headD 0).toNat = responseMagic ↔ b[o]? = some 0x81 := by
  rw [List.headD_eq_head?_getD, List.head?_drop, List.getElem?_eq_getElem h, Option.getD_some,
    Option.some_inj, ← UInt8.toNat_inj]
  rfl

theorem check_incomplete_iff (b : Bytes) (o : Nat) :
    check b o = .error .incomplete ↔ Lacks b o := by
  have hsize : headerSize = 24 := rfl
  rw [check_eq, extent_incomplete_iff, Lacks, bodyLength, List.drop_drop, List.length_drop]
  by_cases hshort : b.length < o + headerSize
  · exact iff_of_true (.inl (by omega)) (.inl hshort)
  · rw [headD_drop_iff (by omega)]
    exact or_congr (by omega) (and_congr_right fun _ => by omega)

/-- A verdict that is not `incomplete` is a length or the byte that should be another. -/
theorem check_cases (b : Bytes) (o : Nat) :
    (∃ n, check b o = .ok n) ∨ check b o = .error .incomplete ∨
      ∃ magic, check b o = .error (.mismatch magic) := by
  rw [check_eq]
  cases h : extent (b.drop o) with
  | ok n => exact .inl ⟨n, rfl⟩
  | error e =>
    obtain ⟨-, -, rfl⟩ | ⟨-, rfl⟩ := extent_error h
    · exact .inr (.inr ⟨_, rfl⟩)
    · exact .inr (.inl rfl)

theorem drop_length_add (p b : Bytes) (o : Nat) : (p ++ b).drop (p.length + o) = b.drop o := by
  rw [← List.drop_drop, List.drop_left]

theorem check_prepend (p b : Bytes) (o : Nat) :
    check (p ++ b) (p.length + o : Nat) = check b o := by
  rw [check_eq, check_eq, drop_length_add]

theorem check_bounds {b : Bytes} {o n : Nat} (h : check b o = .ok n) :
    headerSize ≤ n ∧ o + n ≤ b.length := by
  rw [check_eq] at h
  obtain ⟨hn, hle⟩ := extent_bounds h
  rw [List.length_drop] at hle
  have hsize : headerSize = 24 := rfl
  omega

theorem parse_of_check {b : Bytes} {o n : Nat} (h : check b o = .ok n) :
    parse b o = .ok (decode (b.drop o)) := by
  obtain ⟨hn, hle⟩ := check_bounds h
  exact parse_eq b o (by rw [List.length_drop]; omega)

theorem parse_prepend (p : Bytes) {b : Bytes} {o n : Nat} (h : check b o = .ok n) :
    parse (p ++ b) (p.length + o : Nat) = parse b o := by
  rw [parse_of_check h, parse_of_check ((check_prepend p b o).trans h), drop_length_add]

theorem drop_append_of_check {b : Bytes} {o : Nat} (t : Bytes)
    (h : check b o ≠ .error .incomplete) : (b ++ t).drop o = b.drop o ++ t := by
  rw [Ne, check_incomplete_iff, Lacks, not_or] at h
  exact List.drop_append_of_le_length (by omega)

theorem check_append (t : Bytes) {b : Bytes} {o : Nat} (h : check b o ≠ .error .incomplete) :
    check (b ++ t) o = check b o := by
  have hdrop := drop_append_of_check t h
  rw [check_eq, check_eq, hdrop]
  rw [check_eq] at h
  cases he : extent (b.drop o) with
  | ok n => exact extent_append t he
  | error e =>
    obtain ⟨-, -, rfl⟩ | ⟨-, rfl⟩ := extent_error he
    · exact extent_append_mismatch t he
    · exact absurd he h

namespace Walks

variable {b : Bytes}

theorem unique {o last last' : Nat} {fs fs' : List Frame} {e e' : FrameFault}
    (h : Walks b o fs last e) (h' : Walks b o fs' last' e') : fs = fs' ∧ last = last' ∧ e = e' := by
  induction h generalizing fs' last' e' with
  | stop hc =>
    cases h' with
    | stop hc' =>
      rw [hc] at hc'
      cases hc'
      exact ⟨rfl, rfl, rfl⟩
    | next hc' =>
      rw [hc] at hc'
      cases hc'
  | next hc hp _ ih =>
    cases h' with
    | stop hc' =>
      rw [hc] at hc'
      cases hc'
    | next hc' hp' hrest =>
      rw [hc] at hc'
      rw [hp] at hp'
      cases hc'
      cases hp'
      obtain ⟨rfl, rfl, rfl⟩ := ih hrest
      exact ⟨rfl, rfl, rfl⟩

/-- Every frame takes a header at least, and no frame reaches past the end. -/
theorem takes {o last : Nat} {fs : List Frame} {e : FrameFault} (h : Walks b o fs last e) :
    o + headerSize * fs.length ≤ last ∧ last ≤ max o b.length := by
  induction h with
  | stop => exact ⟨Nat.le_refl _, Nat.le_max_left _ _⟩
  | next hc _ _ ih =>
    obtain ⟨hn, hle⟩ := check_bounds hc
    rw [List.length_cons, Nat.mul_succ]
    omega

/-- At the end of the buffer and beyond there is nothing to walk over. -/
theorem eq_nil {o last : Nat} {fs : List Frame} {e : FrameFault} (h : Walks b o fs last e)
    (ho : b.length < o + headerSize) : fs = [] ∧ last = o ∧ e = .incomplete :=
  h.unique (.stop ((check_incomplete_iff b o).mpr (.inl ho)))

end Walks

/-- With one step for each header that fits, a walk gets to its end. -/
theorem walkFrom_walks (b : Bytes) (fuel o : Nat) (h : (b.length - o) / headerSize < fuel) :
    ∃ fs last e, Walks b o fs last e ∧ walkFrom b fuel o = ⟨fs, (last : Nat), e⟩ := by
  induction fuel generalizing o with
  | zero => exact absurd h (Nat.not_lt_zero _)
  | succ fuel ih =>
    cases hc : check b o with
    | error e =>
      refine ⟨[], o, e, .stop hc, ?_⟩
      simp only [walkFrom, hc]
    | ok n =>
      obtain ⟨hn, hle⟩ := check_bounds hc
      have hsize : headerSize = 24 := rfl
      have hp := parse_of_check hc
      obtain ⟨fs, last, e, hw, hrest⟩ := ih (o + n) (by rw [hsize] at h ⊢; omega)
      rw [Int.natCast_add] at hrest
      refine ⟨_ :: fs, last, e, .next hc hp hw, ?_⟩
      simp only [walkFrom, hc, hp, hrest]

theorem walk_walks (b : Bytes) (o : Nat) :
    ∃ fs last e, Walks b o fs last e ∧ walk b o = ⟨fs, (last : Nat), e⟩ := by
  have hfew : (b.length - o) / headerSize ≤ b.length :=
    Nat.le_trans (Nat.div_le_self _ _) (Nat.sub_le _ _)
  exact walkFrom_walks b _ o (by omega)

/-- **A verdict is about the bytes from its offset on.** Whatever stands before them, the check
and, where it succeeds, the parse come to the same. The check is `incomplete` exactly where a header
or a body is not all there; any other verdict stands however many bytes follow. A frame takes 24
bytes at least, so that from every offset, one past the end included, the walk comes to its end
after at most as many frames as there are headers to read. -/
theorem verdict_positional_stable_exact (p b t : Bytes) (o : Nat) :
    (check (p ++ b) (p.length + o : Nat) = check b o ∧
      ∀ n, check b o = .ok n →
        ∃ f, parse b o = .ok f ∧ parse (p ++ b) (p.length + o : Nat) = .ok f) ∧
    (check b o = .error .incomplete ↔ Lacks b o) ∧
    ((∃ n, check b o = .ok n) ∨ check b o = .error .incomplete ∨
      ∃ magic, check b o = .error (.mismatch magic)) ∧
    (∀ n, check b o = .ok n → check (b ++ t) o = .ok n) ∧
    (∀ magic, check b o = .error (.mismatch magic) →
      check (b ++ t) o = .error (.mismatch magic)) ∧
    ∃ fs last e, Walks b o fs last e ∧ walk b o = ⟨fs, (last : Nat), e⟩ ∧
      (∀ fuel, (b.length - o) / headerSize < fuel → walkFrom b fuel o = walk b o) ∧
      o + headerSize * fs.length ≤ last ∧ last ≤ max o b.length ∧
      (b.length < o + headerSize → fs = []) := by
  refine ⟨⟨check_prepend p b o, fun n h => ?_⟩, check_incomplete_iff b o, check_cases b o,
    fun n h => ?_, fun magic h => ?_, ?_⟩
  · exact ⟨_, parse_of_check h, (parse_prepend p h).trans (parse_of_check h)⟩
  · exact (check_append t (by simp [h])).trans h
  · exact (check_append t (by simp [h])).trans h
  · obtain ⟨fs, last, e, hw, hwalk⟩ := walk_walks b o
    obtain ⟨htakes, hlast⟩ := hw.takes
    refine ⟨fs, last, e, hw, hwalk, fun fuel hfuel => ?_, htakes, hlast,
      fun hend => (hw.eq_nil hend).1⟩
    obtain ⟨fs', last', e', hw', hrun⟩ := walkFrom_walks b fuel o hfuel
    obtain ⟨rfl, rfl, rfl⟩ := hw.unique hw'
    exact hrun.trans hwalk.symm

end FleetProbe.Wire.Frame
