import Mathlib.Tactic.SplitIfs
import FleetProbe.Json.Writer
import FleetProbe.Proofs.Text.Decimal
/-!
What is written as JSON stays on its line: no control character is in it, and no end of a line,
whatever the value holds.
-/

namespace FleetProbe

namespace Text

/-- No control character is in it, and so no end of a line. -/
def Unbroken (t : Text) : Prop := ∀ p ∈ t.points, 0x20 ≤ p

instance (t : Text) : Decidable t.Unbroken := inferInstanceAs (Decidable (∀ p ∈ t.points, 0x20 ≤ p))

theorem Unbroken.append {a b : Text} (ha : a.Unbroken) (hb : b.Unbroken) : (a ++ b).Unbroken := by
  intro p hp
  rw [append_points, List.mem_append] at hp
  exact hp.elim (ha p) (hb p)

theorem Unbroken.join {separator : Text} (hs : separator.Unbroken) {ts : List Text}
    (h : ∀ t ∈ ts, t.Unbroken) : (join separator ts).Unbroken := by
  induction ts with
  | nil => exact fun p hp => absurd hp List.not_mem_nil
  | cons t ts ih =>
    obtain ⟨ht, hts⟩ := List.forall_mem_cons.mp h
    cases ts with
    | nil => exact ht
    | cons u ts => exact (ht.append hs).append (ih hts)

end Text

/-- Characters none of which is a control. -/
def Printed (cs : List Char) : Prop := ∀ c ∈ cs, 0x20 ≤ c.toNat

namespace Printed

-- Left to be found, the instance could be one that goes through all characters there are.
instance (cs : List Char) : Decidable (Printed cs) :=
  List.decidableBAll (fun c : Char => 0x20 ≤ c.toNat) cs

variable {cs ds : List Char}

theorem append (hc : Printed cs) (hd : Printed ds) : Printed (cs ++ ds) := by
  intro c h
  exact (List.mem_append.mp h).elim (hc c) (hd c)

theorem take (h : Printed cs) (n : Nat) : Printed (cs.take n) :=
  fun c hc => h c (List.mem_of_mem_take hc)

theorem drop (h : Printed cs) (n : Nat) : Printed (cs.drop n) :=
  fun c hc => h c (List.mem_of_mem_drop hc)

theorem zeros (n : Nat) : Printed (List.replicate n '0') := by
  intro c hc
  rw [List.eq_of_mem_replicate hc]
  decide

theorem digits (n : Nat) : Printed (Nat.toDigits 10 n) := by
  intro c hc
  have hdigit := Nat.isDigit_of_mem_toDigits (by decide) (Nat.le_refl 10) hc
  have hlow : 0x30 ≤ c.val := by
    simp only [Char.isDigit, Bool.and_eq_true, decide_eq_true_eq] at hdigit
    exact hdigit.1
  exact Nat.le_trans (by decide) hlow

theorem digitChars (n : Nat) : Printed (Number.Decimal.digitChars n) := by
  rw [Number.Decimal.digitChars, Nat.toString_eq_ofList_toDigits, String.toList_ofList]
  exact digits n

theorem padLeft (h : Printed cs) (width : Nat) : Printed (Number.Layout.padLeft width cs) :=
  (zeros _).append h

theorem ofList (h : Printed cs) : Printed (String.ofList cs).toList := by
  rwa [String.toList_ofList]

theorem concat {a b : String} (ha : Printed a.toList) (hb : Printed b.toList) :
    Printed (a ++ b).toList := by
  rw [String.toList_append]
  exact ha.append hb

theorem ite {c : Prop} [Decidable c] {a b : String} (ha : Printed a.toList)
    (hb : Printed b.toList) : Printed (if c then a else b).toList := by
  split
  · exact ha
  · exact hb

theorem unbroken {s : String} (h : Printed s.toList) : (Text.ofString s).Unbroken := by
  intro p hp
  obtain ⟨c, hc, rfl⟩ := List.mem_map.mp hp
  exact h c hc

end Printed

theorem Text.unbroken_integer (i : Int) : (ofString (toString i)).Unbroken := by
  have hdigits (n : Nat) : ∀ p ∈ decimal n, 0x20 ≤ p := by
    intro p hp
    rw [decimal_ofNat] at hp
    obtain ⟨c, hc, rfl⟩ := List.mem_map.mp hp
    exact Printed.digits n c hc
  cases i with
  | ofNat n => exact hdigits n
  | negSucc n =>
    intro p hp
    have hp : p ∈ decimal (.negSucc n) := hp
    rw [decimal_negSucc, List.mem_cons] at hp
    obtain rfl | hp := hp
    · decide
    · exact hdigits (n + 1) p hp

namespace Number.Layout

/-- A layout whose own signs are no controls. -/
structure Plain (l : Layout) : Prop where
  mark : 0x20 ≤ l.exponentMark.toNat
  infinite : Printed l.infinite.toList
  notANumber : Printed l.notANumber.toList

variable {l : Layout}

theorem Plain.renderDecimal (h : l.Plain) (d : Decimal) : Printed (l.renderDecimal d).toList := by
  unfold Layout.renderDecimal
  generalize Decimal.strip 400 d = e
  have hcs := Printed.digitChars e.digits
  dsimp only
  generalize Decimal.digitChars e.digits = cs at hcs
  generalize e.exponent + cs.length - 1 = first
  split
  · split
    · exact (hcs.append (.zeros _)).ofList.concat (.ite (by decide) (by decide))
    · have hpadded := hcs.padLeft ((-e.exponent).toNat + 1)
      exact ((hpadded.take _).ofList.concat (by decide)).concat (hpadded.drop _).ofList
  · have hpoint : Printed ".".toList := by decide
    have hmark : Printed (String.singleton l.exponentMark).toList := by
      rw [String.toList_singleton]
      exact List.forall_mem_singleton.mpr h.mark
    have hplaces := Printed.ite (c := (cs.drop 1).isEmpty) (a := "") (by decide)
      (hpoint.concat (hcs.drop 1).ofList)
    have hsign : Printed (if first < 0 then "-" else "+").toList := .ite (by decide) (by decide)
    have hexponent := ((Printed.digitChars first.natAbs).padLeft l.exponentWidth).ofList
    exact ((((hcs.take 1).ofList.concat hplaces).concat hmark).concat hsign).concat hexponent

theorem Plain.render (h : l.Plain) (x : Float) : Printed (l.render x).toList := by
  have hminus (c : Prop) [Decidable c] : Printed (if c then "-" else "").toList :=
    .ite (by decide) (by decide)
  unfold Layout.render
  split
  · split
    · exact h.notANumber
    · exact (hminus _).concat h.infinite
  · refine (hminus _).concat ?_
    split
    · exact .ite (by decide) (by decide)
    · exact h.renderDecimal _

end Number.Layout

namespace Json

open Text

theorem escapeUnit_le (u : Nat) : ∀ p ∈ escapeUnit u, 0x20 ≤ p := by
  have hdigit : ∀ d < 16, 0x20 ≤ (Char.ofNat (if d < 10 then 48 + d else 87 + d)).toNat := by decide
  intro p hp
  rw [escapeUnit, List.mem_append] at hp
  obtain hp | hp := hp
  · revert p
    decide
  · obtain ⟨c, hc, rfl⟩ := List.mem_map.mp hp
    obtain ⟨i, -, rfl⟩ := List.mem_map.mp hc
    exact hdigit _ (Nat.mod_lt _ (by decide))

/-- A control character is escaped, and an escape has none in it. -/
theorem writePoint_le (s : Style) (p : Nat) : ∀ q ∈ writePoint s p, 0x20 ≤ q := by
  unfold writePoint
  split_ifs with hquote hfeed hreturn htab hform hback hcontrol hwide hplane
  · obtain rfl | rfl := hquote <;> decide
  · decide
  · decide
  · decide
  · decide
  · decide
  · exact escapeUnit_le p
  · exact escapeUnit_le p
  · exact fun q hq => (List.mem_append.mp hq).elim (escapeUnit_le _ q) (escapeUnit_le _ q)
  · exact List.forall_mem_singleton.mpr (by omega)

theorem writeText_unbroken (s : Style) (t : Text) : (writeText s t).Unbroken := by
  intro p hp
  simp only [writeText, List.mem_append, List.mem_flatMap, List.mem_singleton] at hp
  obtain (rfl | ⟨q, -, hq⟩) | rfl := hp
  · decide
  · exact writePoint_le s q p hq
  · decide

theorem realLayout_plain : realLayout.Plain := ⟨by decide, by decide, by decide⟩

mutual

theorem write_unbroken (s : Style) : (v : Value) → (write s v).Unbroken
  | .null => by
    rw [write]
    decide
  | .bool b => by
    cases b <;> rw [write] <;> decide
  | .int i => by
    unfold write
    split
    · exact writeText_unbroken s _
    · exact unbroken_integer i
  | .real x => by
    unfold write
    split
    · exact writeText_unbroken s _
    · exact (realLayout_plain.render x).unbroken
  | .text t => writeText_unbroken s t
  | .bytes bs => writeText_unbroken s _
  | .date _ _ t => writeText_unbroken s t
  | .list items => by
    unfold write
    exact (Unbroken.append (by decide) (.join (by decide) (writeItems_unbroken s items))).append
      (by decide)
  | .map entries => by
    unfold write
    exact (Unbroken.append (by decide) (.join (by decide) (writeEntries_unbroken s entries))).append
      (by decide)
  | .again mapping => writeText_unbroken s _

theorem writeItems_unbroken (s : Style) : (vs : List Value) → ∀ t ∈ writeItems s vs, t.Unbroken
  | [] => by simp [writeItems]
  | v :: vs => by
    rw [writeItems]
    exact List.forall_mem_cons.mpr ⟨write_unbroken s v, writeItems_unbroken s vs⟩

theorem writeEntries_unbroken (s : Style) :
    (es : List (Value × Value)) → ∀ t ∈ writeEntries s es, t.Unbroken
  | [] => by simp [writeEntries]
  | (k, v) :: es => by
    have hquote : (ofString "\"").Unbroken := by decide
    unfold writeEntries
    refine List.forall_mem_cons.mpr ⟨?_, writeEntries_unbroken s es⟩
    refine (Unbroken.append ?_ (by decide)).append (write_unbroken s v)
    split
    · exact writeText_unbroken s _
    · exact (hquote.append (write_unbroken s k)).append hquote

end

end Json

end FleetProbe
