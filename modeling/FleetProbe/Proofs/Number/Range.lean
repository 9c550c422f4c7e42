import Mathlib.Algebra.Order.Ring.Nat
import Mathlib.Data.Nat.Log
import Mathlib.Tactic.Linarith
import Mathlib.Tactic.Ring
import FleetProbe.Number.Quantity
/-!
The integers that have a nearest double. Beyond the largest double there is half a step in which
integers still round down to it; from there on an integer is too large.
-/

namespace FleetProbe

namespace Number.Binary64

/-- The least number that is too large for a double, halfway between the largest double and
`2 ^ 1024`. -/
def tooLarge : Nat := (2 ^ 54 - 1) * 2 ^ 970

/-- A quotient is rounded up to an even number from half a step below it on. -/
theorem le_roundHalfEven_iff {n half even : Nat} (hhalf : 0 < half) (heven : even % 2 = 0)
    (hpos : 0 < even) :
    even ≤ roundHalfEven n (2 * half) ↔ (2 * even - 1) * half ≤ n := by
  have hdiv := Nat.div_add_mod n (2 * half)
  have hmod := Nat.mod_lt n (show 0 < 2 * half by omega)
  unfold roundHalfEven
  simp only [Bool.or_eq_true, decide_eq_true_eq, Bool.and_eq_true, beq_iff_eq]
  generalize n / (2 * half) = q at *
  generalize n % (2 * half) = r at *
  obtain hlow | rfl | hhigh : even ≤ q ∨ even = q + 1 ∨ q + 2 ≤ even := by omega
  · have hn : (2 * even - 1) * half ≤ n := by
      calc (2 * even - 1) * half ≤ (2 * q) * half := Nat.mul_le_mul_right _ (by omega)
        _ = 2 * half * q := by ring
        _ ≤ n := by omega
    have hround : even ≤ if 2 * half < 2 * r ∨ 2 * r = 2 * half ∧ q % 2 = 1 then q + 1 else q := by
      split <;> omega
    exact ⟨fun _ => hn, fun _ => hround⟩
  · have hstep : (2 * (q + 1) - 1) * half = 2 * half * q + half := by
      rw [show 2 * (q + 1) - 1 = 2 * q + 1 by omega]
      ring
    rw [hstep]
    constructor
    · intro h
      split at h
      · omega
      · omega
    · intro h
      rw [if_pos (by omega)]
  · have hn : n < (2 * even - 1) * half := by
      calc n < 2 * half * q + 2 * half := by omega
        _ = (2 * q + 2) * half := by ring
        _ ≤ (2 * even - 1) * half := Nat.mul_le_mul_right _ (by omega)
    constructor
    · intro h
      split at h <;> omega
    · intro h
      omega

theorem roundHalfEven_bounds (n d : Nat) :
    n / d ≤ roundHalfEven n d ∧ roundHalfEven n d ≤ n / d + 1 := by
  unfold roundHalfEven
  dsimp only
  split
  · omega
  · omega

theorem unit_eq : unit = 2 ^ 52 := by decide

/-- What an integer is scaled to has all the digits that a double keeps, and no more. -/
theorem scaled_bounds {n k : Nat} (hn : n ≠ 0) (hlong : n.log2 = 52 + k) :
    unit * 2 ^ k ≤ n ∧ n / 2 ^ k < 2 * unit := by
  have hlow := Nat.log2_self_le hn
  have hhigh := Nat.lt_log2_self (n := n)
  rw [hlong, pow_add] at hlow
  rw [hlong, show 52 + k + 1 = 53 + k by omega, pow_add] at hhigh
  refine ⟨by rw [unit_eq]; exact hlow, ?_⟩
  rw [Nat.div_lt_iff_lt_mul (by positivity), unit_eq]
  calc n < 2 ^ 53 * 2 ^ k := hhigh
    _ = 2 * 2 ^ 52 * 2 ^ k := by ring

/-- The double of a long integer is made of its leading digits. -/
theorem bitsOfRatio_long {n k : Nat} (hn : n ≠ 0) (hlong : n.log2 = 52 + k) :
    bitsOfRatio n 1 = (k + 1074) * unit + roundHalfEven n (2 ^ k) := by
  have hguess : ((n.log2 : Int) - (1 : Nat).log2 - 52) = k := by
    rw [hlong, show (1 : Nat).log2 = 0 by decide]
    push_cast
    ring
  obtain ⟨hlow, -⟩ := scaled_bounds hn hlong
  have hscaled : ¬ n < unit * (1 * Nat.pow 2 k) := by
    rw [one_mul]
    exact not_lt.mpr hlow
  unfold bitsOfRatio
  simp only [hn, if_false, hguess, Int.natCast_nonneg, if_true, Int.toNat_natCast, hscaled]
  rw [max_eq_left (by omega), if_pos (Int.natCast_nonneg k), Int.toNat_natCast, one_mul]
  rfl

/-- The double of a short integer is small. -/
theorem bitsOfRatio_short {n k : Nat} (hn : n ≠ 0) (hk : 0 < k) (hshort : n.log2 + k = 52) :
    bitsOfRatio n 1 < infinityBits := by
  have hguess : ((n.log2 : Int) - (1 : Nat).log2 - 52) = -k := by
    rw [show (1 : Nat).log2 = 0 by decide]
    omega
  have hlow : unit ≤ n * 2 ^ k := by
    rw [unit_eq, ← hshort, pow_add]
    exact Nat.mul_le_mul_right _ (Nat.log2_self_le hn)
  have hhigh : n * 2 ^ k < 2 * unit := by
    calc n * 2 ^ k < 2 ^ (n.log2 + 1) * 2 ^ k :=
          Nat.mul_lt_mul_of_pos_right Nat.lt_log2_self (by positivity)
      _ = 2 * unit := by rw [unit_eq, ← hshort]; ring
  have hsign : ¬ (0 : Int) ≤ -k := by omega
  have hscaled : ¬ n * Nat.pow 2 k < unit * 1 := by
    rw [mul_one]
    exact not_lt.mpr hlow
  have hbits : bitsOfRatio n 1 = (-(k : Int) + 1074).toNat * unit + roundHalfEven (n * 2 ^ k) 1 := by
    unfold bitsOfRatio
    simp only [hn, if_false, hguess, hsign, neg_neg, Int.toNat_natCast, hscaled]
    rw [max_eq_left (by omega), if_neg hsign, neg_neg, Int.toNat_natCast]
    rfl
  obtain ⟨-, hround⟩ := roundHalfEven_bounds (n * 2 ^ k) 1
  rw [Nat.div_one] at hround
  have hexponent : (-(k : Int) + 1074).toNat * unit ≤ 1073 * unit :=
    Nat.mul_le_mul_right _ (by omega)
  rw [hbits]
  simp only [unit, infinityBits] at *
  omega

theorem lt_of_log2_lt {n k : Nat} (h : n.log2 < 53 + k) : n < (2 ^ 54 - 1) * 2 ^ k := by
  calc n < 2 ^ (n.log2 + 1) := Nat.lt_log2_self
    _ ≤ 2 ^ (53 + k) := Nat.pow_le_pow_right (by decide) h
    _ = 2 ^ 53 * 2 ^ k := pow_add 2 53 k
    _ ≤ (2 ^ 54 - 1) * 2 ^ k := Nat.mul_le_mul_right _ (by decide)

theorem le_of_lt_log2 {n k : Nat} (hn : n ≠ 0) (h : 53 + k < n.log2) :
    (2 ^ 54 - 1) * 2 ^ k ≤ n := by
  calc (2 ^ 54 - 1) * 2 ^ k ≤ 2 ^ 54 * 2 ^ k := Nat.mul_le_mul_right _ (by decide)
    _ = 2 ^ (54 + k) := (pow_add 2 54 k).symm
    _ ≤ 2 ^ n.log2 := Nat.pow_le_pow_right (by decide) (by omega)
    _ ≤ n := Nat.log2_self_le hn

theorem bitsOfRatio_one_lt_iff (n : Nat) : bitsOfRatio n 1 < infinityBits ↔ n < tooLarge := by
  by_cases hn : n = 0
  · subst hn
    exact ⟨fun _ => by unfold tooLarge; positivity, fun _ => by decide⟩
  obtain hshort | hlong : n.log2 < 52 ∨ 52 ≤ n.log2 := Nat.lt_or_ge _ _
  · have hbits := bitsOfRatio_short (k := 52 - n.log2) hn (by omega) (by omega)
    exact ⟨fun _ => lt_of_log2_lt (by omega), fun _ => hbits⟩
  obtain ⟨k, hk⟩ := Nat.exists_eq_add_of_le hlong
  obtain ⟨hlow, hhigh⟩ := scaled_bounds hn hk
  obtain ⟨hfloor, hceiling⟩ := roundHalfEven_bounds n (2 ^ k)
  have hunit : unit ≤ n / 2 ^ k := (Nat.le_div_iff_mul_le (by positivity)).mpr hlow
  rw [bitsOfRatio_long hn hk, show infinityBits = 2047 * unit by decide]
  -- Only numbers of as many bits as the bound has can go either way.
  obtain hless | rfl | hmore : k < 971 ∨ k = 970 + 1 ∨ 971 < k := by omega
  · have hexponent : (k + 1074) * unit ≤ 2044 * unit := Nat.mul_le_mul_right _ (by omega)
    refine ⟨fun _ => lt_of_log2_lt (by omega), fun _ => ?_⟩
    simp only [unit] at *
    omega
  · have hhalf : 0 < 2 ^ 970 := by positivity
    have heven : 2 * unit % 2 = 0 := by decide
    have hup := le_roundHalfEven_iff (n := n) hhalf heven (by decide)
    rw [← pow_succ', show 2 * (2 * unit) - 1 = 2 ^ 54 - 1 by decide, ← tooLarge] at hup
    rw [← not_le (a := tooLarge), ← hup]
    generalize roundHalfEven n (2 ^ (970 + 1)) = rounded
    clear hlow hhigh hfloor hceiling hunit hup
    omega
  · have hexponent : 2046 * unit ≤ (k + 1074) * unit := Nat.mul_le_mul_right _ (by omega)
    have hn : tooLarge ≤ n := le_of_lt_log2 (k := 970) hn (by omega)
    constructor
    · intro h
      simp only [unit] at *
      omega
    · intro h
      exact absurd hn (not_le.mpr h)

/-- **An integer has a nearest double exactly when it is below the bound**, whatever its sign. -/
theorem ofInt?_isSome_iff (i : Int) : (ofInt? i).isSome ↔ i.natAbs < tooLarge := by
  rw [← bitsOfRatio_one_lt_iff]
  unfold ofInt? ofRatio?
  dsimp only
  split
  · next h => simp [h]
  · next h => simpa using h

end Number.Binary64

/-- The doubles that measure time take the same integers. -/
theorem Quantity.ofInt?_eq_none_iff (i : Int) :
    (ofInt? i : Option Float) = none ↔ Number.Binary64.tooLarge ≤ i.natAbs := by
  rw [← not_lt, ← Number.Binary64.ofInt?_isSome_iff, Bool.not_eq_true, Option.isSome_eq_false_iff,
    Option.isNone_iff_eq_none]
  rfl

theorem Amount.real?_whole_isSome_iff (i : Int) :
    (whole i : Amount Float).real?.isSome ↔ i.natAbs < Number.Binary64.tooLarge :=
  Number.Binary64.ofInt?_isSome_iff i

end FleetProbe
