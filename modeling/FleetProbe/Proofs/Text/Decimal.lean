import FleetProbe.Text.Basic
/-!
Texts as code points, and the decimal text of an integer: its digits, behind a sign where it is
negative.
-/

namespace FleetProbe.Text

theorem append_points (a b : Text) : (a ++ b).points = a.points ++ b.points := rfl

theorem points_injective {a b : Text} (h : a.points = b.points) : a = b := by
  cases a
  cases b
  exact congrArg Text.mk h

/-- The decimal text of an integer, as code points. -/
def decimal (n : Int) : List Nat := (ofString (toString n)).points

theorem decimal_ofNat (n : Nat) : decimal n = (Nat.toDigits 10 n).map Char.toNat := by
  have hchars : (toString (n : Int)).toList = Nat.toDigits 10 n := by
    rw [Int.toString_eq_repr]
    exact String.toList_ofList
  rw [decimal, ofString, hchars]

theorem decimal_negSucc (n : Nat) : decimal (.negSucc n) = '-'.toNat :: decimal (n + 1 : Nat) := by
  have hchars : (toString (Int.negSucc n)).toList = '-' :: Nat.toDigits 10 (n + 1) := by
    rw [Int.toString_eq_repr, Int.repr, String.toList_append]
    exact congrArg ('-' :: ·) String.toList_ofList
  rw [decimal_ofNat, decimal, ofString, hchars, List.map_cons]

end FleetProbe.Text
