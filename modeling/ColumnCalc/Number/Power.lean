/-
**Powers of two, of five and of ten.**

`twoTo` and `tenTo` are the scales of exact arithmetic; the lemmas say how they grow. `fiveTo` leads from
one to the other.
-/

namespace ColumnCalc

/-- Two to a power. -/
def twoTo (exponent : Nat) : Nat := Nat.pow 2 exponent

/-- Five to a power. -/
def fiveTo (exponent : Nat) : Nat := Nat.pow 5 exponent

/-- Ten to a power. -/
def tenTo (exponent : Nat) : Nat := Nat.pow 10 exponent

theorem twoTo_succ (exponent : Nat) : twoTo (exponent + 1) = twoTo exponent * 2 := rfl

theorem tenTo_succ (exponent : Nat) : tenTo (exponent + 1) = tenTo exponent * 10 := rfl

theorem fiveTo_mul_twoTo (exponent : Nat) : fiveTo exponent * twoTo exponent = tenTo exponent :=
  (Nat.mul_pow 5 2 exponent).symm

theorem twoTo_pos (exponent : Nat) : 0 < twoTo exponent := by
  induction exponent with
  | zero => decide
  | succ exponent hypothesis => rw [twoTo_succ]; omega

theorem tenTo_pos (exponent : Nat) : 0 < tenTo exponent := by
  induction exponent with
  | zero => decide
  | succ exponent hypothesis => rw [tenTo_succ]; omega

end ColumnCalc
