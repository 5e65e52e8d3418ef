/-
**Binary32 numbers.**

A binary32 number has at most twenty-four significant bits (`IsBinary32`), and all of them are binary64
numbers as well. A quotient is rounded to the nearest one (`RoundsTo`) by finding the step that leaves
twenty-four bits in front of the point and dividing to the nearest whole number of these steps.

* `exactValue?` — what a binary64 number stands for.
* `abs_divNearest_sub_lt` — dividing to the nearest whole number is off by less than a half, unless the
  quotient lies in the middle.
* `roundsTo_divNearest` — so no other binary32 number is as near.
* `ofQuotient_twoTo` — what has few bits is a binary64 number without rounding.
-/

import ColumnCalc.Proofs.Number.Comparison
import ColumnCalc.Proofs.Number.Decimals
import Mathlib.Algebra.Order.Field.Rat
import Mathlib.Algebra.Order.Ring.Abs
import Mathlib.Tactic.FieldSimp
import Mathlib.Tactic.Linarith
import Mathlib.Tactic.NormNum
import Mathlib.Tactic.Ring

namespace ColumnCalc.Binary64

open Decimals (oneRank_lt one_eq_ofRank units_oneRank unitsPerOne_pos)

/-! ### Exact values -/

/-- The exact value of a finite number. -/
def exactValue? (value : Float) : Option ℚ :=
  match decompose value with
  | .finite negative rank => some ((if negative then -1 else 1) * (units rank / unitsPerOne))
  | _ => none

theorem exactValue?_ofRank {rank : Nat} (small : rank < infinityRank) :
    exactValue? (ofRank false rank) = some (units rank / unitsPerOne : ℚ) := by
  unfold exactValue?
  rw [decompose_ofRank false small]
  exact congrArg some (one_mul _)

section One

variable {rank : Nat} (small : rank < infinityRank)
include small

/-- A number without a sign is at most one if its exact value is. -/
theorem ofRank_le_one_iff : ofRank false rank ≤ 1 ↔ (units rank / unitsPerOne : ℚ) ≤ 1 := by
  have positive : (0 : ℚ) < unitsPerOne := Nat.cast_pos.2 unitsPerOne_pos
  rw [one_eq_ofRank, le_iff (position?_ofRank (Nat.le_of_lt small))
    (position?_ofRank (Nat.le_of_lt oneRank_lt)), Int.ofNat_le, ← units_le_iff, units_oneRank,
    div_le_one₀ positive, Nat.cast_le]

/-- A number without a sign is one if its exact value is. -/
theorem ofRank_eq_one_iff : ofRank false rank = 1 ↔ (units rank / unitsPerOne : ℚ) = 1 := by
  have positive : (unitsPerOne : ℚ) ≠ 0 := Nat.cast_ne_zero.2 unitsPerOne_pos.ne'
  rw [div_eq_one_iff_eq positive, Nat.cast_inj, ← units_oneRank]
  constructor
  · intro same
    have isRank := congrArg decompose same
    rw [one_eq_ofRank, decompose_ofRank false small, decompose_ofRank false oneRank_lt] at isRank
    cases isRank
    rfl
  · intro same
    have isRank := Nat.le_antisymm (units_le_iff.1 same.le) (units_le_iff.1 same.ge)
    rw [isRank, one_eq_ofRank]

end One

/-- With all fifty-three bits a mantissa fills its binade. -/
theorem widened_bounds {mantissa : Nat} (positive : mantissa ≠ 0) (fits : mantissa < 2 * binadeSize) :
    mantissa.log2 ≤ 52 ∧ binadeSize ≤ mantissa * twoTo (52 - mantissa.log2) ∧
      mantissa * twoTo (52 - mantissa.log2) < 2 * binadeSize := by
  have least : twoTo mantissa.log2 ≤ mantissa := Nat.log2_self_le positive
  have less : mantissa < twoTo (mantissa.log2 + 1) := Nat.lt_log2_self
  have few : mantissa.log2 ≤ 52 := Nat.le_of_lt_succ ((Nat.log2_lt positive).2 fits)
  have full : twoTo mantissa.log2 * twoTo (52 - mantissa.log2) = binadeSize := by
    rw [← twoTo_add, Nat.add_sub_cancel' few]
    rfl
  refine ⟨few, ?_, ?_⟩
  · rw [← full]
    exact Nat.mul_le_mul_right _ least
  · rw [← full, Nat.mul_comm 2, Nat.mul_right_comm, ← twoTo_succ]
    exact Nat.mul_lt_mul_of_pos_right less (twoTo_pos _)

/-- **A mantissa that fits over a power of two is a number without rounding.** -/
theorem ofQuotient_twoTo {mantissa exponent : Nat} (positive : mantissa ≠ 0)
    (fits : mantissa < 2 * binadeSize) (bounded : exponent ≤ 1022) :
    ∃ rank < infinityRank, ofQuotient false mantissa (twoTo exponent) = ofRank false rank ∧
      units rank * twoTo exponent = mantissa * unitsPerOne := by
  obtain ⟨few, normal, small⟩ := widened_bounds positive fits
  obtain ⟨rank, isRank⟩ : ∃ rank, rank = (1022 + mantissa.log2 - exponent) * binadeSize
      + mantissa * twoTo (52 - mantissa.log2) := ⟨_, rfl⟩
  have isUnits : units rank = mantissa * twoTo (52 - mantissa.log2)
      * twoTo (1022 + mantissa.log2 - exponent) := isRank ▸ units_of_canonical normal small
  have bound : rank < infinityRank := by
    unfold infinityRank binadeSize at *
    omega
  have value : units rank * twoTo exponent = mantissa * unitsPerOne := by
    rw [isUnits, unitsPerOne_eq, Nat.mul_assoc, Nat.mul_assoc, ← twoTo_add, ← twoTo_add]
    congr 2
    omega
  refine ⟨rank, bound, ?_, value⟩
  rw [ofQuotient, rankOfQuotient, ← value, rankOfUnits_units (Nat.le_of_lt bound) (twoTo_pos _)]

/-! ### Binary32 numbers -/

/-- **A finite binary32 number**: a mantissa of at most twenty-four bits times a power of two. -/
def IsBinary32 (value : ℚ) : Prop :=
  ∃ mantissa exponent : ℤ, |mantissa| < 2 ^ 24 ∧ -149 ≤ exponent ∧ exponent ≤ 104 ∧
    value = mantissa * 2 ^ exponent

/-- **A value is rounded to a binary32 number**: all other ones are farther away from it. -/
structure RoundsTo (exact value : ℚ) : Prop where
  isBinary32 : IsBinary32 value
  nearest : ∀ other, IsBinary32 other → other ≠ value → |value - exact| < |other - exact|

theorem isBinary32_zero : IsBinary32 0 :=
  ⟨0, 0, by norm_num, by norm_num, by norm_num, by norm_num⟩

theorem isBinary32_one : IsBinary32 1 :=
  ⟨1, 0, by norm_num, by norm_num, by norm_num, by norm_num⟩

/-- The greatest binary32 number below one. -/
theorem isBinary32_belowOne : IsBinary32 (1 - 1 / 2 ^ 24) :=
  ⟨2 ^ 24 - 1, -24, by norm_num, by norm_num, by norm_num, by norm_num⟩

/-- A binary32 number is rounded to itself. -/
theorem IsBinary32.roundsTo {value : ℚ} (isBinary32 : IsBinary32 value) : RoundsTo value value := by
  refine ⟨isBinary32, fun other _ different => ?_⟩
  rw [sub_self, abs_zero]
  exact abs_pos.2 (sub_ne_zero.2 different)

/-- A binary32 number is rounded to nothing else. -/
theorem RoundsTo.eq_of_isBinary32 {exact value : ℚ} (rounds : RoundsTo exact value)
    (isBinary32 : IsBinary32 exact) : value = exact := by
  by_contra different
  have nearer := rounds.nearest exact isBinary32 (Ne.symm different)
  rw [sub_self, abs_zero] at nearer
  exact absurd nearer (not_lt.2 (abs_nonneg _))

/-- A value that is at most one is not rounded to more than one. -/
theorem RoundsTo.le_one {exact value : ℚ} (rounds : RoundsTo exact value) (le : exact ≤ 1) :
    value ≤ 1 := by
  by_contra above
  have nearer := rounds.nearest 1 isBinary32_one (by linarith)
  rw [abs_of_nonneg (by linarith), abs_of_nonneg (by linarith)] at nearer
  linarith

/-- **A value is rounded to one only if it is near one.** -/
theorem RoundsTo.ne_one {exact value : ℚ} (rounds : RoundsTo exact value)
    (below : exact ≤ 1 - 1 / 2 ^ 24) : value ≠ 1 := by
  rintro rfl
  have nearer := rounds.nearest (1 - 1 / 2 ^ 24) isBinary32_belowOne (by norm_num)
  rw [abs_of_nonneg (by linarith), abs_of_nonneg (by linarith)] at nearer
  linarith

/-! ### Rounding a quotient -/

/-- **Dividing to the nearest whole number** is off by less than a half, unless the quotient lies in the
middle between two of them. -/
theorem abs_divNearest_sub_lt {numerator denominator : Nat} (positive : 0 < denominator)
    (noTie : 2 * (numerator % denominator) ≠ denominator) :
    |(divNearest numerator denominator : ℚ) - numerator / denominator| < 1 / 2 := by
  have divisor : (0 : ℚ) < denominator := Nat.cast_pos.2 positive
  have whole : (denominator : ℚ) * (numerator / denominator : ℕ) + (numerator % denominator : ℕ)
      = numerator := by
    exact_mod_cast Nat.div_add_mod numerator denominator
  have quotient : (numerator : ℚ) / denominator
      = (numerator / denominator : ℕ) + (numerator % denominator : ℕ) / denominator := by
    rw [← whole]
    field_simp
  have bounds : (numerator % denominator : ℕ) < (denominator : ℚ) :=
    Nat.cast_lt.2 (Nat.mod_lt _ positive)
  simp only [divNearest]
  generalize numerator / denominator = floor at quotient ⊢
  generalize numerator % denominator = rest at quotient noTie bounds ⊢
  rw [quotient]
  split
  · rename_i below
    have fraction : (rest : ℚ) / denominator < 1 / 2 := by
      rw [div_lt_div_iff₀ divisor two_pos]
      exact_mod_cast (by omega : rest * 2 < 1 * denominator)
    have nonneg : (0 : ℚ) ≤ rest / denominator := div_nonneg (Nat.cast_nonneg rest) divisor.le
    rw [abs_lt]
    constructor <;> linarith
  · rename_i notBelow
    have fraction : 1 / 2 < (rest : ℚ) / denominator := by
      rw [div_lt_div_iff₀ two_pos divisor]
      exact_mod_cast (by omega : 1 * denominator < rest * 2)
    have less : (rest : ℚ) / denominator < 1 := (div_lt_one₀ divisor).2 bounds
    rw [if_pos (by omega), Nat.cast_add_one, abs_lt]
    constructor <;> linarith

/-- A whole number that is less than a half away is the only one. -/
theorem half_lt_abs_sub {exact : ℚ} {whole other : ℤ} (near : |(whole : ℚ) - exact| < 1 / 2)
    (different : other ≠ whole) : 1 / 2 < |(other : ℚ) - exact| := by
  have apart : (1 : ℚ) ≤ |(other : ℚ) - whole| := by
    exact_mod_cast Int.one_le_abs (sub_ne_zero.2 different)
  have path := abs_sub_le (other : ℚ) exact whole
  rw [abs_sub_comm exact] at path
  linarith

/-- With steps finer than one, twenty-four bits do not reach the numbers that take all of them in front
of the point. -/
theorem lt_of_finer {mantissa exponent : ℤ} (small : |mantissa| < 2 ^ 24) (finer : exponent < 0) :
    (mantissa * 2 ^ exponent : ℚ) < 2 ^ 23 := by
  have bits : (mantissa : ℚ) < 2 ^ 24 := by exact_mod_cast (abs_lt.1 small).2
  have half : (2 : ℚ) ^ exponent ≤ 2 ^ (-1 : ℤ) := zpow_le_zpow_right₀ one_le_two (by omega)
  have positive : (0 : ℚ) < 2 ^ exponent := zpow_pos two_pos _
  rcases le_or_gt (mantissa : ℚ) 0 with low | high
  · exact (mul_nonpos_of_nonpos_of_nonneg low positive.le).trans_lt (by norm_num)
  · calc (mantissa : ℚ) * 2 ^ exponent
        ≤ mantissa * 2 ^ (-1 : ℤ) := mul_le_mul_of_nonneg_left half high.le
      _ < 2 ^ 24 * 2 ^ (-1 : ℤ) := mul_lt_mul_of_pos_right bits (by norm_num)
      _ = 2 ^ 23 := by norm_num

/-- **Where twenty-four bits are in front of the point**, no number of twenty-four bits is as near as
the nearest whole number. -/
theorem abs_sub_lt_of_near {exact : ℚ} {whole mantissa exponent : ℤ}
    (near : |(whole : ℚ) - exact| < 1 / 2) (large : 2 ^ 23 ≤ exact) (small : |mantissa| < 2 ^ 24)
    (different : (mantissa * 2 ^ exponent : ℚ) ≠ whole) :
    |(whole : ℚ) - exact| < |mantissa * 2 ^ exponent - exact| := by
  rcases le_or_gt 0 exponent with coarse | finer
  · obtain ⟨doublings, rfl⟩ := Int.eq_ofNat_of_zero_le coarse
    have isWhole : (mantissa * 2 ^ (doublings : ℤ) : ℚ) = (mantissa * 2 ^ doublings : ℤ) := by
      rw [zpow_natCast, Int.cast_mul, Int.cast_pow, Int.cast_ofNat]
    rw [isWhole] at different ⊢
    exact near.trans (half_lt_abs_sub near (mt (congrArg Int.cast) different))
  · -- The other number lies below the least whole number that takes all the bits.
    have below := lt_of_finer small finer
    have least : |(whole : ℚ) - exact| ≤ |(2 : ℚ) ^ 23 - exact| := by
      rcases eq_or_ne (2 ^ 23) whole with rfl | apart
      · rw [Int.cast_pow, Int.cast_ofNat]
      · have far := half_lt_abs_sub near apart
        rw [Int.cast_pow, Int.cast_ofNat] at far
        exact (near.trans far).le
    refine least.trans_lt ?_
    rw [abs_of_nonpos (by linarith), abs_of_nonpos (by linarith)]
    linarith

/-- A mantissa over a power of two is a binary32 number, even one that has just got a bit more. -/
theorem isBinary32_of_le {mantissa exponent : Nat} (atMost : mantissa ≤ 2 ^ 24)
    (bounded : exponent ≤ 149) : IsBinary32 (mantissa / 2 ^ exponent : ℚ) := by
  rcases Nat.lt_or_eq_of_le atMost with fits | carried
  · refine ⟨mantissa, -exponent, ?_, by omega, by omega, ?_⟩
    · rw [Nat.abs_cast]
      exact_mod_cast fits
    · rw [zpow_neg, zpow_natCast, Int.cast_natCast, div_eq_mul_inv]
  · refine ⟨2 ^ 23, 1 - exponent, by norm_num, by omega, by omega, ?_⟩
    rw [carried, zpow_sub₀ two_ne_zero, zpow_natCast]
    norm_num
    ring

/-- **A quotient is rounded to the nearest whole number of steps** that leave twenty-four bits. -/
theorem roundsTo_divNearest {numerator denominator exponent : Nat} (positive : 0 < denominator)
    (noTie : 2 * (numerator * twoTo exponent % denominator) ≠ denominator)
    (least : denominator * twoTo 23 ≤ numerator * twoTo exponent)
    (less : numerator * twoTo exponent < denominator * twoTo 24) (bounded : exponent ≤ 149) :
    RoundsTo (numerator / denominator)
      (divNearest (numerator * twoTo exponent) denominator / twoTo exponent) := by
  obtain ⟨mantissa, isMantissa⟩ :
      ∃ mantissa, mantissa = divNearest (numerator * twoTo exponent) denominator := ⟨_, rfl⟩
  have atMost : mantissa ≤ 2 ^ 24 := by
    rw [isMantissa]
    exact divNearest_le_of_le positive (by rw [Nat.mul_comm (2 ^ 24)]; exact less.le)
  obtain ⟨scaled, isScaled⟩ : ∃ scaled : ℚ, scaled = numerator / denominator * 2 ^ exponent :=
    ⟨_, rfl⟩
  have divisor : (0 : ℚ) < denominator := Nat.cast_pos.2 positive
  have power : (0 : ℚ) < 2 ^ exponent := by positivity
  have castPower : ((twoTo exponent : ℕ) : ℚ) = 2 ^ exponent := Nat.cast_pow 2 exponent
  have near : |((mantissa : ℤ) : ℚ) - scaled| < 1 / 2 := by
    have half := abs_divNearest_sub_lt positive noTie
    rw [← isMantissa, Nat.cast_mul, castPower, mul_div_right_comm, ← isScaled] at half
    rw [Int.cast_natCast]
    exact half
  have atLeast : (2 : ℚ) ^ 23 ≤ scaled := by
    rw [isScaled, ← mul_div_right_comm, le_div_iff₀ divisor, mul_comm]
    exact_mod_cast least
  rw [← isMantissa, castPower]
  refine ⟨isBinary32_of_le atMost bounded, ?_⟩
  rintro other ⟨otherMantissa, otherExponent, small, _, _, isOther⟩ different
  have steps : other * 2 ^ exponent = otherMantissa * 2 ^ (otherExponent + exponent) := by
    rw [isOther, zpow_add₀ two_ne_zero, zpow_natCast, mul_assoc]
  have apart : (otherMantissa * 2 ^ (otherExponent + exponent) : ℚ) ≠ (mantissa : ℤ) := by
    rw [← steps, Int.cast_natCast]
    exact fun same => different (by rw [← same, mul_div_cancel_right₀ _ power.ne'])
  have farther := abs_sub_lt_of_near near atLeast small apart
  rw [← steps, Int.cast_natCast] at farther
  have scale (near : ℚ) : near * 2 ^ exponent - scaled
      = (near - numerator / denominator) * 2 ^ exponent := by rw [isScaled, sub_mul]
  rw [← div_mul_cancel₀ (mantissa : ℚ) power.ne', scale, scale, abs_mul, abs_mul] at farther
  exact lt_of_mul_lt_mul_right farther (abs_nonneg _)

end ColumnCalc.Binary64
