/-
**The nearest multiple and the nearest number.**

Exact values are compared by their distances. Of the multiples of a step the nearest one is meant
(`IsNearestMultiple`), and of the finite numbers the nearest one (`IsNearestNumber`); of two that are
equally near the even one is, and a number is even if its last bit is clear. Dividing to the nearest
whole number and to the nearest rank give just these.

* `isNearestMultiple_iff` — a multiple is the nearest one if it is at most half a step away.
* `isNearestMultiple_divNearest` — the nearest whole number of a quotient.
* `middle_below`, `middle_above` — a quotient lies between the middles around its rank.
* `isNearestNumber_ofRank` — the rank of a quotient is that of the nearest number.
-/

import ColumnCalc.Proofs.Number.Binary32
import Mathlib.Algebra.Order.Field.Basic
import Mathlib.Algebra.Ring.Int.Parity

namespace ColumnCalc.Binary64

open Decimals (unitsPerOne_pos)

/-! ### The nearest multiple -/

/-- **The multiple of a step that is nearest to a value**; of two equally near, the even one. -/
structure IsNearestMultiple (step exact : ℚ) (count : ℤ) : Prop where
  nearest : ∀ other : ℤ, |count * step - exact| ≤ |other * step - exact|
  even : ∀ other : ℤ, other ≠ count → |other * step - exact| = |count * step - exact| → Even count

section Multiple

variable {step exact : ℚ} {count other : ℤ}

/-- Different multiples are a step apart. -/
theorem step_le_abs_sub (exact : ℚ) (positive : 0 < step) (different : other ≠ count) :
    step ≤ |other * step - exact| + |count * step - exact| := by
  have apart : (1 : ℚ) ≤ |(other : ℚ) - count| := by
    exact_mod_cast Int.one_le_abs (sub_ne_zero.2 different)
  have path := abs_sub_le (other * step) exact (count * step)
  rw [abs_sub_comm exact, ← sub_mul, abs_mul, abs_of_pos positive] at path
  exact (le_mul_of_one_le_left positive.le apart).trans path

/-- **A multiple is the nearest one exactly if it is at most half a step away**, and even if it is
just half a step away. -/
theorem isNearestMultiple_iff (positive : 0 < step) :
    IsNearestMultiple step exact count ↔
      |count * step - exact| ≤ step / 2 ∧ (|count * step - exact| = step / 2 → Even count) := by
  constructor
  · intro ⟨nearest, even⟩
    -- The multiples next to it are not nearer, and one of them is as near in the middle.
    have above := nearest (count + 1)
    have below := nearest (count - 1)
    have evenAbove := even (count + 1) (by omega)
    have evenBelow := even (count - 1) (by omega)
    push_cast at above below evenAbove evenBelow
    rw [add_mul, one_mul, add_sub_right_comm] at above evenAbove
    rw [sub_mul, one_mul, sub_right_comm] at below evenBelow
    generalize count * step - exact = away at *
    rcases le_total 0 away with right | left
    · have half : away ≤ step / 2 := by
        rw [abs_of_nonneg right] at below
        rcases le_abs.1 below with impossible | near
        · linarith
        · linarith
      rw [abs_of_nonneg right]
      refine ⟨half, fun middle => evenBelow ?_⟩
      rw [abs_of_nonneg right, abs_of_nonpos (by linarith)]
      linarith
    · have half : -away ≤ step / 2 := by
        rw [abs_of_nonpos left] at above
        rcases le_abs.1 above with near | impossible
        · linarith
        · linarith
      rw [abs_of_nonpos left]
      refine ⟨half, fun middle => evenAbove ?_⟩
      rw [abs_of_nonpos left, abs_of_nonneg (by linarith)]
      linarith
  · intro ⟨half, even⟩
    constructor
    · intro other
      rcases eq_or_ne other count with rfl | different
      · exact le_rfl
      · have apart := step_le_abs_sub exact positive different
        linarith
    · intro other different same
      have apart := step_le_abs_sub exact positive different
      exact even (le_antisymm half (by linarith))

/-- **There is one nearest multiple.** -/
theorem IsNearestMultiple.unique (positive : 0 < step) (first : IsNearestMultiple step exact count)
    (second : IsNearestMultiple step exact other) : count = other := by
  by_contra different
  have same := le_antisymm (first.nearest other) (second.nearest count)
  have firstEven := first.even other (Ne.symm different) same.symm
  have secondEven := second.even count different same
  -- Two even multiples are two steps apart, and both are at most half a step away.
  have apart : (2 : ℚ) ≤ |(count : ℚ) - other| := by
    obtain ⟨half, isDouble⟩ := firstEven.sub secondEven
    have notZero : (1 : ℤ) ≤ |half| := Int.one_le_abs (by omega)
    have doubled : |count - other| = 2 * |half| := by
      rw [isDouble, ← two_mul, abs_mul]
      rfl
    exact_mod_cast (by omega : 2 ≤ |count - other|)
  have path := abs_sub_le (count * step) exact (other * step)
  rw [abs_sub_comm exact, ← sub_mul, abs_mul, abs_of_pos positive] at path
  have twice := mul_le_mul_of_nonneg_right apart positive.le
  have near := ((isNearestMultiple_iff positive).1 first).1
  have alsoNear := ((isNearestMultiple_iff positive).1 second).1
  linarith

/-- The nearest multiple on the other side of zero. -/
theorem IsNearestMultiple.neg (nearest : IsNearestMultiple step exact count) :
    IsNearestMultiple step (-exact) (-count) := by
  have mirrored : ∀ other : ℤ,
      |(other : ℚ) * step - -exact| = |((-other : ℤ) : ℚ) * step - exact| := by
    intro other
    rw [← abs_neg, Int.cast_neg]
    congr 1
    ring
  constructor
  · intro other
    rw [mirrored, mirrored, neg_neg]
    exact nearest.nearest (-other)
  · intro other different same
    rw [mirrored, mirrored, neg_neg] at same
    exact (nearest.even (-other) (fun equal => different (by rw [← equal, neg_neg])) same).neg

/-- The step can be divided by. -/
theorem isNearestMultiple_div_iff (positive : 0 < step) :
    IsNearestMultiple 1 (exact / step) count ↔ IsNearestMultiple step exact count := by
  have scaled : |(count : ℚ) * 1 - exact / step| = |count * step - exact| / step := by
    rw [← abs_of_pos positive, ← abs_div, abs_of_pos positive, sub_div,
      mul_div_cancel_right₀ _ positive.ne', mul_one]
  rw [isNearestMultiple_iff positive, isNearestMultiple_iff one_pos, scaled,
    div_le_iff₀ positive, div_eq_iff positive.ne', div_mul_eq_mul_div, one_mul]

/-- A multiple is the nearest one to itself. -/
theorem isNearestMultiple_self (positive : 0 < step) :
    IsNearestMultiple step (count * step) count := by
  rw [isNearestMultiple_iff positive, sub_self, abs_zero]
  exact ⟨(half_pos positive).le, fun middle => absurd middle (half_pos positive).ne⟩

/-- Zero is the nearest multiple to what is less than half a step away from it. -/
theorem isNearestMultiple_zero (positive : 0 < step) (small : |exact| < step / 2) :
    IsNearestMultiple step exact 0 := by
  rw [isNearestMultiple_iff positive, Int.cast_zero, zero_mul, zero_sub, abs_neg]
  exact ⟨small.le, fun middle => absurd middle small.ne⟩

end Multiple

/-- **Dividing to the nearest whole number** gives the nearest one. -/
theorem isNearestMultiple_divNearest (numerator : Nat) {denominator : Nat}
    (positive : 0 < denominator) :
    IsNearestMultiple 1 (numerator / denominator) (divNearest numerator denominator) := by
  have divisor : (0 : ℚ) < denominator := Nat.cast_pos.2 positive
  obtain ⟨whole, isWhole⟩ : ∃ whole, whole = divNearest numerator denominator := ⟨_, rfl⟩
  have above := (lt_divNearest_iff numerator whole positive).not.1
    (by rw [isWhole]; exact Nat.lt_irrefl _)
  rw [not_or, not_and] at above
  have scaled : |((whole : ℤ) : ℚ) * 1 - numerator / denominator|
      = |(whole * denominator - numerator : ℚ)| / denominator := by
    rw [← abs_of_pos divisor, ← abs_div, abs_of_pos divisor, sub_div,
      mul_div_cancel_right₀ _ divisor.ne', mul_one, Int.cast_natCast]
  rw [← isWhole, isNearestMultiple_iff one_pos, scaled, div_le_iff₀ divisor,
    div_eq_iff divisor.ne', Int.even_coe_nat]
  have upper : (2 * numerator : ℚ) ≤ (2 * whole + 1) * denominator := by
    exact_mod_cast Nat.not_lt.1 above.1
  have evenAbove : (2 * whole + 1) * denominator = 2 * numerator → Even whole := fun tie =>
    Nat.even_iff.2 ((Nat.mod_two_eq_zero_or_one whole).resolve_right (above.2 tie))
  cases whole with
  | zero =>
    refine ⟨?_, fun _ => ⟨0, rfl⟩⟩
    rw [Nat.cast_zero, zero_mul, zero_sub, abs_neg, Nat.abs_cast]
    push_cast at upper
    linarith
  | succ less =>
    have below := (lt_divNearest_iff numerator less positive).1
      (by rw [← isWhole]; exact less.lt_succ_self)
    have lower : ((2 * less + 1) * denominator : ℚ) ≤ 2 * numerator := by
      exact_mod_cast below.elim Nat.le_of_lt fun tie => tie.1.le
    have evenBelow : (2 * less + 1) * denominator = 2 * numerator → Even (less + 1) := fun tie =>
      (Nat.odd_iff.2 (below.resolve_left (by omega)).2).add_one
    push_cast at upper ⊢
    refine ⟨abs_le.2 ⟨by linarith, by linarith⟩, fun middle => ?_⟩
    rcases eq_or_eq_neg_of_abs_eq middle with right | left
    · refine evenBelow ?_
      have tie : ((2 * less + 1) * denominator : ℚ) = 2 * numerator := by linarith
      exact_mod_cast tie
    · refine evenAbove ?_
      have tie : ((2 * (less + 1) + 1) * denominator : ℚ) = 2 * numerator := by linarith
      exact_mod_cast tie

/-! ### Middles between ranks -/

/-- A mantissa stands for so many steps, even one that has just got a bit more. -/
theorem units_of_mantissa {shift mantissa : Nat} (atMost : mantissa ≤ 2 * binadeSize)
    (canonical : shift = 0 ∨ binadeSize ≤ mantissa) :
    units (shift * binadeSize + mantissa) = mantissa * twoTo shift := by
  rcases Nat.lt_or_eq_of_le atMost with fits | rfl
  · rcases Nat.lt_or_ge mantissa binadeSize with few | full
    · have first : shift = 0 := canonical.resolve_right (Nat.not_le.2 few)
      have isShift : shiftOf mantissa = 0 := by
        unfold shiftOf binadeSize at *
        omega
      rw [first, Nat.zero_mul, Nat.zero_add, units_eq, mantissaOf, isShift, Nat.zero_mul,
        Nat.sub_zero]
    · exact units_of_canonical full fits
  · have carried := @units_of_canonical (shift + 1) binadeSize (Nat.le_refl _) (by decide)
    have same : shift * binadeSize + 2 * binadeSize = (shift + 1) * binadeSize + binadeSize := by
      ring
    rw [same, carried, twoTo_succ]
    ring

section Middles

variable {numerator denominator : Nat}

/-- The rank of a quotient as steps of its binade. -/
theorem exists_mantissa (positive : 0 < denominator)
    (finite : rankOfUnits numerator denominator < infinityRank) :
    ∃ shift mantissa, Spans numerator denominator shift ∧
      mantissa = divNearest numerator (denominator * twoTo shift) ∧
      rankOfUnits numerator denominator = shift * binadeSize + mantissa ∧
      mantissa ≤ 2 * binadeSize ∧ (shift = 0 ∨ binadeSize ≤ mantissa) := by
  obtain ⟨shift, spans⟩ : ∃ shift, Spans numerator denominator shift :=
    ⟨_, spans_log2 numerator positive⟩
  obtain ⟨small, canonical⟩ := spans.mantissa positive
  have lower := le_divNearest numerator (denominator * twoTo shift)
  have upper := divNearest_le numerator (denominator * twoTo shift)
  rw [rankOfUnits_of_spans positive spans] at finite ⊢
  refine ⟨shift, _, spans, rfl, ?_, by omega, canonical.imp_right fun full => by omega⟩
  exact Nat.min_eq_right (by omega)

/-- Binades are even, so a rank is even if its mantissa is. -/
theorem even_rank {shift mantissa : Nat} (even : Even mantissa) :
    Even (shift * binadeSize + mantissa) :=
  Even.add (Even.mul_left ⟨binadeSize / 2, by decide⟩ shift) even

/-- **A quotient does not lie above the middle behind its rank.** -/
theorem middle_above (positive : 0 < denominator)
    (finite : rankOfUnits numerator denominator < infinityRank) :
    let rank := rankOfUnits numerator denominator
    2 * numerator ≤ (units rank + units (rank + 1)) * denominator ∧
      (2 * numerator = (units rank + units (rank + 1)) * denominator → Even rank) := by
  obtain ⟨shift, mantissa, -, isNearest, isRank, atMost, canonical⟩ :=
    exists_mantissa positive finite
  have step : 0 < denominator * twoTo shift := Nat.mul_pos positive (twoTo_pos shift)
  have above := (lt_divNearest_iff numerator mantissa step).not.1
    (by rw [isNearest]; exact Nat.lt_irrefl _)
  rw [not_or, not_and] at above
  have next : (mantissa + 1) * twoTo shift ≤ units (shift * binadeSize + mantissa + 1) := by
    rcases Nat.lt_or_eq_of_le atMost with fits | rfl
    · rw [Nat.add_assoc, units_of_mantissa fits (canonical.imp_right fun full => by omega)]
    · have carried := @units_of_canonical (shift + 1) (binadeSize + 1) (by decide) (by decide)
      have same : shift * binadeSize + 2 * binadeSize + 1
          = (shift + 1) * binadeSize + (binadeSize + 1) := by ring
      rw [same, carried, twoTo_succ, ← Nat.mul_assoc, Nat.mul_right_comm]
      exact Nat.mul_le_mul_right _ (by decide)
  have middle : (2 * mantissa + 1) * (denominator * twoTo shift)
      ≤ (units (shift * binadeSize + mantissa) + units (shift * binadeSize + mantissa + 1))
        * denominator := by
    rw [units_of_mantissa atMost canonical, Nat.mul_left_comm, Nat.mul_comm denominator]
    refine Nat.mul_le_mul_right _ ?_
    rw [show 2 * mantissa + 1 = mantissa + (mantissa + 1) by omega, Nat.add_mul]
    exact Nat.add_le_add_left next _
  rw [isRank]
  refine ⟨Nat.le_trans (Nat.not_lt.1 above.1) middle, fun tie => even_rank ?_⟩
  have isMiddle := Nat.le_antisymm (middle.trans tie.ge) (Nat.not_lt.1 above.1)
  exact Nat.even_iff.2 ((Nat.mod_two_eq_zero_or_one mantissa).resolve_right (above.2 isMiddle))

/-- **A quotient does not lie below the middle in front of its rank.** -/
theorem middle_below (positive : 0 < denominator)
    (finite : rankOfUnits numerator denominator < infinityRank) {before : Nat}
    (isBefore : rankOfUnits numerator denominator = before + 1) :
    (units before + units (before + 1)) * denominator ≤ 2 * numerator ∧
      ((units before + units (before + 1)) * denominator = 2 * numerator → Even (before + 1)) := by
  obtain ⟨shift, mantissa, spans, isNearest, isRank, atMost, canonical⟩ :=
    exists_mantissa positive finite
  have step : 0 < denominator * twoTo shift := Nat.mul_pos positive (twoTo_pos shift)
  rw [← isBefore, isRank, units_of_mantissa atMost canonical]
  by_cases least : shift ≠ 0 ∧ mantissa = binadeSize
  · -- The rank begins its binade, and the steps in front of it are half as wide.
    obtain ⟨later, rfl⟩ := least
    obtain ⟨earlier, rfl⟩ := Nat.exists_eq_add_one_of_ne_zero later
    have isLast : before = earlier * binadeSize + (2 * binadeSize - 1) := by
      rw [isRank, Nat.add_mul] at isBefore
      unfold binadeSize at *
      omega
    have powers : twoTo (earlier + 1 + 52) = 2 * binadeSize * twoTo earlier := by
      rw [show earlier + 1 + 52 = 53 + earlier by omega, twoTo_add]
      rfl
    have reached := spans.above.resolve_left later
    rw [powers, Nat.mul_comm] at reached
    have sum : (2 * binadeSize - 1) * twoTo earlier + binadeSize * (twoTo earlier * 2)
        < 2 * (2 * binadeSize * twoTo earlier) := by
      have power := twoTo_pos earlier
      unfold binadeSize
      omega
    rw [isLast, units_of_canonical (by decide) (by decide), twoTo_succ]
    have strict := Nat.mul_lt_mul_of_pos_right sum positive
    rw [Nat.mul_assoc 2] at strict
    have below := Nat.lt_of_lt_of_le strict (Nat.mul_le_mul_left 2 reached)
    exact ⟨Nat.le_of_lt below, fun tie => absurd tie (Nat.ne_of_lt below)⟩
  · obtain ⟨less, rfl⟩ : ∃ less, mantissa = less + 1 := by
      refine Nat.exists_eq_add_one_of_ne_zero fun zero => ?_
      unfold binadeSize at *
      omega
    have isLess : before = shift * binadeSize + less := by omega
    have below := (lt_divNearest_iff numerator less step).1
      (by rw [← isNearest]; exact Nat.lt_succ_self less)
    have middle : (less * twoTo shift + (less + 1) * twoTo shift) * denominator
        = (2 * less + 1) * (denominator * twoTo shift) := by ring
    have stillCanonical : shift = 0 ∨ binadeSize ≤ less := by omega
    rw [isLess, units_of_mantissa (by omega) stillCanonical, middle]
    refine ⟨below.elim Nat.le_of_lt fun tie => tie.1.le, fun tie => even_rank ?_⟩
    exact (Nat.odd_iff.2 (below.resolve_left (by omega)).2).add_one

end Middles

/-! ### The nearest rank -/

/-- Of what lies behind a middle nothing is nearer than what lies in front of it. -/
theorem abs_sub_le_of_middle {near next far exact : ℚ} (less : near < next) (le : next ≤ far)
    (middle : 2 * exact ≤ near + next) : |near - exact| ≤ |far - exact| ∧
      (|far - exact| = |near - exact| → 2 * exact = near + next) := by
  rw [abs_of_nonneg (by linarith : 0 ≤ far - exact)]
  rcases le_total 0 (near - exact) with right | left
  · rw [abs_of_nonneg right]
    exact ⟨by linarith, fun same => by linarith⟩
  · rw [abs_of_nonpos left]
    exact ⟨by linarith, fun same => by linarith⟩

/-- **The rank of a quotient is the nearest one**, and even if another one is as near. -/
theorem nearest_rank {numerator denominator : Nat} (positive : 0 < denominator)
    (finite : rankOfUnits numerator denominator < infinityRank) {other : Nat}
    (different : other ≠ rankOfUnits numerator denominator) :
    let rank := rankOfUnits numerator denominator
    |(units rank : ℚ) - numerator / denominator| ≤ |(units other : ℚ) - numerator / denominator| ∧
      (|(units other : ℚ) - numerator / denominator|
        = |(units rank : ℚ) - numerator / denominator| → Even rank) := by
  intro rank
  have divisor : (0 : ℚ) < denominator := Nat.cast_pos.2 positive
  rcases Nat.lt_or_gt_of_ne different with below | above
  · obtain ⟨before, isBefore⟩ := Nat.exists_eq_add_one_of_ne_zero (Nat.ne_zero_of_lt below)
    obtain ⟨middle, even⟩ := middle_below positive finite isBefore
    have isRank : rank = before + 1 := isBefore
    have less : -(units (before + 1) : ℚ) < -units before :=
      neg_lt_neg (Nat.cast_lt.2 (units_succ_gt before))
    have le : -(units before : ℚ) ≤ -units other :=
      neg_le_neg (Nat.cast_le.2 (units_le (by omega)))
    have halved : 2 * -(numerator / denominator : ℚ) ≤ -units (before + 1) + -units before := by
      have scaled : ((units before + units (before + 1)) * denominator : ℚ) ≤ 2 * numerator := by
        exact_mod_cast middle
      rw [← le_div_iff₀ divisor, mul_div_assoc] at scaled
      linarith
    obtain ⟨nearer, tie⟩ := abs_sub_le_of_middle less le halved
    rw [neg_sub_neg, abs_sub_comm, neg_sub_neg, abs_sub_comm (numerator / denominator : ℚ)]
      at nearer tie
    rw [isRank]
    refine ⟨nearer, fun same => even ?_⟩
    have scaled : (units before + units (before + 1) : ℚ) = 2 * numerator / denominator := by
      rw [mul_div_assoc]
      linarith [tie same]
    rw [eq_div_iff divisor.ne'] at scaled
    exact_mod_cast scaled
  · obtain ⟨middle, even⟩ := middle_above positive finite
    have less : (units rank : ℚ) < units (rank + 1) := Nat.cast_lt.2 (units_succ_gt rank)
    have le : (units (rank + 1) : ℚ) ≤ units other := Nat.cast_le.2 (units_le above)
    have halved : 2 * (numerator / denominator : ℚ) ≤ units rank + units (rank + 1) := by
      rw [← mul_div_assoc, div_le_iff₀ divisor]
      exact_mod_cast middle
    obtain ⟨nearer, tie⟩ := abs_sub_le_of_middle less le halved
    refine ⟨nearer, fun same => even ?_⟩
    have scaled := tie same
    rw [← mul_div_assoc, div_eq_iff divisor.ne'] at scaled
    exact_mod_cast scaled

/-! ### The nearest number -/

/-- The exact value of a finite number. What is not finite counts as zero. -/
def exactValue (number : Float) : ℚ :=
  (exactValue? number).getD 0

/-- **The finite number that is nearest to a value**; of two equally near, the one whose last bit is
clear. -/
structure IsNearestNumber (exact : ℚ) (number : Float) : Prop where
  isFinite : number.isFinite = true
  nearest : ∀ other : Float, other.isFinite = true →
    |exactValue number - exact| ≤ |exactValue other - exact|
  even : ∀ other : Float, other.isFinite = true → exactValue other ≠ exactValue number →
    |exactValue other - exact| = |exactValue number - exact| → Even number.toBits.toNat

/-- A number is the nearest one to its own value. -/
theorem isNearestNumber_self {number : Float} (isFinite : number.isFinite = true) :
    IsNearestNumber (exactValue number) number := by
  refine ⟨isFinite, fun other _ => ?_, fun other _ different same => ?_⟩
  · rw [sub_self, abs_zero]
    exact abs_nonneg _
  · rw [sub_self, abs_zero, abs_eq_zero, sub_eq_zero] at same
    exact absurd same different

/-- The sign as a factor. -/
def factorOf (negative : Bool) : ℚ :=
  if negative then -1 else 1

section Number

variable {number : Float} {negative : Bool} {rank : Nat}

theorem exactValue_eq (isNumber : decompose number = .finite negative rank) :
    exactValue number = factorOf negative * (units rank / unitsPerOne) := by
  rw [exactValue, exactValue?, isNumber]
  rfl

theorem even_toBits_iff (isNumber : decompose number = .finite negative rank) :
    Even number.toBits.toNat ↔ Even rank := by
  rw [← pattern_decompose, isNumber]
  have sign : Even signBit := ⟨signBit / 2, by decide⟩
  cases negative with
  | false => exact Iff.rfl
  | true =>
    show Even (signBit + rank) ↔ Even rank
    rw [Nat.even_add, iff_true_left sign]

theorem abs_factor_mul (negative : Bool) (value : ℚ) : |factorOf negative * value| = |value| := by
  cases negative with
  | false => rw [factorOf, if_neg Bool.false_ne_true, one_mul]
  | true => rw [factorOf, if_pos rfl, neg_one_mul, abs_neg]

theorem abs_factor_sub (negative : Bool) (first second : ℚ) :
    |factorOf negative * first - factorOf negative * second| = |first - second| := by
  rw [← mul_sub, abs_factor_mul]

theorem abs_factor_sub_other {negative other : Bool} (different : other ≠ negative)
    {first second : ℚ} (isFirst : 0 ≤ first) (isSecond : 0 ≤ second) :
    |factorOf other * first - factorOf negative * second| = first + second := by
  have sum : 0 ≤ first + second := add_nonneg isFirst isSecond
  cases negative with
  | false =>
    rw [Bool.eq_true_of_not_eq_false different, factorOf, factorOf, if_pos rfl,
      if_neg Bool.false_ne_true, neg_one_mul, one_mul, ← neg_add', abs_neg, abs_of_nonneg sum]
  | true =>
    rw [Bool.eq_false_of_not_eq_true different, factorOf, factorOf, if_pos rfl,
      if_neg Bool.false_ne_true, neg_one_mul, one_mul, sub_neg_eq_add, abs_of_nonneg sum]

/-- **The rank of a quotient is that of the nearest number.** -/
theorem isNearestNumber_ofRank {numerator denominator : Nat} (negative : Bool)
    (positive : 0 < denominator) (finite : rankOfUnits numerator denominator < infinityRank) :
    IsNearestNumber (factorOf negative * (numerator / denominator / unitsPerOne))
      (ofRank negative (rankOfUnits numerator denominator)) := by
  obtain ⟨rank, isRank⟩ : ∃ rank, rank = rankOfUnits numerator denominator := ⟨_, rfl⟩
  obtain ⟨exact, isExact⟩ : ∃ exact : ℚ, exact = numerator / denominator := ⟨_, rfl⟩
  have isNumber := decompose_ofRank negative finite
  have one : (0 : ℚ) < unitsPerOne := Nat.cast_pos.2 unitsPerOne_pos
  have nonneg : 0 ≤ exact := isExact ▸ div_nonneg (Nat.cast_nonneg _) (Nat.cast_nonneg _)
  have ranks : ∀ other, other ≠ rank → |(units rank : ℚ) - exact| ≤ |(units other : ℚ) - exact| ∧
      (|(units other : ℚ) - exact| = |(units rank : ℚ) - exact| → Even rank) := by
    intro other different
    rw [isRank, isExact]
    exact nearest_rank positive finite (isRank ▸ different)
  -- A zero is no farther than what lies on the other side of it.
  have zero : |(units rank : ℚ) - exact| ≤ exact ∧
      (0 < units rank → |(units rank : ℚ) - exact| = exact → Even rank) := by
    have atZero : |((units 0 : ℕ) : ℚ) - exact| = exact := by
      rw [units_zero, Nat.cast_zero, zero_sub, abs_neg, abs_of_nonneg nonneg]
    rcases eq_or_ne 0 rank with rfl | different
    · exact ⟨atZero.le, fun some => absurd some (Nat.lt_irrefl 0)⟩
    · have compared := ranks 0 different
      rw [atZero] at compared
      exact ⟨compared.1, fun _ same => compared.2 same.symm⟩
  rw [← isRank, ← isExact] at *
  have own : |exactValue (ofRank negative rank) - factorOf negative * (exact / unitsPerOne)|
      = |(units rank : ℚ) - exact| / unitsPerOne := by
    rw [exactValue_eq isNumber, abs_factor_sub, ← sub_div, abs_div, abs_of_pos one]
  have others : ∀ {other : Float} {sign : Bool} {otherRank : Nat},
      decompose other = .finite sign otherRank →
        |exactValue other - factorOf negative * (exact / unitsPerOne)|
          = (if sign = negative then |(units otherRank : ℚ) - exact| else units otherRank + exact)
            / unitsPerOne := by
    intro other sign otherRank isOther
    rw [exactValue_eq isOther]
    split
    · next same => rw [same, abs_factor_sub, ← sub_div, abs_div, abs_of_pos one]
    · next different =>
      rw [abs_factor_sub_other different (div_nonneg (Nat.cast_nonneg _) one.le)
        (div_nonneg nonneg one.le), ← add_div]
  refine ⟨isFinite_of_decompose isNumber, ?_, ?_⟩
  · intro other isFinite
    obtain ⟨sign, otherRank, isOther⟩ := (isFinite_iff other).1 isFinite
    rw [own, others isOther]
    refine div_le_div_of_nonneg_right ?_ one.le
    split
    · rcases eq_or_ne otherRank rank with rfl | different
      · exact le_rfl
      · exact (ranks otherRank different).1
    · have more : (0 : ℚ) ≤ units otherRank := Nat.cast_nonneg _
      linarith [zero.1]
  · intro other isFinite different same
    obtain ⟨sign, otherRank, isOther⟩ := (isFinite_iff other).1 isFinite
    rw [own, others isOther, div_left_inj' one.ne'] at same
    rw [even_toBits_iff isNumber]
    rw [exactValue_eq isNumber, exactValue_eq isOther] at different
    split at same
    · next sameSign =>
      refine (ranks otherRank fun sameRank => different ?_).2 same
      rw [sameRank, sameSign]
    · have more : (0 : ℚ) ≤ units otherRank := Nat.cast_nonneg _
      have nothing : (units otherRank : ℚ) = 0 := by linarith [zero.1]
      refine zero.2 (Nat.pos_of_ne_zero fun isZero => different ?_) (by linarith)
      rw [nothing, isZero, Nat.cast_zero, zero_div, mul_zero, mul_zero]

end Number

end ColumnCalc.Binary64
