/-
**Where rounding to decimals stays finite.**

* `decompose_roundToPlaces` — rounding to decimals keeps the sign of a finite number and stays finite,
  since it moves a number by at most half, and a half does not reach from the greatest finite number to
  the end of the range.
* `atLeastOne_powerOfTen` — powers of ten are at least one, finite or not.
* `decompose_roundToMultiple` — rounding to a multiple of a divisor that is at least one gives the
  rounded quotient times the divisor, rounded: infinity from `overflowUnits` on.
-/

import ColumnCalc.Number.Decimals
import ColumnCalc.Proofs.Number.Arithmetic

namespace ColumnCalc.Binary64

/-- A sign and a rank up to infinity's. -/
def partsOfRank (negative : Bool) (rank : Nat) : Parts :=
  if rank < infinityRank then .finite negative rank else .infinite negative

theorem decompose_ofRank_le (negative : Bool) {rank : Nat} (small : rank ≤ infinityRank) :
    decompose (ofRank negative rank) = partsOfRank negative rank := by
  unfold partsOfRank
  rcases Nat.lt_or_eq_of_le small with finite | infinite
  · rw [if_pos finite, decompose_ofRank negative finite]
  · rw [infinite, if_neg (Nat.lt_irrefl _), decompose_ofRank_infinity]

/-- The exact value of a finite number without its sign, in units. -/
def magnitude (value : Float) : Nat :=
  match decompose value with
  | .finite _ rank => units rank
  | _ => 0

theorem magnitude_eq {value : Float} {negative : Bool} {rank : Nat}
    (isValue : decompose value = .finite negative rank) : magnitude value = units rank := by
  rw [magnitude, isValue]

/-! ### The greatest finite magnitude -/

/-- From the greatest finite magnitude it takes half a step to the end of the range. -/
theorem units_add_one_lt {rank : Nat} (small : rank < infinityRank) :
    units rank + unitsPerOne < overflowUnits := by
  have greatest := units_le (Nat.le_sub_one_of_lt small)
  have last : units (infinityRank - 1) = (2 * binadeSize - 1) * (twoTo 2044 * 2) := by
    have shift : shiftOf (infinityRank - 1) = 2045 := by decide
    have mantissa : mantissaOf (infinityRank - 1) = 2 * binadeSize - 1 := by decide
    rw [units_eq, shift, mantissa, twoTo_succ 2044]
  have one : unitsPerOne < twoTo 2044 := by
    rw [unitsPerOne_eq]
    exact twoTo_lt (by decide)
  have steps : 4 * binadeSize - 1 = (2 * binadeSize - 1) * 2 + 1 := by decide
  rw [last] at greatest
  rw [overflowUnits, steps]
  generalize 2 * binadeSize - 1 = factor at *
  generalize twoTo 2044 = power at *
  generalize unitsPerOne = unit at *
  rw [Nat.mul_comm power, ← Nat.mul_assoc] at greatest
  rw [Nat.add_mul, Nat.one_mul]
  omega

end ColumnCalc.Binary64

namespace ColumnCalc.Decimals

open Binary64

/-! ### Rounding to decimals -/

/-- The rank of a number rounded to decimals is finite. -/
theorem rank_roundToPlaces_lt {rank : Nat} (small : rank < infinityRank) (places : Nat) :
    rankOfQuotient (divNearest (units rank * tenTo places) unitsPerOne) (tenTo places)
      < infinityRank := by
  have scale : 0 < tenTo places := tenTo_pos places
  have near := divNearest_mul_le (units rank * tenTo places) unitsPerOne
  have below := Nat.mul_lt_mul_of_pos_right (units_add_one_lt small) scale
  have one := Nat.mul_le_mul_left unitsPerOne (Nat.succ_le_of_lt scale)
  rw [Nat.add_mul] at below
  refine (rankOfUnits_lt_infinity scale).2 ?_
  generalize divNearest (units rank * tenTo places) unitsPerOne * unitsPerOne = rounded at *
  generalize units rank * tenTo places = exact at *
  generalize unitsPerOne * tenTo places = scaledOne at *
  generalize overflowUnits * tenTo places = threshold at *
  omega

/-- **Rounding to decimals stays finite** and keeps the sign. -/
theorem decompose_roundToPlaces {value : Float} {negative : Bool} {rank : Nat}
    (isValue : decompose value = .finite negative rank) (places : Nat) :
    ∃ rounded, decompose (roundToPlaces value places) = .finite negative rounded := by
  rw [roundToPlaces, isValue]
  exact ⟨_, decompose_ofRank negative (rank_roundToPlaces_lt (rank_lt_infinity isValue) places)⟩

/-! ### Powers of ten -/

/-- The number is at least one; it may be infinity. -/
def AtLeastOne (value : Float) : Prop :=
  ∃ rank, decompose value = partsOfRank false rank ∧ unitsPerOne ≤ units rank ∧ rank ≤ infinityRank

/-- The rank of one. -/
def oneRank : Nat := 1023 * binadeSize

theorem units_oneRank : units oneRank = unitsPerOne := by
  have shift : shiftOf oneRank = 1022 := by decide
  have mantissa : mantissaOf oneRank = twoTo 52 := by decide
  rw [units_eq, shift, mantissa, ← twoTo_add, unitsPerOne_eq]

theorem one_eq_ofRank : (1 : Float) = ofRank false oneRank := by decide +kernel

theorem oneRank_lt : oneRank < infinityRank := by decide

theorem unitsPerOne_pos : 0 < unitsPerOne := twoTo_pos 1074

theorem atLeastOne_ofRank {rank : Nat} (large : oneRank ≤ rank) (small : rank ≤ infinityRank) :
    AtLeastOne (ofRank false rank) := by
  refine ⟨rank, decompose_ofRank_le false small, ?_, small⟩
  rw [← units_oneRank]
  exact units_le large

/-- Numbers that are at least one, taken apart: no zero and nothing below zero. -/
theorem AtLeastOne.unpack {value : Float} (isLarge : AtLeastOne value) :
    decompose value = .infinite false ∨
      ∃ rank, rank ≠ 0 ∧ decompose value = .finite false rank ∧ unitsPerOne ≤ units rank := by
  obtain ⟨rank, isValue, large, small⟩ := isLarge
  unfold partsOfRank at isValue
  split at isValue
  · refine .inr ⟨rank, fun zero => ?_, isValue, large⟩
    rw [zero, units_zero] at large
    exact absurd unitsPerOne_pos (Nat.not_lt.2 large)
  · exact .inl isValue

theorem atLeastOne_infinite {value : Float} (isInfinite : decompose value = .infinite false) :
    AtLeastOne value := by
  have same : value = ofRank false infinityRank :=
    decompose_injective (isInfinite.trans (decompose_ofRank_infinity false).symm)
  rw [same]
  exact atLeastOne_ofRank (Nat.mul_le_mul_right _ (by decide)) (Nat.le_refl _)

/-- A product of numbers that are at least one: infinite as soon as one of them is. -/
theorem AtLeastOne.mul_cases {first second : Float} (isFirst : AtLeastOne first)
    (isSecond : AtLeastOne second) :
    decompose (first * second) = .infinite false ∨
      ∃ firstRank secondRank, decompose first = .finite false firstRank ∧
        decompose second = .finite false secondRank ∧ unitsPerOne ≤ units firstRank ∧
        unitsPerOne ≤ units secondRank := by
  rcases isFirst.unpack with infinite | ⟨firstRank, firstPositive, finite, firstLarge⟩
  · refine .inl (decompose_mul_infinite ?_)
    rcases isSecond.unpack with other | ⟨rank, positive, other, _⟩
    · rw [infinite, other]
      rfl
    · rw [infinite, other, Parts.unpack_positive _ positive]
      rfl
  · rcases isSecond.unpack with infinite | ⟨secondRank, _, other, secondLarge⟩
    · refine .inl (decompose_mul_infinite ?_)
      rw [infinite, finite, Parts.unpack_positive _ firstPositive]
      rfl
    · exact .inr ⟨firstRank, secondRank, finite, other, firstLarge, secondLarge⟩

theorem AtLeastOne.mul {first second : Float} (isFirst : AtLeastOne first)
    (isSecond : AtLeastOne second) : AtLeastOne (first * second) := by
  rcases isFirst.mul_cases isSecond with infinite | ⟨_, _, finite, other, firstLarge, secondLarge⟩
  · exact atLeastOne_infinite infinite
  · rw [mul_eq finite other]
    refine atLeastOne_ofRank ?_ (rankOfUnits_le _ _)
    refine le_rankOfUnits unitsPerOne_pos (Nat.mul_le_mul_right _ (by decide)) ?_
    rw [units_oneRank]
    exact Nat.mul_le_mul firstLarge secondLarge

theorem atLeastOne_mulPower (exponent : Nat) {product base : Float}
    (isProduct : AtLeastOne product) (isBase : AtLeastOne base) :
    AtLeastOne (mulPower product base exponent) := by
  induction exponent using Nat.strongRecOn generalizing product base with
  | ind exponent ih =>
    have isNext : AtLeastOne (if exponent % 2 = 1 then product * base else product) := by
      split
      · exact isProduct.mul isBase
      · exact isProduct
    rw [mulPower]
    by_cases last : exponent / 2 = 0
    · rw [if_pos last]
      exact isNext
    · rw [if_neg last]
      exact ih (exponent / 2) (by omega) isNext (isBase.mul isBase)

/-- **Powers of ten are at least one.** -/
theorem atLeastOne_powerOfTen (exponent : Nat) : AtLeastOne (powerOfTen exponent) := by
  have ten : (10 : Float) = ofRank false (1026 * binadeSize + binadeSize / 4) := by decide +kernel
  refine atLeastOne_mulPower exponent ?_ ?_
  · rw [one_eq_ofRank]
    exact atLeastOne_ofRank (Nat.le_refl _) (Nat.le_of_lt oneRank_lt)
  · rw [ten]
    exact atLeastOne_ofRank (by decide) (by decide)

/-! ### Rounding to multiples -/

/-- A finite number divided by one that is at least one is finite. -/
theorem decompose_div {value divisor : Float} {negative : Bool} {rank divisorRank : Nat}
    (isValue : decompose value = .finite negative rank)
    (isDivisor : decompose divisor = .finite false divisorRank) (positive : divisorRank ≠ 0)
    (large : unitsPerOne ≤ units divisorRank) :
    ∃ quotient, decompose (value / divisor) = .finite negative quotient := by
  have unitsPositive : 0 < units divisorRank := Nat.lt_of_lt_of_le unitsPerOne_pos large
  have bounded : rankOfUnits (units rank * unitsPerOne) (units divisorRank) ≤ rank :=
    rankOfUnits_le_of_le unitsPositive (Nat.mul_le_mul_left _ large)
  refine ⟨rankOfUnits (units rank * unitsPerOne) (units divisorRank), ?_⟩
  rw [div_eq isValue isDivisor positive, Bool.bne_false]
  exact decompose_ofRank negative (Nat.lt_of_le_of_lt bounded (rank_lt_infinity isValue))

/-- **Rounding to a multiple overflows** where the rounded quotient times the divisor, taken exactly,
reaches the first value that is rounded to infinity. -/
def MultipleOverflows (value divisor : Float) : Prop :=
  overflowUnits * unitsPerOne ≤ magnitude (roundToPlaces (value / divisor) 0) * magnitude divisor

/-- **Rounding to a multiple** gives a finite number unless it overflows, and then an infinity. -/
theorem decompose_roundToMultiple {value divisor : Float} {negative : Bool} {rank : Nat}
    (isValue : decompose value = .finite negative rank) (isLarge : AtLeastOne divisor)
    (isFinite : divisor.isFinite = true) :
    (MultipleOverflows value divisor →
      decompose (roundToMultiple value divisor) = .infinite negative) ∧
    (¬ MultipleOverflows value divisor →
      ∃ rounded, decompose (roundToMultiple value divisor) = .finite negative rounded) := by
  obtain ⟨sign, finiteRank, isFinitePart⟩ := (isFinite_iff divisor).1 isFinite
  rcases isLarge.unpack with infinite | ⟨divisorRank, positive, isDivisor, large⟩
  · rw [infinite] at isFinitePart
    cases isFinitePart
  · obtain ⟨quotient, isQuotient⟩ := decompose_div isValue isDivisor positive large
    obtain ⟨rounded, isRounded⟩ := decompose_roundToPlaces isQuotient 0
    have product : decompose (roundToMultiple value divisor)
        = partsOfRank negative (rankOfUnits (units rounded * units divisorRank) unitsPerOne) := by
      rw [roundToMultiple, mul_eq isRounded isDivisor, Bool.bne_false]
      exact decompose_ofRank_le negative (rankOfUnits_le _ _)
    have inRange := @rankOfUnits_lt_infinity (units rounded * units divisorRank) _ unitsPerOne_pos
    rw [product, partsOfRank, MultipleOverflows, magnitude_eq isRounded, magnitude_eq isDivisor]
    constructor
    · intro overflows
      rw [if_neg fun less => absurd (inRange.1 less) (Nat.not_lt.2 overflows)]
    · intro stays
      rw [if_pos (inRange.2 (Nat.not_le.1 stays))]
      exact ⟨_, rfl⟩

end ColumnCalc.Decimals
