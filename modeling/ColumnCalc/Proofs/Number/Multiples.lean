/-
**Rounding to decimals and to multiples of ten.**

Rounding to decimals works on the exact value and rounds once more, to the nearest number. Rounding to
a multiple of a power of ten rounds three times: the quotient, the quotient to a whole number, and the
product. The first rounding does no harm as long as it does not move a quotient onto the middle
between two whole numbers. A number below `2 ^ (52 + exponent)` that is not such a middle is a step of
its own away from it, and that is more than half a step of the quotient.

* `units_succ` — the next rank is a step further.
* `eq_of_rankOfUnits_eq` — a quotient is not rounded onto a number that is a step away.
* `divNearest_quotient` — so a rounded quotient has the same nearest whole number.
* `isNearestNumber_roundToPlaces`, `isNearestNumber_roundToMultiple` — what is right,
  `roundToMultiple_account` — and what is computed otherwise.
-/

import ColumnCalc.Proofs.Number.HalfEven
import ColumnCalc.Proofs.Number.PowersOfTen

namespace ColumnCalc.Binary64

open Decimals (unitsPerOne_pos units_twoTo)

/-! ### Steps -/

/-- **The next rank is a step further.** -/
theorem units_succ (rank : Nat) : units (rank + 1) = units rank + twoTo (shiftOf rank) := by
  have fits := mantissaOf_lt rank
  have canonical := (shiftOf_canonical rank).imp_right fun full =>
    Nat.le_succ_of_le full
  have next := units_of_mantissa (Nat.succ_le_of_lt fits) canonical
  rw [Nat.succ_eq_add_one, ← Nat.add_assoc, shiftOf_add_mantissaOf] at next
  rw [next, units_eq rank, Nat.add_mul, Nat.one_mul]

/-- A step in front of a rank is as wide as the one behind it, or half as wide where the rank begins
its binade. -/
theorem step_before {before : Nat} (coarse : shiftOf (before + 1) ≠ 0) :
    shiftOf before = shiftOf (before + 1) ∧ binadeSize < mantissaOf (before + 1) ∨
      shiftOf before + 1 = shiftOf (before + 1) ∧ binadeSize ≤ mantissaOf (before + 1) := by
  unfold mantissaOf shiftOf binadeSize at *
  omega

/-- Two multiples of a step that differ are a step apart. -/
theorem step_apart {step first second : Nat} (divides : step ∣ first) (alsoDivides : step ∣ second)
    (different : first ≠ second) : first + step ≤ second ∨ second + step ≤ first := by
  rcases Nat.lt_or_gt_of_ne different with less | greater
  · left
    have gap := Nat.le_of_dvd (Nat.sub_pos_of_lt less) (Nat.dvd_sub alsoDivides divides)
    omega
  · right
    have gap := Nat.le_of_dvd (Nat.sub_pos_of_lt greater) (Nat.dvd_sub divides alsoDivides)
    omega

theorem twoTo_dvd {exponent larger : Nat} (le : exponent ≤ larger) :
    twoTo exponent ∣ twoTo larger := pow_dvd_pow 2 le

theorem twoTo_shiftOf_dvd (rank : Nat) : twoTo (shiftOf rank) ∣ units rank :=
  ⟨mantissaOf rank, by rw [units_eq, Nat.mul_comm]⟩

/-- **A number is not rounded onto a quotient's neighbour** that is one of its own steps away: a rank
that a quotient is rounded to stands for just that quotient if it is a multiple of these steps. -/
theorem eq_of_rankOfUnits_eq {rank half denominator : Nat} (positive : 0 < denominator)
    (finite : half < infinityRank) (coarse : shiftOf half ≠ 0)
    (divides : twoTo (shiftOf rank) ∣ units half * denominator)
    (same : rankOfUnits (units rank) denominator = half) :
    units rank = units half * denominator := by
  by_contra different
  obtain ⟨before, rfl⟩ := Nat.exists_eq_add_one_of_ne_zero
    (show half ≠ 0 by rintro rfl; exact coarse rfl)
  rw [← same] at finite
  have above := (middle_above positive finite).1
  have below := (middle_below positive finite same).1
  have apart := step_apart (twoTo_shiftOf_dvd rank) divides different
  have some := twoTo_pos (shiftOf rank)
  -- The number has at most fifty-three bits, and so has the rank, which uses all of them.
  have most : units rank + twoTo (shiftOf rank) ≤ 2 * binadeSize * twoTo (shiftOf rank) := by
    rw [units_eq, ← Nat.succ_mul]
    exact Nat.mul_le_mul_right _ (mantissaOf_lt rank)
  have steps : units (before + 1) * denominator
      = mantissaOf (before + 1) * (twoTo (shiftOf (before + 1)) * denominator) := by
    rw [units_eq, Nat.mul_assoc]
  rw [same, units_succ (before + 1), Nat.add_mul, Nat.add_mul] at above
  rw [Nat.add_mul] at below
  have gap : units (before + 1) * denominator
      = units before * denominator + twoTo (shiftOf before) * denominator := by
    rw [units_succ before, Nat.add_mul]
  rw [steps] at above apart below gap
  obtain ⟨step, isStep⟩ : ∃ step, step = twoTo (shiftOf (before + 1)) * denominator := ⟨_, rfl⟩
  rw [← isStep] at above apart below gap
  rcases step_before coarse with ⟨wide, full⟩ | ⟨narrow, full⟩
  · have least := Nat.mul_le_mul_right step (Nat.succ_le_of_lt full)
    rw [wide, ← isStep] at gap
    unfold binadeSize at least most
    omega
  · have least := Nat.mul_le_mul_right step full
    have halved : step = 2 * (twoTo (shiftOf before) * denominator) := by
      rw [isStep, ← narrow, twoTo_succ]
      ring
    unfold binadeSize at least most
    omega

/-! ### Quotients by powers of ten -/

theorem tenTo_le {exponent larger : Nat} (le : exponent ≤ larger) : tenTo exponent ≤ tenTo larger :=
  Nat.pow_le_pow_right (by decide) le

/-- **Quotients that lie alike to every middle** between two whole numbers have the same nearest whole
number. -/
theorem divNearest_congr {numerator denominator otherNumerator otherDenominator : Nat}
    (positive : 0 < denominator) (otherPositive : 0 < otherDenominator)
    (alike : ∀ below, compare (2 * numerator) ((2 * below + 1) * denominator)
      = compare (2 * otherNumerator) ((2 * below + 1) * otherDenominator)) :
    divNearest numerator denominator = divNearest otherNumerator otherDenominator := by
  refine eq_of_forall_lt_iff fun below => ?_
  rw [lt_divNearest_iff _ below positive, lt_divNearest_iff _ below otherPositive]
  have same := alike below
  refine or_congr ?_ (and_congr_left' ?_)
  · rw [← Nat.compare_eq_gt, ← Nat.compare_eq_gt, same]
  · rw [eq_comm, ← Nat.compare_eq_eq, same, Nat.compare_eq_eq, eq_comm]

/-- The middle between two whole numbers is a number, if it is below `2 ^ 52`. -/
theorem exists_middle {below : Nat} (small : below < binadeSize) :
    ∃ rank < infinityRank, 2 * units rank = (2 * below + 1) * unitsPerOne ∧ shiftOf rank ≠ 0 := by
  obtain ⟨rank, finite, -, isMiddle⟩ := @ofQuotient_twoTo (2 * below + 1) 1 (by omega) (by omega)
    (by decide)
  have isDouble : 2 * units rank = (2 * below + 1) * unitsPerOne := by
    rw [← isMiddle, Nat.mul_comm]
    rfl
  refine ⟨rank, finite, isDouble, fun first => ?_⟩
  have few := mantissaOf_lt rank
  have value := units_eq rank
  have large : 4 * binadeSize ≤ unitsPerOne := twoTo_le (show 54 ≤ 1074 by decide)
  have least : unitsPerOne ≤ (2 * below + 1) * unitsPerOne := Nat.le_mul_of_pos_left _ (by omega)
  rw [first, show twoTo 0 = 1 from rfl, Nat.mul_one] at value
  omega

section Quotient

variable {rank exponent : Nat}
  (small : units rank < twoTo (52 + exponent) * unitsPerOne)

include small

/-- A number below `2 ^ (52 + exponent)` has no wider steps than the middles between multiples. -/
theorem shiftOf_le : shiftOf rank ≤ 1073 + exponent := by
  rcases shiftOf_canonical rank with first | full
  · omega
  · have least : twoTo (52 + shiftOf rank) ≤ units rank := by
      rw [units_eq, twoTo_add]
      exact Nat.mul_le_mul_right _ full
    rw [unitsPerOne_eq, ← twoTo_add] at small
    have powers := Nat.lt_of_le_of_lt least small
    by_contra wide
    exact Nat.not_lt.2 (twoTo_le (show 52 + exponent + 1074 ≤ 52 + shiftOf rank by omega)) powers

/-- **A quotient by a power of ten is on the same side of a middle** as before it is rounded. -/
theorem compare_middle (below : Nat) :
    compare (2 * units rank) ((2 * below + 1) * (tenTo exponent * unitsPerOne))
      = compare (2 * units (rankOfUnits (units rank) (tenTo exponent)))
          ((2 * below + 1) * unitsPerOne) := by
  have scale := tenTo_pos exponent
  have powers : twoTo exponent ≤ tenTo exponent := Nat.pow_le_pow_left (by decide) exponent
  rcases Nat.lt_or_ge below binadeSize with near | far
  · obtain ⟨half, finite, isMiddle, coarse⟩ := exists_middle near
    have middle : (2 * below + 1) * (tenTo exponent * unitsPerOne)
        = 2 * (units half * tenTo exponent) := by
      rw [Nat.mul_left_comm, ← isMiddle]
      ring
    have divides : twoTo (shiftOf rank) ∣ units half * tenTo exponent := by
      have factors : units half * tenTo exponent
          = (2 * below + 1) * fiveTo exponent * twoTo (1073 + exponent) := by
        refine Nat.mul_left_cancel two_pos ?_
        rw [← middle, ← fiveTo_mul_twoTo, unitsPerOne_eq, twoTo_succ 1073, twoTo_add]
        ring
      rw [factors]
      exact Dvd.dvd.mul_left (twoTo_dvd (shiftOf_le small)) _
    have exact := eq_of_rankOfUnits_eq scale finite coarse divides
    rw [middle, ← isMiddle]
    rcases Nat.lt_trichotomy (units rank) (units half * tenTo exponent) with less | same | greater
    · have le := rankOfUnits_le_of_le scale (Nat.le_of_lt less)
      have notSame := fun same => Nat.ne_of_lt less (exact same)
      have ranks := units_lt (Nat.lt_of_le_of_ne le notSame)
      rw [Nat.compare_eq_lt.2 (by omega), Nat.compare_eq_lt.2 (by omega)]
    · rw [same, rankOfUnits_units (Nat.le_of_lt finite) scale, Nat.compare_eq_eq.2 rfl,
        Nat.compare_eq_eq.2 rfl]
    · have le := le_rankOfUnits scale (Nat.le_of_lt finite) (Nat.le_of_lt greater)
      have notSame := fun same => Nat.ne_of_gt greater (exact same)
      have ranks := units_lt (Nat.lt_of_le_of_ne le (Ne.symm notSame))
      rw [Nat.compare_eq_gt.2 (by omega), Nat.compare_eq_gt.2 (by omega)]
  · -- The middle is past `2 ^ 52`, and the quotient is not.
    have atMost : units rank
        ≤ units (Decimals.oneRank + 52 * binadeSize) * tenTo exponent := by
      refine Nat.le_trans (Nat.le_of_lt small) ?_
      rw [units_twoTo, twoTo_add, Nat.mul_right_comm, Nat.mul_comm unitsPerOne]
      exact Nat.mul_le_mul_left _ powers
    have bounded := units_le (rankOfUnits_le_of_le scale atMost)
    rw [units_twoTo] at bounded atMost
    have middle : 2 * (unitsPerOne * twoTo 52) < (2 * below + 1) * unitsPerOne := by
      rw [Nat.mul_left_comm, Nat.mul_comm]
      exact Nat.mul_lt_mul_of_pos_right (Nat.lt_succ_of_le (Nat.mul_le_mul_left 2 far))
        unitsPerOne_pos
    have scaled := Nat.mul_lt_mul_of_pos_right middle scale
    rw [Nat.mul_assoc, Nat.mul_assoc (2 * below + 1), Nat.mul_comm unitsPerOne (tenTo exponent)]
      at scaled
    rw [Nat.compare_eq_lt.2 (by omega), Nat.compare_eq_lt.2 (by omega)]

/-- **Rounding a quotient by a power of ten does not change the nearest whole number.** -/
theorem divNearest_quotient :
    divNearest (units (rankOfUnits (units rank) (tenTo exponent))) unitsPerOne
      = divNearest (units rank) (tenTo exponent * unitsPerOne) :=
  (divNearest_congr (Nat.mul_pos (tenTo_pos exponent) unitsPerOne_pos) unitsPerOne_pos
    (compare_middle small)).symm

end Quotient

/-! ### Signs -/

/-- A count with a sign. -/
def signedCount (negative : Bool) (count : Nat) : ℤ :=
  if negative then -count else count

theorem cast_signedCount (negative : Bool) (count : Nat) :
    (signedCount negative count : ℚ) = factorOf negative * count := by
  cases negative with
  | false => rw [signedCount, factorOf, if_neg Bool.false_ne_true, if_neg Bool.false_ne_true,
      one_mul, Int.cast_natCast]
  | true => rw [signedCount, factorOf, if_pos rfl, if_pos rfl, neg_one_mul, Int.cast_neg,
      Int.cast_natCast]

/-- The nearest multiple with a sign. -/
theorem IsNearestMultiple.signed {step exact : ℚ} {count : Nat} (negative : Bool)
    (nearest : IsNearestMultiple step exact count) :
    IsNearestMultiple step (factorOf negative * exact) (signedCount negative count) := by
  cases negative with
  | false =>
    rw [factorOf, if_neg Bool.false_ne_true, one_mul]
    exact nearest
  | true =>
    rw [factorOf, if_pos rfl, neg_one_mul]
    exact nearest.neg

end ColumnCalc.Binary64

namespace ColumnCalc.Decimals

open Binary64

section Rounded

variable {value divisor : Float} {negative : Bool} {rank divisorRank : Nat}

theorem unitsPerOne_cast_pos : (0 : ℚ) < unitsPerOne := Nat.cast_pos.2 unitsPerOne_pos

/-! ### Decimals -/

/-- **Rounding to decimals** gives the number that is nearest to the nearest decimal. -/
theorem isNearestNumber_roundToPlaces (isValue : decompose value = .finite negative rank)
    (places : Nat) : ∃ count : ℤ, IsNearestMultiple (1 / tenTo places) (exactValue value) count ∧
      IsNearestNumber (count * (1 / tenTo places)) (roundToPlaces value places) := by
  have one := unitsPerOne_cast_pos
  have scale : (0 : ℚ) < tenTo places := Nat.cast_pos.2 (tenTo_pos places)
  obtain ⟨count, isCount⟩ : ∃ count,
      count = divNearest (units rank * tenTo places) unitsPerOne := ⟨_, rfl⟩
  refine ⟨signedCount negative count, ?_, ?_⟩
  · have nearest := isNearestMultiple_divNearest (units rank * tenTo places) unitsPerOne_pos
    rw [← isCount] at nearest
    rw [exactValue_eq isValue]
    refine IsNearestMultiple.signed negative ?_
    rw [← isNearestMultiple_div_iff (one_div_pos.2 scale)]
    convert nearest using 1
    rw [Nat.cast_mul, div_div_eq_mul_div, div_one, div_mul_eq_mul_div]
  · have finite := rank_roundToPlaces_lt (rank_lt_infinity isValue) places
    rw [← isCount, rankOfQuotient] at finite
    have nearest := isNearestNumber_ofRank negative (tenTo_pos places) finite
    rw [roundToPlaces, isValue]
    show IsNearestNumber _ (ofQuotient negative
      (divNearest (units rank * tenTo places) unitsPerOne) (tenTo places))
    rw [← isCount, ofQuotient, rankOfQuotient, cast_signedCount, mul_assoc, mul_one_div]
    convert nearest using 2
    rw [Nat.cast_mul, div_right_comm, mul_div_cancel_right₀ _ one.ne']

/-- Every whole multiple of one that a number is rounded to is a number. -/
theorem exists_whole (finite : rank < infinityRank) :
    ∃ rounded < infinityRank, units rounded = divNearest (units rank) unitsPerOne * unitsPerOne := by
  by_cases wide : 1074 ≤ shiftOf rank
  · obtain ⟨more, isShift⟩ := Nat.exists_eq_add_of_le wide
    have isWhole : units rank = mantissaOf rank * twoTo more * unitsPerOne := by
      rw [units_eq, isShift, twoTo_add, unitsPerOne_eq]
      ring
    refine ⟨rank, finite, ?_⟩
    rw [isWhole, divNearest_mul _ _ unitsPerOne_pos]
  · have atMost : divNearest (units rank) unitsPerOne ≤ binadeSize := by
      refine divNearest_le_of_le unitsPerOne_pos ?_
      rw [units_eq, unitsPerOne_eq, twoTo_succ 1073]
      calc mantissaOf rank * twoTo (shiftOf rank)
        _ ≤ 2 * binadeSize * twoTo 1073 :=
          Nat.mul_le_mul (mantissaOf_lt rank).le (twoTo_le (by omega))
        _ = binadeSize * (twoTo 1073 * 2) := by ring
    rcases Nat.eq_zero_or_pos (divNearest (units rank) unitsPerOne) with zero | positive
    · refine ⟨0, Nat.zero_lt_of_lt finite, ?_⟩
      rw [zero, Nat.zero_mul, units_zero]
    · obtain ⟨rounded, finite, -, isRounded⟩ := @ofQuotient_twoTo _ 0 positive.ne' (by
        unfold binadeSize at *
        omega) (by decide)
      exact ⟨rounded, finite, (Nat.mul_one _).symm.trans isRounded⟩

/-- **Rounding to whole numbers is exact.** -/
theorem decompose_roundToPlaces_zero (isValue : decompose value = .finite negative rank) :
    ∃ rounded, decompose (roundToPlaces value 0) = .finite negative rounded ∧
      units rounded = divNearest (units rank) unitsPerOne * unitsPerOne := by
  obtain ⟨rounded, finite, isWhole⟩ := exists_whole (rank_lt_infinity isValue)
  refine ⟨rounded, ?_, isWhole⟩
  have isRank : rankOfQuotient (divNearest (units rank * tenTo 0) unitsPerOne) (tenTo 0)
      = rounded := by
    rw [rankOfQuotient, show tenTo 0 = 1 from rfl, Nat.mul_one, ← isWhole,
      ← Nat.mul_one (units rounded)]
    exact rankOfUnits_units finite.le Nat.one_pos
  rw [roundToPlaces, isValue]
  show decompose (ofQuotient negative _ _) = _
  rw [ofQuotient, isRank]
  exact decompose_ofRank negative finite

/-! ### Multiples of a divisor -/

/-- The end of the range of numbers, half a step past the greatest one. -/
def rangeEnd : ℚ := 2 ^ 1024 - 2 ^ 970

theorem cast_twoTo (exponent : Nat) : (twoTo exponent : ℚ) = 2 ^ exponent := Nat.cast_pow 2 exponent

theorem overflowUnits_eq : (overflowUnits : ℚ) = rangeEnd * unitsPerOne := by
  have range : (2 : ℚ) ^ 1024 = 2 ^ 54 * 2 ^ 970 := pow_add 2 54 970
  have steps : (4 * binadeSize - 1 : ℕ) + 1 = twoTo 54 := by decide
  have cast : ((4 * binadeSize - 1 : ℕ) : ℚ) = 2 ^ 54 - 1 := by
    rw [eq_sub_iff_add_eq]
    exact_mod_cast steps
  rw [overflowUnits, unitsPerOne_eq, Nat.cast_mul, cast, show 2044 = 970 + 1074 from rfl, twoTo_add,
    Nat.cast_mul, cast_twoTo 970, rangeEnd, range, ← mul_assoc, sub_mul, one_mul]

theorem isFinite_ofRank_iff (negative : Bool) (within : rank ≤ infinityRank) :
    (ofRank negative rank).isFinite = true ↔ rank < infinityRank := by
  have decomposed := decompose_ofRank_le negative within
  rw [partsOfRank] at decomposed
  split at decomposed
  · next finite => exact iff_of_true (isFinite_of_decompose decomposed) finite
  · next past => exact iff_of_false (not_isFinite_of_infinite decomposed) past

/-- **Rounded three times**: the number nearest to the quotient, the whole number nearest to that, and
the number nearest to the product, if that is in range. -/
structure IsRoundedThrice (value divisor result : Float) (multiple : ℤ) : Prop where
  quotient : IsNearestNumber (exactValue value / exactValue divisor) (value / divisor)
  whole : IsNearestMultiple 1 (exactValue (value / divisor)) multiple
  inRange : result.isFinite = true ↔ |multiple * exactValue divisor| < rangeEnd
  product : |multiple * exactValue divisor| < rangeEnd →
    IsNearestNumber (multiple * exactValue divisor) result

/-- The whole number that a quotient is rounded to, after it is rounded to a number. -/
def countOf (rank divisorRank : Nat) : Nat :=
  divNearest (units (rankOfUnits (units rank * unitsPerOne) (units divisorRank))) unitsPerOne

section Multiple

variable (isValue : decompose value = .finite negative rank)
  (isDivisor : decompose divisor = .finite false divisorRank)
  (large : unitsPerOne ≤ units divisorRank)

include isValue isDivisor large

/-- The quotient is rounded once. -/
theorem quotient_eq : ∃ quotientRank,
    quotientRank = rankOfUnits (units rank * unitsPerOne) (units divisorRank) ∧
      value / divisor = ofRank negative quotientRank ∧
        decompose (value / divisor) = .finite negative quotientRank := by
  have notZero : divisorRank ≠ 0 := by
    rintro rfl
    exact Nat.not_lt.2 large unitsPerOne_pos
  have positive : 0 < units divisorRank := Nat.lt_of_lt_of_le unitsPerOne_pos large
  have bounded : rankOfUnits (units rank * unitsPerOne) (units divisorRank) ≤ rank :=
    rankOfUnits_le_of_le positive (Nat.mul_le_mul_left _ large)
  refine ⟨_, rfl, ?_⟩
  rw [div_eq isValue isDivisor notZero, Bool.bne_false]
  exact ⟨rfl, decompose_ofRank negative (Nat.lt_of_le_of_lt bounded (rank_lt_infinity isValue))⟩

/-- The product is rounded once. -/
theorem roundToMultiple_eq : roundToMultiple value divisor
    = ofRank negative (rankOfUnits (countOf rank divisorRank * units divisorRank) 1) := by
  obtain ⟨quotientRank, isQuotient, -, decomposed⟩ := quotient_eq isValue isDivisor large
  obtain ⟨rounded, isRounded, isWhole⟩ := decompose_roundToPlaces_zero decomposed
  have product : units rounded * units divisorRank
      = countOf rank divisorRank * units divisorRank * unitsPerOne := by
    rw [isWhole, countOf, isQuotient, Nat.mul_right_comm]
  rw [roundToMultiple, mul_eq isRounded isDivisor, Bool.bne_false, product,
    ← rankOfUnits_scale _ Nat.one_pos unitsPerOne_pos, Nat.one_mul]

/-- **What rounding to a multiple computes.** -/
theorem roundToMultiple_account :
    IsRoundedThrice value divisor (roundToMultiple value divisor)
      (signedCount negative (countOf rank divisorRank)) := by
  have one := unitsPerOne_cast_pos
  have positive : 0 < units divisorRank := Nat.lt_of_lt_of_le unitsPerOne_pos large
  have divides : (0 : ℚ) < units divisorRank := Nat.cast_pos.2 positive
  obtain ⟨quotientRank, isQuotient, isRank, decomposed⟩ := quotient_eq isValue isDivisor large
  have isCount : countOf rank divisorRank = divNearest (units quotientRank) unitsPerOne := by
    rw [countOf, isQuotient]
  have divisorValue : exactValue divisor = units divisorRank / unitsPerOne := by
    rw [exactValue_eq isDivisor, factorOf, if_neg Bool.false_ne_true, one_mul]
  have product := roundToMultiple_eq isValue isDivisor large
  have inRange : rankOfUnits (countOf rank divisorRank * units divisorRank) 1 < infinityRank ↔
      |(signedCount negative (countOf rank divisorRank) * exactValue divisor : ℚ)| < rangeEnd := by
    rw [rankOfUnits_lt_infinity Nat.one_pos, Nat.mul_one, ← @Nat.cast_lt ℚ, overflowUnits_eq,
      cast_signedCount, divisorValue, mul_assoc, abs_factor_mul, ← mul_div_assoc,
      abs_of_nonneg (div_nonneg (mul_nonneg (Nat.cast_nonneg _) divides.le) one.le),
      div_lt_iff₀ one, Nat.cast_mul]
  constructor
  · have finite := rank_lt_infinity decomposed
    rw [isQuotient] at finite
    have nearest := isNearestNumber_ofRank negative positive finite
    rw [isRank, isQuotient, exactValue_eq isValue, divisorValue, mul_div_assoc]
    convert nearest using 2
    rw [Nat.cast_mul, div_div_div_eq, div_div, mul_comm (unitsPerOne : ℚ)]
  · rw [exactValue_eq decomposed, isCount]
    exact (isNearestMultiple_divNearest (units quotientRank) unitsPerOne_pos).signed negative
  · rw [← inRange, product, isFinite_ofRank_iff negative (rankOfUnits_le _ _)]
  · intro small
    have nearest := isNearestNumber_ofRank negative Nat.one_pos (inRange.2 small)
    rw [product, cast_signedCount, divisorValue, mul_assoc]
    convert nearest using 2
    rw [Nat.cast_mul, Nat.cast_one, div_one, mul_div_assoc]

end Multiple

/-! ### Multiples of powers of ten -/

section Power

variable {exponent powerRank : Nat} (isTen : units powerRank = tenTo exponent * unitsPerOne)
  (small : units rank < twoTo (52 + exponent) * unitsPerOne)

include isTen small

/-- The whole number that the quotient is rounded to is the one that is nearest to its exact value. -/
theorem countOf_powerOfTen :
    countOf rank powerRank = divNearest (units rank) (tenTo exponent * unitsPerOne) := by
  rw [countOf, isTen, rankOfUnits_scale _ (tenTo_pos exponent) unitsPerOne_pos,
    divNearest_quotient small]

/-- The product is far from the end of the range. -/
theorem multiple_lt_rangeEnd (few : exponent ≤ 22) :
    (countOf rank powerRank * tenTo exponent : ℚ) < rangeEnd := by
  have powers : twoTo exponent ≤ tenTo exponent := Nat.pow_le_pow_left (by decide) exponent
  have atMost : countOf rank powerRank ≤ twoTo 52 := by
    rw [countOf_powerOfTen isTen small]
    refine divNearest_le_of_le (Nat.mul_pos (tenTo_pos exponent) unitsPerOne_pos) ?_
    rw [twoTo_add, Nat.mul_assoc] at small
    exact small.le.trans (Nat.mul_le_mul_left _ (Nat.mul_le_mul_right _ powers))
  have ten : tenTo exponent ≤ twoTo 74 :=
    (tenTo_le few).trans (by decide : tenTo 22 ≤ twoTo 74)
  have bounded : countOf rank powerRank * tenTo exponent * unitsPerOne < overflowUnits := by
    calc countOf rank powerRank * tenTo exponent * unitsPerOne
      _ ≤ twoTo 52 * twoTo 74 * unitsPerOne :=
        Nat.mul_le_mul_right _ (Nat.mul_le_mul atMost ten)
      _ = twoTo 1200 := by
        rw [unitsPerOne_eq, ← twoTo_add, ← twoTo_add]
      _ < twoTo 1201 := twoTo_lt (by decide)
      _ ≤ overflowUnits := twoTo_le_overflow (by decide)
  rw [← @Nat.cast_lt ℚ, Nat.cast_mul, Nat.cast_mul, overflowUnits_eq] at bounded
  exact lt_of_mul_lt_mul_right bounded unitsPerOne_cast_pos.le

end Power

theorem abs_exactValue (isValue : decompose value = .finite negative rank) :
    |exactValue value| = units rank / unitsPerOne := by
  rw [exactValue_eq isValue, abs_factor_mul]
  exact abs_of_nonneg (div_nonneg (Nat.cast_nonneg _) unitsPerOne_cast_pos.le)

/-- Every number is in the range. -/
theorem abs_exactValue_lt (isValue : decompose value = .finite negative rank) :
    |exactValue value| < rangeEnd := by
  have inside := Nat.lt_of_add_right_lt (units_add_one_lt (rank_lt_infinity isValue))
  rw [← @Nat.cast_lt ℚ, overflowUnits_eq] at inside
  rw [abs_exactValue isValue, div_lt_iff₀ unitsPerOne_cast_pos]
  exact inside

theorem cast_tenTo (exponent : Nat) : (tenTo exponent : ℚ) = 10 ^ exponent := Nat.cast_pow 10 exponent

/-- The first power of ten that is past the range is more than twice as large as what is in it. -/
theorem rangeEnd_lt_half {exponent : Nat} (past : 309 ≤ exponent) :
    rangeEnd < 10 ^ exponent / 2 := by
  have powers : 2 * twoTo 1024 < tenTo 309 := by decide +kernel
  have doubled : (2 * 2 ^ 1024 : ℚ) < 10 ^ exponent := by
    rw [← cast_twoTo, ← cast_tenTo]
    exact_mod_cast powers.trans_le (tenTo_le past)
  have below : rangeEnd < 2 ^ 1024 := sub_lt_self _ (pow_pos two_pos 970)
  exact below.trans ((lt_div_iff₀' two_pos).2 doubled)

theorem exactValue_powerOfTen {exponent : Nat} (few : exponent ≤ 22) :
    exactValue (powerOfTen exponent) = tenTo exponent := by
  obtain ⟨powerRank, isPower, isTen⟩ := powerOfTen_exact few
  rw [exactValue_eq isPower, factorOf, if_neg Bool.false_ne_true, one_mul, isTen, Nat.cast_mul,
    mul_div_cancel_right₀ _ unitsPerOne_cast_pos.ne']

/-- **Rounding to a multiple of a power of ten** gives the number that is nearest to the nearest
multiple, if the power is exact and the number has no wider steps than the middles between
multiples. -/
theorem isNearestNumber_roundToMultiple {exponent : Nat}
    (isValue : decompose value = .finite negative rank) (few : exponent ≤ 22)
    (small : |exactValue value| < 2 ^ (52 + exponent)) :
    ∃ count : ℤ, IsNearestMultiple (tenTo exponent) (exactValue value) count ∧
      IsNearestNumber (count * tenTo exponent) (roundToMultiple value (powerOfTen exponent)) := by
  have one := unitsPerOne_cast_pos
  have scale : (0 : ℚ) < tenTo exponent := Nat.cast_pos.2 (tenTo_pos exponent)
  obtain ⟨powerRank, isPower, isTen⟩ := powerOfTen_exact few
  have large : unitsPerOne ≤ units powerRank := by
    rw [isTen]
    exact Nat.le_mul_of_pos_left _ (tenTo_pos exponent)
  have bounded : units rank < twoTo (52 + exponent) * unitsPerOne := by
    rw [abs_exactValue isValue, div_lt_iff₀ one] at small
    exact_mod_cast small
  have account := roundToMultiple_account isValue isPower large
  have powerValue := exactValue_powerOfTen few
  have inRange : |(signedCount negative (countOf rank powerRank) * tenTo exponent : ℚ)|
      < rangeEnd := by
    rw [cast_signedCount, mul_assoc, abs_factor_mul,
      abs_of_nonneg (mul_nonneg (Nat.cast_nonneg _) scale.le)]
    exact multiple_lt_rangeEnd isTen bounded few
  have isNearest := account.product (by rwa [powerValue])
  rw [powerValue] at isNearest
  refine ⟨_, ?_, isNearest⟩
  rw [exactValue_eq isValue, countOf_powerOfTen isTen bounded]
  refine IsNearestMultiple.signed negative ((isNearestMultiple_div_iff scale).1 ?_)
  convert isNearestMultiple_divNearest (units rank)
    (Nat.mul_pos (tenTo_pos exponent) unitsPerOne_pos) using 1
  rw [Nat.cast_mul, div_div, mul_comm]

end Rounded

end ColumnCalc.Decimals
