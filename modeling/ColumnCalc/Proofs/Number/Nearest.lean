/-
**The nearest rank of a quotient.**

`rankOfUnits` rounds a quotient of units to a rank. It finds the quotient's binade first and then the
nearest whole number of that binade's steps:

* `Spans` — the binade of a quotient, by its bounds; there is exactly one (`Spans.unique`), so it does
  not matter how it is found.
* `rankOfUnits_scale` — nor does it matter how the quotient is written.
* `rankOfUnits_lt_infinity` — where the range of finite magnitudes ends.
-/

import ColumnCalc.Number.Binary64

namespace ColumnCalc.Binary64

/-! ### Powers of two -/

theorem twoTo_add (first second : Nat) : twoTo (first + second) = twoTo first * twoTo second :=
  Nat.pow_add 2 first second

theorem twoTo_le {first second : Nat} (le : first ≤ second) : twoTo first ≤ twoTo second :=
  Nat.pow_le_pow_right (by decide) le

theorem twoTo_lt {first second : Nat} (less : first < second) : twoTo first < twoTo second :=
  Nat.pow_lt_pow_right (by decide) less

/-! ### Ranks -/

/-- How often the step between neighbouring ranks has doubled up to this one. -/
def shiftOf (rank : Nat) : Nat := rank / binadeSize - 1

/-- The value of a rank, in steps. -/
def mantissaOf (rank : Nat) : Nat := rank - shiftOf rank * binadeSize

theorem units_eq (rank : Nat) : units rank = mantissaOf rank * twoTo (shiftOf rank) := by
  simp only [units, mantissaOf, shiftOf]
  split
  · rename_i first
    rw [first]
    simp only [Nat.zero_sub, Nat.zero_mul, Nat.sub_zero, twoTo, Nat.pow_eq, Nat.pow_zero,
      Nat.mul_one]
    unfold binadeSize at *
    omega
  · congr 1
    unfold binadeSize at *
    omega

theorem mantissaOf_pos {rank : Nat} (positive : rank ≠ 0) : 0 < mantissaOf rank := by
  unfold mantissaOf shiftOf binadeSize
  omega

/-- A rank is made of its shift and its mantissa. -/
theorem shiftOf_add_mantissaOf (rank : Nat) :
    shiftOf rank * binadeSize + mantissaOf rank = rank := by
  unfold mantissaOf shiftOf binadeSize
  omega

theorem mantissaOf_lt (rank : Nat) : mantissaOf rank < 2 * binadeSize := by
  unfold mantissaOf shiftOf binadeSize
  omega

theorem shiftOf_canonical (rank : Nat) : shiftOf rank = 0 ∨ binadeSize ≤ mantissaOf rank := by
  unfold mantissaOf shiftOf binadeSize
  omega

/-- A mantissa that fills its binade is the one of its rank. -/
theorem units_of_canonical {shift mantissa : Nat} (normal : binadeSize ≤ mantissa)
    (small : mantissa < 2 * binadeSize) :
    units (shift * binadeSize + mantissa) = mantissa * twoTo shift := by
  have sameShift : shiftOf (shift * binadeSize + mantissa) = shift := by
    unfold shiftOf binadeSize at *
    omega
  rw [units_eq, mantissaOf, sameShift, Nat.add_sub_cancel_left]

theorem units_lt {first second : Nat} (less : first < second) : units first < units second := by
  induction second with
  | zero => omega
  | succ second ih =>
    rcases Nat.lt_or_eq_of_le (Nat.le_of_lt_succ less) with below | same
    · exact Nat.lt_trans (ih below) (units_succ_gt second)
    · rw [same]
      exact units_succ_gt second

theorem units_le {first second : Nat} (le : first ≤ second) : units first ≤ units second := by
  rcases Nat.lt_or_eq_of_le le with less | same
  · exact Nat.le_of_lt (units_lt less)
  · exact Nat.le_of_eq (congrArg units same)

/-- Ranks are in the order of their values. -/
theorem units_le_iff {first second : Nat} : units first ≤ units second ↔ first ≤ second :=
  ⟨fun le => Nat.le_of_not_lt fun less => Nat.not_le.2 (units_lt less) le, units_le⟩

/-! ### Dividing to the nearest whole number -/

theorem le_divNearest (numerator denominator : Nat) :
    numerator / denominator ≤ divNearest numerator denominator := by
  simp only [divNearest]
  split
  · exact Nat.le_refl _
  · split
    · exact Nat.le_succ _
    · exact Nat.le_add_right _ _

theorem divNearest_le (numerator denominator : Nat) :
    divNearest numerator denominator ≤ numerator / denominator + 1 := by
  simp only [divNearest]
  split
  · exact Nat.le_succ _
  · split
    · exact Nat.le_refl _
    · omega

/-- The nearest whole number is at most half away. -/
theorem divNearest_mul_le (numerator denominator : Nat) :
    2 * (divNearest numerator denominator * denominator) ≤ 2 * numerator + denominator := by
  have whole := Nat.div_add_mod' numerator denominator
  simp only [divNearest]
  split
  · omega
  · split
    · rw [Nat.add_mul]
      omega
    · rcases Nat.mod_two_eq_zero_or_one (numerator / denominator) with even | odd
      · rw [even]
        simp only [Nat.add_zero]
        omega
      · rw [odd, Nat.add_mul]
        omega

/-- **A number is exceeded** from the middle above it on; an even one, behind the middle. -/
theorem lt_divNearest_iff (numerator number : Nat) {denominator : Nat}
    (positive : 0 < denominator) :
    number < divNearest numerator denominator ↔
      (2 * number + 1) * denominator < 2 * numerator ∨
        (2 * number + 1) * denominator = 2 * numerator ∧ number % 2 = 1 := by
  have whole := Nat.div_add_mod' numerator denominator
  have small := Nat.mod_lt numerator positive
  have product : (2 * number + 1) * denominator = 2 * (number * denominator) + denominator := by
    rw [Nat.add_mul, Nat.one_mul, Nat.mul_assoc]
  rw [product]
  rcases Nat.lt_trichotomy number (numerator / denominator) with less | same | greater
  · have atLeast := le_divNearest numerator denominator
    have bound := Nat.mul_le_mul_right denominator (Nat.succ_le_of_lt less)
    rw [Nat.succ_mul] at bound
    refine iff_of_true (by omega) (.inl (by omega))
  · rw [← same] at whole
    simp only [divNearest, ← same]
    split
    · omega
    · split
      · omega
      · omega
  · have atMost := divNearest_le numerator denominator
    have bound := Nat.mul_le_mul_right denominator (Nat.succ_le_of_lt greater)
    rw [Nat.succ_mul] at bound
    refine iff_of_false (by omega) ?_
    omega

/-- An even number is reached from the middle below it on. -/
theorem even_le_divNearest_iff {numerator denominator : Nat} (half : Nat)
    (positive : 0 < denominator) :
    2 * half + 2 ≤ divNearest numerator denominator
      ↔ (4 * half + 3) * denominator ≤ 2 * numerator := by
  have reached := lt_divNearest_iff numerator (2 * half + 1) positive
  have odd : (2 * half + 1) % 2 = 1 := by omega
  have coefficient : 2 * (2 * half + 1) + 1 = 4 * half + 3 := by omega
  rw [odd, coefficient] at reached
  omega
/-- A factor of both sides of a quotient does not matter. -/
theorem divNearest_scale (numerator denominator : Nat) {factor : Nat} (positive : 0 < factor) :
    divNearest (numerator * factor) (denominator * factor) = divNearest numerator denominator := by
  have sides : ∀ rest : Nat, (2 * (rest * factor) < denominator * factor ↔ 2 * rest < denominator) ∧
      (denominator * factor < 2 * (rest * factor) ↔ denominator < 2 * rest) := by
    intro rest
    rw [← Nat.mul_assoc]
    exact ⟨Nat.mul_lt_mul_right positive, Nat.mul_lt_mul_right positive⟩
  simp only [divNearest, Nat.mul_div_mul_right _ _ positive, Nat.mul_mod_mul_right, sides]

/-! ### The binade of a quotient -/

/-- A quotient of units lies in the binade whose step has doubled `shift` times. -/
structure Spans (numerator denominator shift : Nat) : Prop where
  below : numerator < denominator * twoTo (shift + 53)
  above : shift = 0 ∨ denominator * twoTo (shift + 52) ≤ numerator

theorem spans_log2 (numerator : Nat) {denominator : Nat} (positive : 0 < denominator) :
    Spans numerator denominator ((numerator / denominator).log2 - fractionBits) := by
  unfold fractionBits
  have upper : numerator / denominator < twoTo ((numerator / denominator).log2 + 1) :=
    Nat.lt_log2_self
  refine ⟨?_, ?_⟩
  · rw [Nat.mul_comm, ← Nat.div_lt_iff_lt_mul positive]
    exact Nat.lt_of_lt_of_le upper (twoTo_le (by omega))
  · by_cases first : (numerator / denominator).log2 - 52 = 0
    · exact .inl first
    · refine .inr ?_
      have notZero : numerator / denominator ≠ 0 := by
        intro zero
        rw [zero] at first
        exact first rfl
      have lower : twoTo (numerator / denominator).log2 ≤ numerator / denominator :=
        Nat.log2_self_le notZero
      rw [Nat.mul_comm, ← Nat.le_div_iff_mul_le positive]
      rwa [Nat.sub_add_cancel (by omega)]

theorem Spans.le {numerator denominator first second : Nat}
    (firstSpans : Spans numerator denominator first)
    (secondSpans : Spans numerator denominator second) : first ≤ second := by
  rcases firstSpans.above with zero | above
  · rw [zero]
    exact Nat.zero_le second
  · have between := Nat.lt_of_le_of_lt above secondSpans.below
    have powers : twoTo (first + 52) < twoTo (second + 53) := Nat.lt_of_mul_lt_mul_left between
    have exponents := (Nat.pow_lt_pow_iff_right (by decide)).1 powers
    omega

/-- **A quotient has one binade.** -/
theorem Spans.unique {numerator denominator first second : Nat}
    (firstSpans : Spans numerator denominator first)
    (secondSpans : Spans numerator denominator second) : first = second :=
  Nat.le_antisymm (firstSpans.le secondSpans) (secondSpans.le firstSpans)

theorem Spans.scale {numerator denominator shift factor : Nat}
    (spans : Spans numerator denominator shift) (positive : 0 < factor) :
    Spans (numerator * factor) (denominator * factor) shift := by
  refine ⟨?_, ?_⟩
  · rw [Nat.mul_right_comm]
    exact Nat.mul_lt_mul_of_pos_right spans.below positive
  · rcases spans.above with zero | above
    · exact .inl zero
    · refine .inr ?_
      rw [Nat.mul_right_comm]
      exact Nat.mul_le_mul_right factor above

/-- The mantissa of a quotient has at most 53 bits, and fewer only in the first binade. -/
theorem Spans.mantissa {numerator denominator shift : Nat} (positive : 0 < denominator)
    (spans : Spans numerator denominator shift) :
    numerator / (denominator * twoTo shift) < 2 * binadeSize ∧
      (shift = 0 ∨ binadeSize ≤ numerator / (denominator * twoTo shift)) := by
  have step : 0 < denominator * twoTo shift := Nat.mul_pos positive (twoTo_pos shift)
  refine ⟨?_, ?_⟩
  · rw [Nat.div_lt_iff_lt_mul step]
    have below := spans.below
    rw [twoTo_add, ← Nat.mul_assoc, Nat.mul_comm] at below
    exact below
  · rcases spans.above with zero | above
    · exact .inl zero
    · refine .inr ?_
      rw [Nat.le_div_iff_mul_le step]
      rw [twoTo_add, ← Nat.mul_assoc, Nat.mul_comm] at above
      exact above

/-- The rank of a quotient in a binade. -/
theorem rankOfUnits_of_spans {numerator denominator shift : Nat} (positive : 0 < denominator)
    (spans : Spans numerator denominator shift) :
    rankOfUnits numerator denominator
      = min infinityRank (shift * binadeSize + divNearest numerator (denominator * twoTo shift)) := by
  have same := (spans_log2 numerator positive).unique spans
  simp only [rankOfUnits, same]

/-- A factor of both sides of a quotient does not matter. -/
theorem rankOfUnits_scale (numerator : Nat) {denominator factor : Nat} (positive : 0 < denominator)
    (factorPositive : 0 < factor) :
    rankOfUnits (numerator * factor) (denominator * factor) = rankOfUnits numerator denominator := by
  have spans := spans_log2 numerator positive
  rw [rankOfUnits_of_spans positive spans,
    rankOfUnits_of_spans (Nat.mul_pos positive factorPositive) (spans.scale factorPositive),
    Nat.mul_right_comm, divNearest_scale _ _ factorPositive]

/-! ### The end of the range -/

/-- The first value, in units, that is rounded to infinity: the middle between the greatest finite
magnitude and the step behind it. -/
def overflowUnits : Nat := (4 * binadeSize - 1) * twoTo 2044

/-- In the last binade infinity is one more than the greatest mantissa. -/
theorem divNearest_lt_overflow (numerator : Nat) {denominator : Nat} (positive : 0 < denominator) :
    divNearest numerator (denominator * twoTo 2045) < 2 * binadeSize
      ↔ numerator < overflowUnits * denominator := by
  have step : 0 < denominator * twoTo 2045 := Nat.mul_pos positive (twoTo_pos 2045)
  have reached := @even_le_divNearest_iff numerator _ (binadeSize - 1) step
  have double : 2 * (binadeSize - 1) + 2 = 2 * binadeSize := by decide
  have coefficient : 4 * (binadeSize - 1) + 3 = 4 * binadeSize - 1 := by decide
  have middle : (4 * binadeSize - 1) * (denominator * twoTo 2045)
      = 2 * (overflowUnits * denominator) := by
    rw [overflowUnits, twoTo_succ 2044]
    generalize 4 * binadeSize - 1 = factor
    generalize twoTo 2044 = power
    rw [Nat.mul_assoc factor, Nat.mul_left_comm 2, Nat.mul_comm 2, Nat.mul_right_comm power,
      Nat.mul_comm denominator]
  rw [double, coefficient, middle] at reached
  generalize divNearest numerator (denominator * twoTo 2045) = rounded at *
  generalize overflowUnits * denominator = threshold at *
  omega

theorem twoTo_le_overflow {exponent : Nat} (le : exponent ≤ 2097) :
    twoTo exponent ≤ overflowUnits := by
  refine Nat.le_trans (twoTo_le le) ?_
  rw [overflowUnits, show 2097 = 53 + 2044 from rfl, twoTo_add]
  exact Nat.mul_le_mul_right _ (by decide)

theorem overflow_le_twoTo {exponent : Nat} (le : 2098 ≤ exponent) :
    overflowUnits ≤ twoTo exponent := by
  refine Nat.le_trans ?_ (twoTo_le le)
  rw [overflowUnits, show 2098 = 54 + 2044 from rfl, twoTo_add]
  exact Nat.mul_le_mul_right _ (by decide)

/-- **Rounding overflows from the middle behind the greatest finite magnitude on.** -/
theorem rankOfUnits_lt_infinity {numerator denominator : Nat} (positive : 0 < denominator) :
    rankOfUnits numerator denominator < infinityRank ↔ numerator < overflowUnits * denominator := by
  obtain ⟨shift, spans⟩ : ∃ shift, Spans numerator denominator shift :=
    ⟨_, spans_log2 numerator positive⟩
  have mantissa := spans.mantissa positive
  have lower := le_divNearest numerator (denominator * twoTo shift)
  have upper := divNearest_le numerator (denominator * twoTo shift)
  rw [rankOfUnits_of_spans positive spans]
  rcases Nat.lt_trichotomy shift 2045 with less | same | greater
  · have value := Nat.lt_of_lt_of_le spans.below
      (Nat.mul_le_mul_left denominator (twoTo_le_overflow (show shift + 53 ≤ 2097 by omega)))
    rw [Nat.mul_comm denominator] at value
    refine iff_of_true ?_ value
    generalize divNearest numerator (denominator * twoTo shift) = rounded at *
    generalize numerator / (denominator * twoTo shift) = truncated at *
    unfold infinityRank binadeSize at *
    clear value
    omega
  · subst same
    rw [← divNearest_lt_overflow numerator positive]
    generalize divNearest numerator (denominator * twoTo 2045) = rounded at *
    clear spans mantissa lower upper
    unfold infinityRank binadeSize at *
    omega
  · have above := spans.above.resolve_left (by omega)
    have value := Nat.le_trans
      (Nat.mul_le_mul_left denominator (overflow_le_twoTo (show 2098 ≤ shift + 52 by omega))) above
    rw [Nat.mul_comm denominator] at value
    refine iff_of_false ?_ (Nat.not_lt.2 value)
    generalize divNearest numerator (denominator * twoTo shift) = rounded at *
    generalize numerator / (denominator * twoTo shift) = truncated at *
    clear value above spans
    unfold infinityRank binadeSize at *
    omega

/-! ### Between ranks -/

theorem divNearest_le_of_le {numerator denominator bound : Nat} (positive : 0 < denominator)
    (le : numerator ≤ bound * denominator) : divNearest numerator denominator ≤ bound := by
  have near := divNearest_mul_le numerator denominator
  have less : divNearest numerator denominator * denominator < (bound + 1) * denominator := by
    rw [Nat.add_mul]
    omega
  exact Nat.le_of_lt_succ (Nat.lt_of_mul_lt_mul_right less)

/-- **Rounding does not go below a rank** that the exact value reaches. -/
theorem le_rankOfUnits {numerator denominator rank : Nat} (positive : 0 < denominator)
    (small : rank ≤ infinityRank) (le : units rank * denominator ≤ numerator) :
    rank ≤ rankOfUnits numerator denominator := by
  obtain ⟨shift, spans⟩ : ∃ shift, Spans numerator denominator shift :=
    ⟨_, spans_log2 numerator positive⟩
  have whole := shiftOf_add_mantissaOf rank
  have bounded := mantissaOf_lt rank
  rw [rankOfUnits_of_spans positive spans]
  refine Nat.le_min.2 ⟨small, ?_⟩
  rw [units_eq] at le
  rcases Nat.lt_trichotomy (shiftOf rank) shift with less | same | greater
  · have normal := (spans.mantissa positive).2.resolve_left (by omega)
    have lower := le_divNearest numerator (denominator * twoTo shift)
    have binades := Nat.mul_le_mul_right binadeSize (Nat.succ_le_of_lt less)
    rw [Nat.succ_mul] at binades
    omega
  · have step : 0 < denominator * twoTo shift := Nat.mul_pos positive (twoTo_pos shift)
    have lower := le_divNearest numerator (denominator * twoTo shift)
    rw [same, Nat.mul_assoc, Nat.mul_comm _ denominator, ← Nat.le_div_iff_mul_le step] at le
    rw [same] at whole
    omega
  · -- the rank's value would lie behind the quotient's binade
    have normal := (shiftOf_canonical rank).resolve_left (by omega)
    have power : twoTo (shift + 53) ≤ mantissaOf rank * twoTo (shiftOf rank) := by
      refine Nat.le_trans (twoTo_le (show shift + 53 ≤ 52 + shiftOf rank by omega)) ?_
      rw [twoTo_add]
      exact Nat.mul_le_mul_right _ normal
    have value := Nat.le_trans (Nat.mul_le_mul_right denominator power) le
    rw [Nat.mul_comm] at value
    exact absurd spans.below (Nat.not_lt.2 value)

/-- **Rounding does not go above a rank** that the exact value does not exceed. -/
theorem rankOfUnits_le_of_le {numerator denominator rank : Nat} (positive : 0 < denominator)
    (le : numerator ≤ units rank * denominator) : rankOfUnits numerator denominator ≤ rank := by
  obtain ⟨shift, spans⟩ : ∃ shift, Spans numerator denominator shift :=
    ⟨_, spans_log2 numerator positive⟩
  have whole := shiftOf_add_mantissaOf rank
  have bounded := mantissaOf_lt rank
  rw [rankOfUnits_of_spans positive spans]
  refine Nat.le_trans (Nat.min_le_right _ _) ?_
  rw [units_eq] at le
  rcases Nat.lt_trichotomy shift (shiftOf rank) with less | same | greater
  · have normal := (shiftOf_canonical rank).resolve_left (by omega)
    have small := (spans.mantissa positive).1
    have upper := divNearest_le numerator (denominator * twoTo shift)
    have binades := Nat.mul_le_mul_right binadeSize (Nat.succ_le_of_lt less)
    rw [Nat.succ_mul] at binades
    omega
  · have step : 0 < denominator * twoTo shift := Nat.mul_pos positive (twoTo_pos shift)
    rw [← same, Nat.mul_assoc, Nat.mul_comm _ denominator] at le
    have rounded := divNearest_le_of_le step le
    rw [← same] at whole
    omega
  · -- the quotient's binade would lie behind the rank's value
    have above := spans.above.resolve_left (by omega)
    have power : mantissaOf rank * twoTo (shiftOf rank) < twoTo (shift + 52) := by
      refine Nat.lt_of_lt_of_le (Nat.mul_lt_mul_of_pos_right bounded (twoTo_pos _)) ?_
      show twoTo 53 * twoTo (shiftOf rank) ≤ twoTo (shift + 52)
      rw [← twoTo_add]
      exact twoTo_le (by omega)
    have value := Nat.lt_of_le_of_lt le (Nat.mul_lt_mul_of_pos_right power positive)
    rw [Nat.mul_comm] at value
    exact absurd above (Nat.not_le.2 value)

/-- The value of a rank is rounded to that rank. -/
theorem rankOfUnits_units {rank : Nat} (small : rank ≤ infinityRank) {denominator : Nat}
    (positive : 0 < denominator) : rankOfUnits (units rank * denominator) denominator = rank :=
  Nat.le_antisymm (rankOfUnits_le_of_le positive (Nat.le_refl _))
    (le_rankOfUnits positive small (Nat.le_refl _))

end ColumnCalc.Binary64
