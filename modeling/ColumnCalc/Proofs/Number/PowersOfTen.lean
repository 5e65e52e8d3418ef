/-
**Powers of ten by repeated squaring.**

Every product is rounded, so a power of ten is exact only as long as all its factors are, and it is
infinite from the first one that is past the range on. For great exponents this is shown by lower
bounds: a product is at least as large as the product of the powers of two below its factors.

* `AtLeastTwoTo.mul` — lower bounds are multiplied, `atLeastTwoTo_mulPower` — and raised to powers.
* `isFinite_powerOfTen_iff` — the powers that are in range.
* `powerOfTen_exact` — the powers that are exact.
-/

import ColumnCalc.Proofs.Number.Decimals
import Mathlib.Tactic.Ring

namespace ColumnCalc.Decimals

open Binary64

/-! ### Lower bounds -/

/-- **The number is at least a power of two**, or past the range if the power is. -/
def AtLeastTwoTo (exponent : Nat) (value : Float) : Prop :=
  ∃ rank, decompose value = partsOfRank false rank ∧
    oneRank + min 1024 exponent * binadeSize ≤ rank ∧ rank ≤ infinityRank

/-- The value of the rank of a power of two. -/
theorem units_twoTo (exponent : Nat) :
    units (oneRank + exponent * binadeSize) = unitsPerOne * twoTo exponent := by
  have split : oneRank + exponent * binadeSize = (1022 + exponent) * binadeSize + binadeSize := by
    unfold oneRank
    ring
  rw [split, units_of_canonical (Nat.le_refl _) (by decide), unitsPerOne_eq, ← twoTo_add,
    show binadeSize = twoTo 52 from rfl, ← twoTo_add]
  congr 1
  omega

section Bounds

variable {first second product base : Float} {one other exponent : Nat}

theorem AtLeastTwoTo.atLeastOne (isLarge : AtLeastTwoTo exponent first) : AtLeastOne first := by
  obtain ⟨rank, isValue, large, small⟩ := isLarge
  refine ⟨rank, isValue, ?_, small⟩
  rw [← units_oneRank]
  exact units_le (Nat.le_of_add_right_le large)

theorem AtLeastTwoTo.units_le {rank : Nat} (isLarge : AtLeastTwoTo exponent first)
    (isFinite : decompose first = .finite false rank) :
    unitsPerOne * twoTo exponent ≤ units rank := by
  obtain ⟨found, isValue, large, -⟩ := isLarge
  rw [isFinite, partsOfRank] at isValue
  split at isValue
  · next below =>
    cases isValue
    have inRange : min 1024 exponent = exponent := by
      unfold oneRank infinityRank binadeSize at *
      omega
    rw [← units_twoTo, ← inRange]
    exact Binary64.units_le large
  · cases isValue

theorem rank_le_infinity (exponent : Nat) :
    oneRank + min 1024 exponent * binadeSize ≤ infinityRank := by
  unfold oneRank infinityRank binadeSize
  omega

theorem atLeastTwoTo_infinite (isInfinite : decompose first = .infinite false) :
    AtLeastTwoTo exponent first := by
  refine ⟨infinityRank, ?_, rank_le_infinity exponent, Nat.le_refl _⟩
  rw [isInfinite, partsOfRank, if_neg (Nat.lt_irrefl _)]

/-- What is at least `2 ^ 1024` is infinite. -/
theorem AtLeastTwoTo.infinite (isLarge : AtLeastTwoTo exponent first) (past : 1024 ≤ exponent) :
    decompose first = .infinite false := by
  obtain ⟨rank, isValue, large, -⟩ := isLarge
  rw [Nat.min_eq_left past] at large
  rw [isValue, partsOfRank, if_neg (Nat.not_lt.2 (Nat.le_trans (by decide) large))]

/-- **Lower bounds are multiplied.** -/
theorem AtLeastTwoTo.mul (isFirst : AtLeastTwoTo one first)
    (isSecond : AtLeastTwoTo other second) : AtLeastTwoTo (one + other) (first * second) := by
  rcases isFirst.atLeastOne.mul_cases isSecond.atLeastOne with
    infinite | ⟨firstRank, secondRank, finite, alsoFinite, -, -⟩
  · exact atLeastTwoTo_infinite infinite
  · have powers : unitsPerOne * twoTo (min 1024 (one + other)) * unitsPerOne
        ≤ units firstRank * units secondRank := by
      calc unitsPerOne * twoTo (min 1024 (one + other)) * unitsPerOne
        _ ≤ unitsPerOne * twoTo (one + other) * unitsPerOne :=
          Nat.mul_le_mul_right _ (Nat.mul_le_mul_left _ (twoTo_le (Nat.min_le_right _ _)))
        _ = unitsPerOne * twoTo one * (unitsPerOne * twoTo other) := by
          rw [twoTo_add]
          ring
        _ ≤ units firstRank * units secondRank :=
          Nat.mul_le_mul (isFirst.units_le finite) (isSecond.units_le alsoFinite)
    rw [mul_eq finite alsoFinite]
    refine ⟨_, decompose_ofRank_le false (rankOfUnits_le _ _), ?_, rankOfUnits_le _ _⟩
    refine le_rankOfUnits unitsPerOne_pos (rank_le_infinity _) ?_
    rw [units_twoTo]
    exact powers

/-- **Lower bounds are raised to powers.** -/
theorem atLeastTwoTo_mulPower (isProduct : AtLeastTwoTo one product)
    (isBase : AtLeastTwoTo other base) {count : Nat} (positive : count ≠ 0) :
    AtLeastTwoTo (one + other * count) (mulPower product base count) := by
  induction count using Nat.strongRecOn generalizing product base one other with
  | ind count ih =>
    rw [mulPower]
    have halves := Nat.div_add_mod count 2
    obtain ⟨next, isNext, isSum⟩ : ∃ next,
        AtLeastTwoTo next (if count % 2 = 1 then product * base else product) ∧
          next = one + other * (count % 2) := by
      rcases Nat.mod_two_eq_zero_or_one count with even | odd
      · rw [even, if_neg (by decide)]
        exact ⟨one, isProduct, by omega⟩
      · rw [odd, if_pos rfl]
        exact ⟨one + other, isProduct.mul isBase, by omega⟩
    have sum : one + other * count = next + (other + other) * (count / 2) := by
      rw [isSum, ← Nat.two_mul, Nat.mul_comm 2, Nat.mul_assoc, Nat.add_assoc, ← Nat.mul_add,
        Nat.add_comm (count % 2), halves]
    rw [sum]
    by_cases last : count / 2 = 0
    · rw [if_pos last, last]
      exact isNext
    · rw [if_neg last]
      exact ih (count / 2) (by omega) isNext (isBase.mul isBase) last

end Bounds

/-! ### Powers of ten -/

theorem atLeastTwoTo_ten : AtLeastTwoTo 3 10 :=
  ⟨1026 * binadeSize + binadeSize / 4, by decide +kernel, by decide, by decide⟩

theorem atLeastTwoTo_one : AtLeastTwoTo 0 1 :=
  ⟨oneRank, by decide +kernel, by decide, by decide⟩

/-- **The powers of ten that are in range.** -/
theorem isFinite_powerOfTen_iff (exponent : Nat) :
    (powerOfTen exponent).isFinite = true ↔ exponent < 309 := by
  by_cases near : exponent < 342
  · have all : ∀ exponent < 342, (powerOfTen exponent).isFinite = decide (exponent < 309) := by
      decide +kernel
    rw [all exponent near, decide_eq_true_iff]
  · have infinite := (atLeastTwoTo_mulPower atLeastTwoTo_one atLeastTwoTo_ten
      (show exponent ≠ 0 by omega)).infinite (by omega)
    exact iff_of_false (not_isFinite_of_infinite infinite) (by omega)

/-- **Powers of ten up to the twenty-second are exact.** -/
theorem powerOfTen_exact {exponent : Nat} (small : exponent ≤ 22) :
    ∃ rank, decompose (powerOfTen exponent) = .finite false rank ∧
      units rank = tenTo exponent * unitsPerOne := by
  have all : ∀ exponent < 23,
      decompose (powerOfTen exponent)
          = .finite false (rankOfUnits (tenTo exponent * unitsPerOne) 1) ∧
        units (rankOfUnits (tenTo exponent * unitsPerOne) 1) = tenTo exponent * unitsPerOne := by
    decide +kernel
  exact ⟨_, all exponent (Nat.lt_succ_of_le small)⟩

end ColumnCalc.Decimals
