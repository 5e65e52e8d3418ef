/-
**Rounding in the model.**

The logical model rounds a mantissa bit by bit, with two residual bits beside it; this library divides
once and rounds to even. They agree: `toNat_pack_round` says that what the model rounds and packs is the
rank nearest to the exact value.

* `Approximates` — a mantissa and its residual bits stand for a quotient. Dropping bits keeps it
  (`Approximates.shift`), and its rounded mantissa is the nearest whole number
  (`Approximates.rounded`).
* `spans_target` — the model's target exponent is that of the value's binade.
* `shiftToTarget_rounded` — a mantissa that rounding fills up is shifted once more.
-/

import ColumnCalc.Proofs.Number.Nearest
import ColumnCalc.Proofs.Number.Packing

namespace ColumnCalc.Binary64

open Float.Model (Format UnpackedFloat totalExponent)
open Float.Model.UnpackedFloat (Sign Accuracy ExtendedMantissa accuracyOfFraction
  shiftToTargetExponent shiftToExponent roundWithAccuracy)

/-! ### Residual bits -/

/-- A mantissa stands for a quotient rounded down; its round bit says that a half was dropped, and
its sticky bit that what was dropped is neither nothing nor a half. -/
structure Approximates (mantissa : ExtendedMantissa) (numerator denominator : Nat) : Prop where
  whole : mantissa.mantissa = numerator / denominator
  half : mantissa.roundBit = decide (denominator ≤ 2 * (numerator % denominator))
  rest : mantissa.stickyBit
    = decide (numerator % denominator ≠ 0 ∧ 2 * (numerator % denominator) ≠ denominator)

theorem approximates_fraction (numerator : Nat) {denominator : Nat} (positive : 0 < denominator) :
    Approximates (ExtendedMantissa.ofMantissaAndAccuracy (numerator / denominator)
      (accuracyOfFraction (numerator % denominator) denominator)) numerator denominator := by
  unfold accuracyOfFraction
  by_cases zero : numerator % denominator = 0
  · rw [if_pos zero]
    refine ⟨rfl, ?_, ?_⟩
    · exact (decide_eq_false (by omega)).symm
    · exact (decide_eq_false (by omega)).symm
  · rw [if_neg zero]
    rcases Nat.lt_trichotomy (2 * (numerator % denominator)) denominator with less | same | greater
    · rw [Nat.compare_eq_lt.2 less]
      refine ⟨rfl, ?_, ?_⟩
      · exact (decide_eq_false (by omega)).symm
      · exact (decide_eq_true (by omega)).symm
    · rw [Nat.compare_eq_eq.2 same]
      refine ⟨rfl, ?_, ?_⟩
      · exact (decide_eq_true (by omega)).symm
      · exact (decide_eq_false (by omega)).symm
    · rw [Nat.compare_eq_gt.2 greater]
      refine ⟨rfl, ?_, ?_⟩
      · exact (decide_eq_true (by omega)).symm
      · exact (decide_eq_true (by omega)).symm

/-- Dropping one bit doubles the denominator. -/
theorem Approximates.shiftOne {mantissa : ExtendedMantissa} {numerator denominator : Nat}
    (positive : 0 < denominator) (approximates : Approximates mantissa numerator denominator) :
    Approximates mantissa.shiftRightOne numerator (denominator * 2) := by
  have small := Nat.mod_lt numerator positive
  have bits : numerator % (denominator * 2)
      = numerator % denominator + denominator * (numerator / denominator % 2) := Nat.mod_mul
  refine ⟨?_, ?_, ?_⟩
  · show mantissa.mantissa / 2 = _
    rw [approximates.whole, Nat.div_div_eq_div_mul]
  · show (mantissa.mantissa % 2 != 0) = _
    rw [approximates.whole, bits, Bool.eq_iff_iff, bne_iff_ne, decide_eq_true_eq]
    rcases Nat.mod_two_eq_zero_or_one (numerator / denominator) with even | odd
    · rw [even]
      omega
    · rw [odd]
      omega
  · show (mantissa.roundBit || mantissa.stickyBit) = _
    rw [approximates.half, approximates.rest, bits, Bool.eq_iff_iff, Bool.or_eq_true,
      decide_eq_true_eq, decide_eq_true_eq, decide_eq_true_eq]
    rcases Nat.mod_two_eq_zero_or_one (numerator / denominator) with even | odd
    · rw [even]
      omega
    · rw [odd]
      omega

theorem Approximates.shift {mantissa : ExtendedMantissa} {numerator denominator : Nat}
    (positive : 0 < denominator) (approximates : Approximates mantissa numerator denominator)
    (count : Nat) : Approximates (mantissa >>> count) numerator (denominator * twoTo count) := by
  induction count with
  | zero =>
    rw [show twoTo 0 = 1 from rfl, Nat.mul_one]
    exact approximates
  | succ count ih =>
    rw [twoTo_succ, ← Nat.mul_assoc]
    exact ih.shiftOne (Nat.mul_pos positive (twoTo_pos count))

/-- **The rounded mantissa** is the nearest whole number. -/
theorem Approximates.rounded {mantissa : ExtendedMantissa} {numerator denominator : Nat}
    (positive : 0 < denominator) (approximates : Approximates mantissa numerator denominator) :
    mantissa.roundedMantissa = divNearest numerator denominator := by
  obtain ⟨whole, half, rest⟩ := approximates
  obtain ⟨truncated, roundBit, stickyBit⟩ := mantissa
  simp only at whole
  subst whole
  simp only [divNearest]
  cases roundBit with
  | false =>
    have less := of_decide_eq_false half.symm
    rw [if_pos (Nat.not_le.1 less)]
    cases stickyBit with
    | false => rfl
    | true => rfl
  | true =>
    have notLess := of_decide_eq_true half.symm
    rw [if_neg (Nat.not_lt.2 notLess)]
    cases stickyBit with
    | false =>
      have isTie := of_decide_eq_false rest.symm
      rw [if_neg (by omega)]
      rfl
    | true =>
      have noTie := of_decide_eq_true rest.symm
      rw [if_pos (by omega)]
      rfl

/-! ### Rounding in the model -/

/-- The target of the model's shift is the binade of the value, if the mantissa has bits enough. -/
theorem spans_target {numerator denominator up down : Nat} (positive : 0 < denominator)
    (enough : 52 ≤ (numerator / denominator).log2 ∨ up ≤ down) :
    Spans (numerator * twoTo up) (denominator * twoTo down)
      ((numerator / denominator).log2 + up - (down + 52)) := by
  have upper : numerator / denominator < twoTo ((numerator / denominator).log2 + 1) :=
    Nat.lt_log2_self
  have lower : numerator / denominator ≠ 0 →
      twoTo (numerator / denominator).log2 ≤ numerator / denominator := Nat.log2_self_le
  have zero : numerator / denominator = 0 → (numerator / denominator).log2 = 0 := by
    intro zero
    rw [zero]
    rfl
  rw [Nat.div_lt_iff_lt_mul positive] at upper
  rw [Nat.le_div_iff_mul_le positive] at lower
  generalize (numerator / denominator).log2 = bits at *
  refine ⟨?_, ?_⟩
  · refine Nat.lt_of_lt_of_le (Nat.mul_lt_mul_of_pos_right upper (twoTo_pos up)) ?_
    rw [Nat.mul_comm _ denominator, Nat.mul_assoc, Nat.mul_assoc, ← twoTo_add, ← twoTo_add]
    exact Nat.mul_le_mul_left denominator (twoTo_le (by omega))
  · by_cases first : bits + up - (down + 52) = 0
    · exact .inl first
    · refine .inr ?_
      refine Nat.le_trans ?_ (Nat.mul_le_mul_right (twoTo up) (lower (by omega)))
      rw [Nat.mul_comm _ denominator, Nat.mul_assoc, Nat.mul_assoc, ← twoTo_add, ← twoTo_add]
      exact Nat.mul_le_mul_left denominator (twoTo_le (by omega))

theorem targetExponent_eq (mantissa : Nat) (exponent : Int) :
    Format.binary64.targetExponent (totalExponent mantissa exponent)
      = max ((mantissa.log2 : Int) + exponent - 52) (-1074) := by
  have width : (Format.binary64.mantissaBits : Int) = 53 := rfl
  have least : Format.binary64.minExponent = -1074 := rfl
  rw [Format.targetExponent, width, least, totalExponent]
  congr 1
  omega

/-- What the model rounds first: the nearest whole number of steps. -/
theorem shiftToTarget_eq {numerator denominator up down : Nat} (positive : 0 < denominator)
    (enough : 52 ≤ (numerator / denominator).log2 ∨ up ≤ down) :
    let shift := (numerator / denominator).log2 + up - (down + 52)
    let shifted := shiftToTargetExponent Format.binary64 (numerator / denominator)
      (up - down - 1074) (accuracyOfFraction (numerator % denominator) denominator)
    shifted.1.roundedMantissa
        = divNearest (numerator * twoTo up) (denominator * twoTo down * twoTo shift) ∧
      shifted.2 = (shift : Int) - 1074 := by
  intro shift shifted
  have isShift : shift = (numerator / denominator).log2 + up - (down + 52) := rfl
  have count : (Format.binary64.targetExponent (totalExponent (numerator / denominator)
      (up - down - 1074)) - ((up : Int) - down - 1074)).toNat = shift + down - up := by
    rw [targetExponent_eq]
    omega
  have approximates := (approximates_fraction numerator positive).shift positive
    (shift + down - up)
  have steps : 0 < denominator * twoTo (shift + down - up) := Nat.mul_pos positive (twoTo_pos _)
  have same : denominator * twoTo down * twoTo shift
      = denominator * twoTo (shift + down - up) * twoTo up := by
    rw [Nat.mul_assoc, Nat.mul_assoc, ← twoTo_add, ← twoTo_add]
    congr 2
    omega
  refine ⟨?_, ?_⟩
  · rw [same, divNearest_scale _ _ (twoTo_pos up), ← approximates.rounded steps, ← count]
    rfl
  · show (up : Int) - down - 1074 + ((Format.binary64.targetExponent (totalExponent
      (numerator / denominator) (up - down - 1074)) - ((up : Int) - down - 1074)).toNat : Int) = _
    rw [count]
    omega

/-- A mantissa that rounding has filled up is shifted once more. -/
theorem shiftToTarget_rounded {mantissa : Nat} (shift : Nat) (small : mantissa ≤ 2 * binadeSize) :
    shiftToTargetExponent Format.binary64 mantissa (shift - 1074) .exact
      = if mantissa = 2 * binadeSize then (⟨binadeSize, false, false⟩, ((shift + 1 : Nat) : Int) - 1074)
        else (⟨mantissa, false, false⟩, (shift : Int) - 1074) := by
  unfold shiftToTargetExponent shiftToExponent
  simp only [targetExponent_eq]
  split
  · rename_i full
    have bits : mantissa.log2 = 53 := by
      rw [full]
      decide
    have count : (max ((mantissa.log2 : Int) + (shift - 1074) - 52) (-1074)
        - ((shift : Int) - 1074)).toNat = 1 := by omega
    rw [count, full]
    refine Prod.ext rfl ?_
    show (shift : Int) - 1074 + ((1 : Nat) : Int) = _
    omega
  · rename_i notFull
    have bits : mantissa.log2 ≤ 52 := by
      by_cases zero : mantissa = 0
      · rw [zero]
        decide
      · refine Nat.le_of_lt_succ ((Nat.log2_lt zero).2 ?_)
        unfold binadeSize at *
        omega
    have count : (max ((mantissa.log2 : Int) + (shift - 1074) - 52) (-1074)
        - ((shift : Int) - 1074)).toNat = 0 := by omega
    rw [count]
    refine Prod.ext rfl ?_
    show (shift : Int) - 1074 + ((0 : Nat) : Int) = _
    omega

/-- Packing what the model rounds: the pattern of as many steps as the first shift leaves. -/
theorem toNat_pack_roundWithAccuracy (negative : Bool) {mantissa rounded shift : Nat}
    {exponent : Int} {accuracy : Accuracy}
    (isRounded : (shiftToTargetExponent Format.binary64 mantissa exponent
      accuracy).1.roundedMantissa = rounded)
    (isShift : (shiftToTargetExponent Format.binary64 mantissa exponent accuracy).2
      = (shift : Int) - 1074)
    (small : rounded ≤ 2 * binadeSize) (canonical : shift = 0 ∨ binadeSize ≤ rounded) :
    (UnpackedFloat.pack Format.binary64
        (roundWithAccuracy Format.binary64 (signOf negative) mantissa exponent accuracy)).toNat
      = signedPattern negative (min infinityRank (shift * binadeSize + rounded)) := by
  have second := shiftToTarget_rounded shift small
  unfold roundWithAccuracy
  dsimp only
  rw [isRounded, isShift]
  by_cases full : rounded = 2 * binadeSize
  · have notEmpty : ¬ binadeSize = 0 := by decide
    rw [if_pos full] at second
    rw [second, dif_neg notEmpty, toNat_pack_finite negative _ (by decide) (.inr (Nat.le_refl _)),
      full, Nat.add_mul, Nat.one_mul, Nat.two_mul, Nat.add_assoc]
  · rw [if_neg full] at second
    rw [second]
    by_cases zero : rounded = 0
    · rw [dif_pos zero]
      have first : shift = 0 := canonical.resolve_right (by rw [zero]; decide)
      rw [zero, first]
      cases negative with
      | false => rfl
      | true => rfl
    · have below : rounded < 2 * binadeSize := Nat.lt_of_le_of_ne small full
      rw [dif_neg zero]
      exact toNat_pack_finite negative _ below canonical

/-- **The model rounds to the nearest rank.** Rounding and packing a value given as a quotient, with
enough bits, gives the pattern of the rank that is nearest to it. -/
theorem toNat_pack_round (negative : Bool) {numerator denominator up down : Nat}
    (positive : 0 < denominator)
    (enough : 52 ≤ (numerator / denominator).log2 ∨ up ≤ down) :
    (UnpackedFloat.pack Format.binary64 (roundWithAccuracy Format.binary64 (signOf negative)
        (numerator / denominator) (up - down - 1074)
        (accuracyOfFraction (numerator % denominator) denominator))).toNat
      = signedPattern negative
          (rankOfUnits (numerator * twoTo up) (denominator * twoTo down)) := by
  have unitsPositive : 0 < denominator * twoTo down := Nat.mul_pos positive (twoTo_pos down)
  have spans := spans_target positive enough
  obtain ⟨isRounded, isShift⟩ := shiftToTarget_eq positive enough
  obtain ⟨small, canonical⟩ := spans.mantissa unitsPositive
  have lower := le_divNearest (numerator * twoTo up)
    (denominator * twoTo down * twoTo ((numerator / denominator).log2 + up - (down + 52)))
  have upper := divNearest_le (numerator * twoTo up)
    (denominator * twoTo down * twoTo ((numerator / denominator).log2 + up - (down + 52)))
  rw [rankOfUnits_of_spans unitsPositive spans]
  refine toNat_pack_roundWithAccuracy negative isRounded isShift ?_ ?_
  · exact Nat.le_trans upper small
  · exact canonical.imp_right fun normal => Nat.le_trans normal lower

/-- Numbers whose patterns are those of a sign and a rank. -/
theorem ofModel_pack_eq {unpacked : UnpackedFloat} {negative : Bool} {rank : Nat}
    (small : rank ≤ infinityRank)
    (same : (UnpackedFloat.pack Format.binary64 unpacked).toNat = signedPattern negative rank) :
    Float.ofModel (.pack unpacked) = ofRank negative rank := by
  have pattern : decompose (Float.ofModel (.pack unpacked))
      = partsOf (signedPattern negative rank) := by
    rw [← same]
    rfl
  refine decompose_injective (pattern.trans ?_)
  rcases Nat.lt_or_eq_of_le small with finite | infinite
  · rw [decompose_ofRank negative finite]
    exact @partsOf_pattern (.finite negative rank) finite
  · rw [infinite, decompose_ofRank_infinity negative]
    exact @partsOf_pattern (.infinite negative) trivial

end ColumnCalc.Binary64
