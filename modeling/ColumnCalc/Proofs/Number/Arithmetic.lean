/-
**Arithmetic on ranks.**

What the operations on binary64 numbers do to signs and ranks:

* `decompose_neg` — a sign turns the sign.
* `mul_eq`, `div_eq` — a product and a quotient are rounded once, from their exact value.
-/

import ColumnCalc.Proofs.Number.Rounding

namespace ColumnCalc.Binary64

open Float.Model (Format UnpackedFloat totalExponent)
open Float.Model.UnpackedFloat (Sign accuracyOfFraction roundWithAccuracy divCore)

theorem valid_decompose (value : Float) : (decompose value).Valid :=
  valid_partsOf value.toBits.toNat

theorem rank_lt_infinity {value : Float} {negative : Bool} {rank : Nat}
    (isValue : decompose value = .finite negative rank) : rank < infinityRank := by
  have valid := valid_decompose value
  rw [isValue] at valid
  exact valid

/-! ### Signs -/

/-- The parts with the other sign. -/
def Parts.neg : Parts → Parts
  | .notANumber => .notANumber
  | .infinite negative => .infinite !negative
  | .finite negative rank => .finite (!negative) rank

theorem signOf_not (negative : Bool) : signOf (!negative) = -signOf negative := by
  cases negative with
  | false => rfl
  | true => rfl

theorem signOf_mul (first second : Bool) :
    signOf first * signOf second = signOf (first != second) := by
  cases first <;> cases second <;> rfl

theorem signOf_div (first second : Bool) :
    signOf first / signOf second = signOf (first != second) := by
  cases first <;> cases second <;> rfl

theorem Parts.Valid.neg {parts : Parts} (valid : parts.Valid) : parts.neg.Valid := by
  cases parts with
  | notANumber => trivial
  | infinite negative => trivial
  | finite negative rank => exact valid

theorem Parts.unpack_neg (parts : Parts) : parts.neg.unpack = parts.unpack.neg := by
  cases parts with
  | notANumber => rfl
  | infinite negative => exact congrArg UnpackedFloat.infinity (signOf_not negative)
  | finite negative rank =>
    show Parts.unpack (.finite (!negative) rank) = _
    by_cases zero : rank = 0
    · rw [zero, Parts.unpack_zero, Parts.unpack_zero, signOf_not]
      rfl
    · rw [Parts.unpack_positive _ zero, Parts.unpack_positive _ zero, signOf_not]
      rfl

/-- **A sign turns the sign.** -/
theorem decompose_neg (value : Float) : decompose (-value) = (decompose value).neg := by
  show decompose (.ofModel (.pack value.toModel.unpack.neg)) = _
  rw [unpack_toModel, ← Parts.unpack_neg]
  exact decompose_pack (valid_decompose value).neg

/-! ### Products -/

theorem units_zero : units 0 = 0 := rfl

theorem unitsPerOne_eq : unitsPerOne = twoTo 1074 := rfl

theorem rankOfUnits_zero (denominator : Nat) : rankOfUnits 0 denominator = 0 := by
  have shift : (0 / denominator).log2 - fractionBits = 0 := by
    rw [Nat.zero_div]
    rfl
  have rounded : ∀ steps : Nat, divNearest 0 steps = 0 := by
    intro steps
    simp only [divNearest, Nat.zero_div, Nat.zero_mod]
    split
    · rfl
    · split
      · omega
      · rfl
  simp only [rankOfUnits, shift, rounded]
  rfl

theorem ofModel_pack_zero (negative : Bool) :
    Float.ofModel (.pack (.zero (signOf negative))) = ofRank negative 0 := by
  refine ofModel_pack_eq (Nat.zero_le _) ?_
  cases negative with
  | false => rfl
  | true => rfl

theorem rankOfUnits_le (numerator denominator : Nat) :
    rankOfUnits numerator denominator ≤ infinityRank :=
  Nat.min_le_left _ _

/-- A product of mantissas has bits enough, unless both factors are in the first binade. -/
theorem mantissas_enough {first second : Nat} (firstPositive : first ≠ 0)
    (secondPositive : second ≠ 0) :
    52 ≤ (mantissaOf first * mantissaOf second).log2 ∨ shiftOf first + shiftOf second ≤ 1074 := by
  have one := mantissaOf_pos firstPositive
  have other := mantissaOf_pos secondPositive
  have product : mantissaOf first * mantissaOf second ≠ 0 := Nat.ne_of_gt (Nat.mul_pos one other)
  have enough : 2 ^ 52 ≤ mantissaOf first * mantissaOf second ∨
      shiftOf first + shiftOf second ≤ 1074 := by
    rcases shiftOf_canonical first with firstBinade | normal
    · rcases shiftOf_canonical second with secondBinade | normal
      · right
        omega
      · left
        exact Nat.le_trans normal (Nat.le_mul_of_pos_left _ one)
    · left
      exact Nat.le_trans normal (Nat.le_mul_of_pos_right _ other)
  exact enough.imp_left fun large => (Nat.le_log2 product).2 large

/-- **A product is rounded once**, from the product of the exact values. -/
theorem mul_eq {first second : Float} {firstNegative secondNegative : Bool}
    {firstRank secondRank : Nat} (isFirst : decompose first = .finite firstNegative firstRank)
    (isSecond : decompose second = .finite secondNegative secondRank) :
    first * second = ofRank (firstNegative != secondNegative)
      (rankOfUnits (units firstRank * units secondRank) unitsPerOne) := by
  show Float.ofModel (.pack (UnpackedFloat.mul Format.binary64 first.toModel.unpack
    second.toModel.unpack)) = _
  rw [unpack_toModel, unpack_toModel, isFirst, isSecond]
  by_cases firstZero : firstRank = 0
  · have product : units firstRank * units secondRank = 0 := by
      rw [firstZero, units_zero, Nat.zero_mul]
    rw [product, rankOfUnits_zero, ← ofModel_pack_zero, ← signOf_mul, firstZero, Parts.unpack_zero]
    by_cases secondZero : secondRank = 0
    · rw [secondZero, Parts.unpack_zero]
      rfl
    · rw [Parts.unpack_positive _ secondZero]
      rfl
  · by_cases secondZero : secondRank = 0
    · have product : units firstRank * units secondRank = 0 := by
        rw [secondZero, units_zero, Nat.mul_zero]
      rw [product, rankOfUnits_zero, ← ofModel_pack_zero, ← signOf_mul, secondZero,
        Parts.unpack_zero, Parts.unpack_positive _ firstZero]
      rfl
    · refine ofModel_pack_eq (rankOfUnits_le _ _) ?_
      have enough := mantissas_enough firstZero secondZero
      have round := @toNat_pack_round (firstNegative != secondNegative)
        (mantissaOf firstRank * mantissaOf secondRank) 1 (shiftOf firstRank + shiftOf secondRank)
        1074 Nat.one_pos (by rwa [Nat.div_one])
      have exponent : ((shiftOf firstRank + shiftOf secondRank : Nat) : Int) - (1074 : Nat) - 1074
          = (shiftOf firstRank : Int) - 1074 + ((shiftOf secondRank : Int) - 1074) := by omega
      have value : mantissaOf firstRank * mantissaOf secondRank
          * twoTo (shiftOf firstRank + shiftOf secondRank)
            = units firstRank * units secondRank := by
        rw [units_eq, units_eq, twoTo_add, Nat.mul_mul_mul_comm]
      rw [Nat.div_one, Nat.mod_one, exponent, value, Nat.one_mul, ← signOf_mul] at round
      rw [Parts.unpack_positive _ firstZero, Parts.unpack_positive _ secondZero]
      exact round

/-- A product that the model finds infinite. -/
theorem decompose_mul_infinite {first second : Float} {negative : Bool}
    (product : UnpackedFloat.mul Format.binary64 (decompose first).unpack (decompose second).unpack
      = .infinity (signOf negative)) : decompose (first * second) = .infinite negative := by
  show decompose (.ofModel (.pack (UnpackedFloat.mul Format.binary64 first.toModel.unpack
    second.toModel.unpack))) = _
  rw [unpack_toModel, unpack_toModel, product]
  exact @decompose_pack (.infinite negative) trivial

/-! ### Quotients -/

/-- A quotient is computed with as many bits as rounding needs. -/
theorem quotient_enough {first second firstShift secondShift count : Nat}
    (firstPositive : first ≠ 0) (secondPositive : second ≠ 0)
    (bits : second.log2 + 53 ≤ first.log2 + count ∨ firstShift + 1074 ≤ secondShift + count) :
    52 ≤ ((first <<< count) / second).log2 ∨ firstShift + 1074 ≤ secondShift + count := by
  refine bits.imp_left fun wide => ?_
  have below : second < twoTo (second.log2 + 1) := Nat.lt_log2_self
  have above : twoTo first.log2 ≤ first := Nat.log2_self_le firstPositive
  have large : 2 ^ 52 ≤ (first <<< count) / second := by
    rw [Nat.le_div_iff_mul_le (Nat.pos_of_ne_zero secondPositive), Nat.shiftLeft_eq]
    calc 2 ^ 52 * second
      _ ≤ twoTo 52 * twoTo (second.log2 + 1) := Nat.mul_le_mul_left _ (Nat.le_of_lt below)
      _ = twoTo (52 + (second.log2 + 1)) := (twoTo_add _ _).symm
      _ ≤ twoTo (first.log2 + count) := twoTo_le (by omega)
      _ = twoTo first.log2 * twoTo count := twoTo_add _ _
      _ ≤ first * 2 ^ count := Nat.mul_le_mul_right _ above
  exact (Nat.le_log2 (Nat.ne_of_gt (Nat.lt_of_lt_of_le (by decide) large))).2 large

/-- What the model divides: the quotient of the mantissas, some places behind the point. -/
theorem divCore_eq {first second : Nat} (firstShift secondShift : Nat) (firstPositive : first ≠ 0)
    (secondPositive : second ≠ 0) :
    ∃ count : Nat,
      divCore Format.binary64 first (firstShift - 1074) second (secondShift - 1074)
        = ((first <<< count) / second, ((firstShift + 1074 : Nat) : Int) - (secondShift + count : Nat)
            - 1074, accuracyOfFraction ((first <<< count) % second) second) ∧
      (52 ≤ ((first <<< count) / second).log2 ∨ firstShift + 1074 ≤ secondShift + count) := by
  have width : (Format.binary64.mantissaBits : Int) = 53 := rfl
  have least : Format.binary64.minExponent = -1074 := rfl
  obtain ⟨count, isCount⟩ : ∃ count : Nat, (firstShift : Int) - 1074 - (secondShift - 1074)
      - min ((firstShift : Int) - 1074 - (secondShift - 1074))
        (max (totalExponent first (firstShift - 1074) - totalExponent second (secondShift - 1074)
          - 53) (-1074)) = count :=
    ⟨_, (Int.toNat_of_nonneg (by omega)).symm⟩
  refine ⟨count, ?_, ?_⟩
  · simp only [divCore, Format.targetExponent, width, least, isCount, Int.toNat_natCast]
    refine Prod.ext rfl (Prod.ext ?_ rfl)
    simp only
    omega
  · refine quotient_enough firstPositive secondPositive ?_
    unfold totalExponent at isCount
    omega

/-- **A quotient is rounded once**, from the quotient of the exact values. -/
theorem div_eq {first second : Float} {firstNegative secondNegative : Bool}
    {firstRank secondRank : Nat} (isFirst : decompose first = .finite firstNegative firstRank)
    (isSecond : decompose second = .finite secondNegative secondRank)
    (notZero : secondRank ≠ 0) :
    first / second = ofRank (firstNegative != secondNegative)
      (rankOfUnits (units firstRank * unitsPerOne) (units secondRank)) := by
  show Float.ofModel (.pack (UnpackedFloat.div Format.binary64 first.toModel.unpack
    second.toModel.unpack)) = _
  rw [unpack_toModel, unpack_toModel, isFirst, isSecond]
  by_cases firstZero : firstRank = 0
  · have numerator : units firstRank * unitsPerOne = 0 := by
      rw [firstZero, units_zero, Nat.zero_mul]
    rw [numerator, rankOfUnits_zero, ← ofModel_pack_zero, ← signOf_div, firstZero,
      Parts.unpack_zero, Parts.unpack_positive _ notZero]
    rfl
  · refine ofModel_pack_eq (rankOfUnits_le _ _) ?_
    obtain ⟨count, core, enough⟩ := divCore_eq (shiftOf firstRank) (shiftOf secondRank)
      (Nat.ne_of_gt (mantissaOf_pos firstZero)) (Nat.ne_of_gt (mantissaOf_pos notZero))
    have round := toNat_pack_round (firstNegative != secondNegative) (mantissaOf_pos notZero) enough
    have value : (mantissaOf firstRank <<< count) * twoTo (shiftOf firstRank + 1074)
        = units firstRank * unitsPerOne * twoTo count := by
      rw [units_eq, unitsPerOne_eq, twoTo_add, Nat.shiftLeft_eq, ← Nat.mul_assoc,
        Nat.mul_right_comm _ (2 ^ count), Nat.mul_right_comm _ (2 ^ count)]
      rfl
    have divisor : mantissaOf secondRank * twoTo (shiftOf secondRank + count)
        = units secondRank * twoTo count := by
      rw [units_eq, twoTo_add, Nat.mul_assoc]
    have positive : 0 < units secondRank := by
      rw [units_eq]
      exact Nat.mul_pos (mantissaOf_pos notZero) (twoTo_pos _)
    rw [value, divisor, rankOfUnits_scale _ positive (twoTo_pos count), ← signOf_div] at round
    rw [Parts.unpack_positive _ firstZero, Parts.unpack_positive _ notZero]
    unfold UnpackedFloat.div
    dsimp only
    rw [core]
    exact round

end ColumnCalc.Binary64
