/-
**`ROUND` and the exact value.**

A number's exact value has a nearest multiple of `10 ^ -digits`, and that multiple has a nearest number.
This is what `ROUND` gives for decimals, for powers of ten past the range, and for exact powers of ten
as long as the number is small enough (`RoundsRight`). To other tens, hundreds and so on `ROUND` gives
what three roundings make of the number (`IsRoundedThrice`), and that can be another multiple.

* `exists_nearest_decimal`, `exists_nearest_zero`, `exists_nearest_ten` — where it is the nearest one.
* `isRoundedThrice_roundAt` — what it is for every power of ten in range.
* `round_exact_value` — a call of `ROUND`.
-/

import ColumnCalc.Proofs.Formula.Rounding
import ColumnCalc.Proofs.Number.Multiples

namespace ColumnCalc.Builtin

open Binary64 Decimals

/-! ### Whole numbers of places -/

theorem exists_decompose {number : Float} {exact : ℚ} (isNumber : exactValue? number = some exact) :
    ∃ negative rank, decompose number = .finite negative rank ∧ exactValue number = exact := by
  have isExact : exactValue number = exact := by
    rw [exactValue, isNumber]
    rfl
  unfold exactValue? at isNumber
  split at isNumber
  · next negative rank isFinite => exact ⟨negative, rank, isFinite, isExact⟩
  · cases isNumber

/-- **A count of places** is whole, and none of it is cut off. -/
theorem truncate_of_exactValue {places : Float} {digits : ℤ}
    (arePlaces : exactValue? places = some (digits : ℚ)) :
    isWhole places = true ∧ truncate places = digits := by
  obtain ⟨negative, rank, isFinite, isExact⟩ := exists_decompose arePlaces
  have one := unitsPerOne_cast_pos
  have whole : units rank = digits.natAbs * unitsPerOne := by
    have absolute := abs_exactValue isFinite
    rw [isExact, eq_div_iff one.ne', ← Int.cast_abs, ← Nat.cast_natAbs] at absolute
    exact_mod_cast absolute.symm
  have nonneg : (0 : ℚ) ≤ units rank / unitsPerOne := div_nonneg (Nat.cast_nonneg _) one.le
  rw [exactValue_eq isFinite] at isExact
  refine ⟨?_, ?_⟩
  · rw [isWhole, isFinite]
    simp only
    rw [whole, Nat.mul_mod_left]
    rfl
  · rw [truncate, isFinite]
    simp only
    rw [whole, Nat.mul_div_cancel _ unitsPerOne_pos]
    cases negative with
    | false =>
      rw [factorOf, if_neg Bool.false_ne_true, one_mul] at isExact
      rw [if_neg Bool.false_ne_true]
      exact Int.natAbs_of_nonneg (by exact_mod_cast isExact ▸ nonneg)
    | true =>
      rw [factorOf, if_pos rfl, neg_one_mul] at isExact
      rw [if_pos rfl]
      have negated : (digits : ℚ) ≤ 0 := isExact ▸ neg_nonpos.2 nonneg
      have nonpos : digits ≤ 0 := by exact_mod_cast negated
      omega

/-! ### The nearest multiple -/

/-- A power of ten in range is divided by. -/
theorem roundAt_inRange (number : Float) {tens : Nat} (positive : 0 < tens) (inRange : tens < 309) :
    roundAt number (-tens) = roundToMultiple number (powerOfTen tens) := by
  obtain ⟨fewer, rfl⟩ := Nat.exists_eq_add_one_of_ne_zero positive.ne'
  have same : Nat.min greatestPlaces (fewer + 1) = fewer + 1 :=
    Nat.min_eq_right (inRange.le.trans (by decide))
  show roundAt number (.negSucc fewer) = _
  unfold roundAt
  simp only
  rw [same, if_pos ((isFinite_powerOfTen_iff _).2 inRange)]

section Nearest

variable {number : Float} {negative : Bool} {rank : Nat}
  (isNumber : decompose number = .finite negative rank)

include isNumber

/-- Past the last decimal of any number nothing is rounded. -/
theorem exactValue_eq_decimals {places : Nat} (past : exactPlaces < places) :
    ∃ count : ℤ, exactValue number = count * (1 / tenTo places) := by
  obtain ⟨factor, isFactor⟩ : unitsPerOne ∣ tenTo places := by
    rw [unitsPerOne_eq, ← fiveTo_mul_twoTo]
    exact Dvd.dvd.mul_left (twoTo_dvd (Nat.le_of_lt past)) _
  have scale := tenTo_pos places
  have factorPositive : (0 : ℚ) < factor := by
    rw [isFactor] at scale
    exact Nat.cast_pos.2 (Nat.pos_of_mul_pos_left scale)
  refine ⟨signedCount negative (units rank * factor), ?_⟩
  rw [exactValue_eq isNumber, cast_signedCount, isFactor, Nat.cast_mul, Nat.cast_mul, mul_assoc,
    mul_one_div, mul_div_mul_right _ _ factorPositive.ne']

/-- **Decimals**: the number nearest to the nearest multiple. -/
theorem exists_nearest_decimal (places : Nat) :
    ∃ count : ℤ, IsNearestMultiple (10 ^ (-(places : ℤ))) (exactValue number) count ∧
      IsNearestNumber (count * 10 ^ (-(places : ℤ))) (roundAt number places) := by
  have step : (10 : ℚ) ^ (-(places : ℤ)) = 1 / tenTo places := by
    rw [zpow_neg, zpow_natCast, cast_tenTo, one_div]
  rw [step]
  show ∃ count : ℤ, _ ∧ IsNearestNumber _ (if exactPlaces < places then number else _)
  split
  · next past =>
    obtain ⟨count, isCount⟩ := exactValue_eq_decimals isNumber past
    have positive : (0 : ℚ) < 1 / tenTo places := one_div_pos.2 (Nat.cast_pos.2 (tenTo_pos places))
    refine ⟨count, isCount ▸ isNearestMultiple_self positive, ?_⟩
    rw [← isCount]
    exact isNearestNumber_self (isFinite_of_decompose isNumber)
  · exact isNearestNumber_roundToPlaces isNumber places

/-- **A power of ten past the range**: zero. -/
theorem exists_nearest_zero {tens : Nat} (past : 309 ≤ tens) :
    ∃ count : ℤ, IsNearestMultiple (10 ^ tens) (exactValue number) count ∧
      IsNearestNumber (count * 10 ^ tens) (roundAt number (-tens)) := by
  obtain ⟨fewer, rfl⟩ := Nat.exists_eq_add_one_of_ne_zero (Nat.ne_zero_of_lt past)
  have stillPast : 309 ≤ Nat.min greatestPlaces (fewer + 1) := Nat.le_min.2 ⟨by decide, past⟩
  have isZero : roundAt number (.negSucc fewer) = ofRank negative 0 := by
    unfold roundAt
    simp only
    rw [if_neg ((isFinite_powerOfTen_iff _).not.2 (Nat.not_lt.2 stillPast)), isNumber]
  have decomposed := decompose_ofRank negative (show 0 < infinityRank by decide)
  have value : exactValue (ofRank negative 0) = 0 := by
    rw [exactValue_eq decomposed, units_zero, Nat.cast_zero, zero_div, mul_zero]
  refine ⟨0, isNearestMultiple_zero (pow_pos (by norm_num) _)
    ((abs_exactValue_lt isNumber).trans (rangeEnd_lt_half past)), ?_⟩
  show IsNearestNumber _ (roundAt number (.negSucc fewer))
  rw [isZero, Int.cast_zero, zero_mul, ← value]
  exact isNearestNumber_self (isFinite_of_decompose decomposed)

/-- **An exact power of ten**: the number nearest to the nearest multiple, if the number is small. -/
theorem exists_nearest_ten {tens : Nat} (positive : 0 < tens) (few : tens ≤ 22)
    (small : |exactValue number| < 2 ^ (52 + tens)) :
    ∃ count : ℤ, IsNearestMultiple (10 ^ tens) (exactValue number) count ∧
      IsNearestNumber (count * 10 ^ tens) (roundAt number (-tens)) := by
  rw [roundAt_inRange number positive (few.trans_lt (by decide)), ← cast_tenTo]
  exact isNearestNumber_roundToMultiple isNumber few small

/-- **Any power of ten in range**: what three roundings make of the number. -/
theorem isRoundedThrice_roundAt {tens : Nat} (positive : 0 < tens) (inRange : tens < 309) :
    ∃ multiple : ℤ,
      IsRoundedThrice number (powerOfTen tens) (roundAt number (-tens)) multiple := by
  have isFinite := (isFinite_powerOfTen_iff tens).2 inRange
  obtain infinite | ⟨powerRank, -, isPower, large⟩ := (atLeastOne_powerOfTen tens).unpack
  · exact absurd isFinite (not_isFinite_of_infinite infinite)
  · rw [roundAt_inRange number positive inRange]
    exact ⟨_, roundToMultiple_account isNumber isPower large⟩

end Nearest

/-! ### The call -/

/-- **Where rounding is right**: for decimals, for a power of ten past the range, and for an exact power
of ten if quotients have room for the middles between whole numbers. -/
def RoundsRight (exact : ℚ) (digits : ℤ) : Prop :=
  0 ≤ digits ∨ digits ≤ -309 ∨ -22 ≤ digits ∧ |exact| < 2 ^ (52 - digits)

/-- **Where rounding is right**, it gives the number nearest to the nearest multiple. -/
theorem isNearestNumber_roundAt {number : Float} {negative : Bool} {rank : Nat} {digits count : ℤ}
    (isNumber : decompose number = .finite negative rank)
    (right : RoundsRight (exactValue number) digits)
    (nearest : IsNearestMultiple (10 ^ (-digits)) (exactValue number) count) :
    IsNearestNumber (count * 10 ^ (-digits)) (roundAt number digits) := by
  suffices found : ∃ other : ℤ, IsNearestMultiple (10 ^ (-digits)) (exactValue number) other ∧
      IsNearestNumber (other * 10 ^ (-digits)) (roundAt number digits) by
    obtain ⟨other, alsoNearest, isNearest⟩ := found
    rw [nearest.unique (zpow_pos (by norm_num) _) alsoNearest]
    exact isNearest
  rcases lt_or_ge digits 0 with negated | nonneg
  · obtain ⟨tens, isTens⟩ := Int.eq_ofNat_of_zero_le (show 0 ≤ -digits by omega)
    obtain rfl : digits = -tens := by omega
    rw [neg_neg, zpow_natCast]
    rcases right with impossible | past | ⟨few, small⟩
    · omega
    · exact exists_nearest_zero isNumber (by omega)
    · have bound : 52 - -(tens : ℤ) = ((52 + tens : ℕ) : ℤ) := by omega
      rw [bound, zpow_natCast] at small
      exact exists_nearest_ten isNumber (by omega) (by omega) small
  · obtain ⟨places, rfl⟩ := Int.eq_ofNat_of_zero_le nonneg
    exact exists_nearest_decimal isNumber places

/-- **`ROUND` of a number to a whole number of places.** Let `count * 10 ^ -digits` be the multiple that
is nearest to the exact value. Where rounding is right, the call gives the number that is nearest to
this multiple. To any power of ten in range it gives what the three roundings give, and if the power is
exact, that is wrong at most where the rounded quotient has another nearest whole number. -/
theorem round_exact_value {number places : Float} {exact : ℚ} {digits count : ℤ}
    (isNumber : exactValue? number = some exact) (arePlaces : exactValue? places = some (digits : ℚ))
    (nearest : IsNearestMultiple (10 ^ (-digits)) exact count) :
    ∃ value, applyRound [number, places] = .ok value ∧
      (RoundsRight exact digits → IsNearestNumber (count * 10 ^ (-digits)) value) ∧
      ∀ tens : ℕ, digits = -tens → 0 < tens → tens < 309 →
        ∃ multiple : ℤ, IsRoundedThrice number (powerOfTen tens) value multiple ∧
          (tens ≤ 22 → multiple = count → |(count * 10 ^ (-digits) : ℚ)| < rangeEnd →
            IsNearestNumber (count * 10 ^ (-digits)) value) := by
  obtain ⟨negative, rank, isFinite, isExact⟩ := exists_decompose isNumber
  obtain ⟨areWhole, isDigits⟩ := truncate_of_exactValue arePlaces
  subst isExact
  have isRounded : rounded number places = roundAt number digits := by
    rw [rounded, if_pos (isFinite_of_decompose isFinite), isDigits]
  refine ⟨roundAt number digits, applyRound_pair.2 ⟨areWhole, isRounded.symm⟩, ?_, ?_⟩
  · intro right
    exact isNearestNumber_roundAt isFinite right nearest
  · rintro tens rfl positive inRange
    obtain ⟨multiple, account⟩ := isRoundedThrice_roundAt isFinite positive inRange
    refine ⟨multiple, account, ?_⟩
    rintro few rfl small
    have product := account.product
    rw [exactValue_powerOfTen few, cast_tenTo] at product
    rw [neg_neg, zpow_natCast] at small ⊢
    exact product small

/-- **The even hundred**: 1250 lies in the middle. -/
theorem round_exact_value_hundreds :
    exactValue? 1250 = some 1250 ∧ exactValue? (-2) = some ((-2 : ℤ) : ℚ) ∧
      IsNearestMultiple (10 ^ (-(-2 : ℤ))) 1250 12 ∧
      ∃ value, applyRound [1250, -2] = .ok value ∧ IsNearestNumber (12 * 10 ^ (-(-2 : ℤ))) value := by
  have isNumber : exactValue? 1250 = some 1250 := by decide +kernel
  have arePlaces : exactValue? (-2) = some ((-2 : ℤ) : ℚ) := by decide +kernel
  have nearest : IsNearestMultiple (10 ^ (-(-2 : ℤ))) 1250 12 := by
    rw [isNearestMultiple_iff (by norm_num)]
    exact ⟨by norm_num [abs_le], fun _ => ⟨6, rfl⟩⟩
  obtain ⟨value, applied, right, -⟩ := round_exact_value isNumber arePlaces nearest
  refine ⟨isNumber, arePlaces, nearest, value, applied, ?_⟩
  exact_mod_cast right (.inr (.inr ⟨by decide, by norm_num [abs_lt]⟩))

/-- **A multiple that is not the nearest one.** The quotient 1125899906842625.4 is rounded to
1125899906842625.5, which is in the middle, and that to the even neighbour. -/
theorem round_takes_another_multiple :
    exactValue? 11258999068426254 = some 11258999068426254 ∧
      IsNearestMultiple (10 ^ (-(-1 : ℤ))) 11258999068426254 1125899906842625 ∧
      IsNearestNumber (1125899906842625 * 10 ^ (-(-1 : ℤ))) 11258999068426250 ∧
      applyRound [11258999068426254, -1] = .ok 11258999068426260 ∧
      ¬IsNearestNumber (1125899906842625 * 10 ^ (-(-1 : ℤ))) 11258999068426260 := by
  have multiple : (1125899906842625 * 10 ^ (-(-1 : ℤ)) : ℚ) = 11258999068426250 := by norm_num
  have isMultiple : exactValue 11258999068426250 = 11258999068426250 := by decide +kernel
  have isValue : exactValue 11258999068426260 = 11258999068426260 := by decide +kernel
  have isFinite : Float.isFinite 11258999068426250 = true := by decide +kernel
  rw [multiple]
  refine ⟨by decide +kernel, ?_, ?_, ?_, ?_⟩
  · rw [isNearestMultiple_iff (by norm_num)]
    exact ⟨by norm_num [abs_le], fun middle => absurd middle (by norm_num [abs_of_neg])⟩
  · have nearest := isNearestNumber_self isFinite
    rwa [isMultiple] at nearest
  · exact applyRound_pair.2 (by decide +kernel)
  · intro nearest
    have nearer := nearest.nearest _ isFinite
    rw [isMultiple, isValue] at nearer
    norm_num at nearer

end ColumnCalc.Builtin
