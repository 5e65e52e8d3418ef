/-
**Comparing numbers.**

Numbers stand on a line by their ranks, negative ones below zero; what is not a number stands nowhere.
`le_iff` and `lt_iff` say that numbers are compared by these positions. The model compares exponents first
and then mantissas, which comes to the same for mantissas that fill their binades (`compare_lex`). The
infinities are the ends of the line (`infinite_of_position`). Numbers without a sign are totally ordered
(`Unsigned.trichotomy`).
-/

import ColumnCalc.Proofs.Number.Arithmetic

namespace ColumnCalc.Binary64

open Float.Model (UnpackedFloat)

/-! ### Positions -/

/-- A rank on the line, below zero with a sign. -/
def signedRank (negative : Bool) (rank : Nat) : Int := if negative then -rank else rank

@[simp] theorem signedRank_false (rank : Nat) : signedRank false rank = rank := rfl

@[simp] theorem signedRank_true (rank : Nat) : signedRank true rank = -rank := rfl

@[simp] theorem signedRank_zero (negative : Bool) : signedRank negative 0 = 0 := by
  cases negative with
  | false => rfl
  | true => rfl

/-- The place of a number on the line, in ranks; what is not a number has none. -/
def Parts.position? : Parts → Option Int
  | .notANumber => none
  | .infinite negative => some (signedRank negative infinityRank)
  | .finite negative rank => some (signedRank negative rank)

/-- Steps count first and mantissas second, as long as mantissas fill their binades. -/
theorem compare_lex {firstShift secondShift first second size : Nat} (offset : Int)
    (firstSmall : first < 2 * size) (secondSmall : second < 2 * size)
    (firstNormal : firstShift = 0 ∨ size ≤ first) (secondNormal : secondShift = 0 ∨ size ≤ second) :
    (compare ((firstShift : Int) - offset) ((secondShift : Int) - offset)).then
        (compare first second)
      = compare ((firstShift * size + first : Nat) : Int) ((secondShift * size + second : Nat) : Int) := by
  rcases Nat.lt_trichotomy firstShift secondShift with less | same | greater
  · have binades := Nat.mul_le_mul_right size (Nat.succ_le_of_lt less)
    rw [Nat.succ_mul] at binades
    rw [Int.compare_eq_lt.2 (by omega : (firstShift : Int) - offset < secondShift - offset),
      Int.compare_eq_lt.2 (by omega)]
    rfl
  · subst same
    rw [Int.compare_eq_eq.2 (rfl : (firstShift : Int) - offset = firstShift - offset)]
    rcases Nat.lt_trichotomy first second with less | equal | greater
    · rw [Nat.compare_eq_lt.2 less, Int.compare_eq_lt.2 (by omega)]
      rfl
    · rw [Nat.compare_eq_eq.2 equal, Int.compare_eq_eq.2 (by omega)]
      rfl
    · rw [Nat.compare_eq_gt.2 greater, Int.compare_eq_gt.2 (by omega)]
      rfl
  · have binades := Nat.mul_le_mul_right size (Nat.succ_le_of_lt greater)
    rw [Nat.succ_mul] at binades
    rw [Int.compare_eq_gt.2 (by omega : (secondShift : Int) - offset < firstShift - offset),
      Int.compare_eq_gt.2 (by omega)]
    rfl

theorem compare_rank (first second : Nat) :
    (compare ((shiftOf first : Int) - 1074) ((shiftOf second : Int) - 1074)).then
        (compare (mantissaOf first) (mantissaOf second)) = compare (first : Int) second := by
  have lex := compare_lex 1074 (mantissaOf_lt first) (mantissaOf_lt second)
    (shiftOf_canonical first) (shiftOf_canonical second)
  rw [shiftOf_add_mantissaOf, shiftOf_add_mantissaOf] at lex
  exact lex

theorem compare_neg (first second : Int) : compare (-first) (-second) = compare second first := by
  rcases Int.lt_trichotomy first second with less | same | greater
  · rw [Int.compare_eq_gt.2 less, Int.compare_eq_gt.2 (by omega)]
  · rw [same, Int.compare_eq_eq.2 rfl, Int.compare_eq_eq.2 rfl]
  · rw [Int.compare_eq_lt.2 greater, Int.compare_eq_lt.2 (by omega)]

/-- Finite parts are compared by their positions. -/
theorem compare_finite (firstNegative secondNegative : Bool) (first second : Nat) :
    UnpackedFloat.compare (Parts.finite firstNegative first).unpack
        (Parts.finite secondNegative second).unpack
      = some (compare (signedRank firstNegative first) (signedRank secondNegative second)) := by
  by_cases firstZero : first = 0
  · rw [firstZero, Parts.unpack_zero, signedRank_zero]
    by_cases secondZero : second = 0
    · rw [secondZero, Parts.unpack_zero, signedRank_zero]
      rfl
    · rw [Parts.unpack_positive _ secondZero]
      cases secondNegative with
      | false =>
        rw [signedRank_false, Int.compare_eq_lt.2 (by omega)]
        rfl
      | true =>
        rw [signedRank_true, Int.compare_eq_gt.2 (by omega)]
        rfl
  · rw [Parts.unpack_positive _ firstZero]
    by_cases secondZero : second = 0
    · rw [secondZero, Parts.unpack_zero, signedRank_zero]
      cases firstNegative with
      | false =>
        rw [signedRank_false, Int.compare_eq_gt.2 (by omega)]
        rfl
      | true =>
        rw [signedRank_true, Int.compare_eq_lt.2 (by omega)]
        rfl
    · rw [Parts.unpack_positive _ secondZero]
      cases firstNegative with
      | false =>
        cases secondNegative with
        | false => exact congrArg some (compare_rank first second)
        | true =>
          rw [signedRank_false, signedRank_true, Int.compare_eq_gt.2 (by omega)]
          rfl
      | true =>
        cases secondNegative with
        | false =>
          rw [signedRank_false, signedRank_true, Int.compare_eq_lt.2 (by omega)]
          rfl
        | true =>
          rw [signedRank_true, signedRank_true, compare_neg, ← Int.compare_swap, ← compare_rank]
          rfl

/-- Positions of finite parts lie between those of the infinities. -/
theorem signedRank_bounds (negative : Bool) {rank : Nat} (small : rank < infinityRank) :
    -(infinityRank : Int) < signedRank negative rank ∧ signedRank negative rank < infinityRank := by
  cases negative with
  | false =>
    rw [signedRank_false]
    omega
  | true =>
    rw [signedRank_true]
    omega

theorem compare_infinite (first second : Bool) :
    UnpackedFloat.compare (Parts.infinite first).unpack (Parts.infinite second).unpack
      = some (compare (signedRank first infinityRank) (signedRank second infinityRank)) := by
  have positive : (0 : Int) < infinityRank := by decide
  cases first with
  | false =>
    cases second with
    | false =>
      rw [Int.compare_eq_eq.2 rfl]
      rfl
    | true =>
      rw [signedRank_false, signedRank_true, Int.compare_eq_gt.2 (by omega)]
      rfl
  | true =>
    cases second with
    | false =>
      rw [signedRank_false, signedRank_true, Int.compare_eq_lt.2 (by omega)]
      rfl
    | true =>
      rw [Int.compare_eq_eq.2 rfl]
      rfl

theorem compare_infinite_finite (negative other : Bool) {rank : Nat}
    (small : rank < infinityRank) :
    UnpackedFloat.compare (Parts.infinite negative).unpack (Parts.finite other rank).unpack
      = some (compare (signedRank negative infinityRank) (signedRank other rank)) := by
  have bounds := signedRank_bounds other small
  have bySign : UnpackedFloat.compare (Parts.infinite negative).unpack
      (Parts.finite other rank).unpack = some (if negative then .lt else .gt) := by
    by_cases zero : rank = 0
    · rw [zero, Parts.unpack_zero]
      cases negative <;> rfl
    · rw [Parts.unpack_positive _ zero]
      cases negative <;> rfl
  rw [bySign]
  cases negative with
  | false =>
    rw [signedRank_false, Int.compare_eq_gt.2 bounds.2]
    rfl
  | true =>
    rw [signedRank_true, Int.compare_eq_lt.2 bounds.1]
    rfl

theorem compare_finite_infinite (negative other : Bool) {rank : Nat}
    (small : rank < infinityRank) :
    UnpackedFloat.compare (Parts.finite other rank).unpack (Parts.infinite negative).unpack
      = some (compare (signedRank other rank) (signedRank negative infinityRank)) := by
  have bounds := signedRank_bounds other small
  have bySign : UnpackedFloat.compare (Parts.finite other rank).unpack
      (Parts.infinite negative).unpack = some (if negative then .gt else .lt) := by
    by_cases zero : rank = 0
    · rw [zero, Parts.unpack_zero]
      cases negative <;> rfl
    · rw [Parts.unpack_positive _ zero]
      cases negative <;> rfl
  rw [bySign]
  cases negative with
  | false =>
    rw [signedRank_false, Int.compare_eq_lt.2 bounds.2]
    rfl
  | true =>
    rw [signedRank_true, Int.compare_eq_gt.2 bounds.1]
    rfl

/-- **The model compares positions.** -/
theorem compare_unpack {first second : Parts} (firstValid : first.Valid)
    (secondValid : second.Valid) :
    UnpackedFloat.compare first.unpack second.unpack
      = first.position?.bind fun one => second.position?.map fun other => compare one other := by
  cases first with
  | notANumber => rfl
  | infinite negative =>
    cases second with
    | notANumber => cases negative <;> rfl
    | infinite other => exact compare_infinite negative other
    | finite other rank => exact compare_infinite_finite negative other secondValid
  | finite negative rank =>
    cases second with
    | notANumber =>
      by_cases zero : rank = 0
      · rw [zero, Parts.unpack_zero]
        rfl
      · rw [Parts.unpack_positive _ zero]
        cases negative <;> rfl
    | infinite other => exact compare_finite_infinite other negative firstValid
    | finite other otherRank => exact compare_finite negative other rank otherRank

/-- The place of a number on the line. -/
def position? (value : Float) : Option Int := (decompose value).position?

/-- **What is in order has positions**, which are in order as well. -/
theorem le_iff_exists {first second : Float} : first ≤ second ↔
    ∃ one other, position? first = some one ∧ position? second = some other ∧ one ≤ other := by
  have compared := compare_unpack (valid_decompose first) (valid_decompose second)
  rw [← unpack_toModel, ← unpack_toModel] at compared
  unfold position?
  show decide ((UnpackedFloat.compare first.toModel.unpack second.toModel.unpack).any
    (·.isLE) = true) = true ↔ _
  rw [compared, decide_eq_true_eq]
  cases (decompose first).position? with
  | none => simp
  | some one =>
    cases (decompose second).position? with
    | none => simp
    | some other => simp [Int.isLE_compare]

/-- The same for numbers of which one is less. -/
theorem lt_iff_exists {first second : Float} : first < second ↔
    ∃ one other, position? first = some one ∧ position? second = some other ∧ one < other := by
  have compared := compare_unpack (valid_decompose first) (valid_decompose second)
  rw [← unpack_toModel, ← unpack_toModel] at compared
  unfold position?
  show decide ((UnpackedFloat.compare first.toModel.unpack second.toModel.unpack == some .lt)
    = true) = true ↔ _
  rw [compared, decide_eq_true_eq, beq_iff_eq]
  cases (decompose first).position? with
  | none => simp
  | some one =>
    cases (decompose second).position? with
    | none => simp
    | some other => simp [Int.compare_eq_lt]

/-- The same for numbers that compare equal. -/
theorem beq_iff_exists {first second : Float} : (first == second) = true ↔
    ∃ place, position? first = some place ∧ position? second = some place := by
  have compared := compare_unpack (valid_decompose first) (valid_decompose second)
  rw [← unpack_toModel, ← unpack_toModel] at compared
  unfold position?
  show (UnpackedFloat.compare first.toModel.unpack second.toModel.unpack == some .eq) = true ↔ _
  rw [compared, beq_iff_eq]
  cases (decompose first).position? with
  | none => simp
  | some one =>
    cases (decompose second).position? with
    | none => simp
    | some other =>
      show some (compare one other) = some .eq ↔ _
      rw [Option.some.injEq, Int.compare_eq_eq]
      constructor
      · rintro rfl
        exact ⟨one, rfl, rfl⟩
      · rintro ⟨place, isOne, isOther⟩
        exact Option.some.inj (isOne.trans isOther.symm)

/-- **Numbers are compared by their positions.** -/
theorem le_iff {first second : Float} {one other : Int} (isFirst : position? first = some one)
    (isSecond : position? second = some other) : first ≤ second ↔ one ≤ other := by
  simp [le_iff_exists, isFirst, isSecond]

theorem lt_iff {first second : Float} {one other : Int} (isFirst : position? first = some one)
    (isSecond : position? second = some other) : first < second ↔ one < other := by
  simp [lt_iff_exists, isFirst, isSecond]

theorem le_trans {first second third : Float} (below : first ≤ second) (above : second ≤ third) :
    first ≤ third := by
  obtain ⟨one, other, isFirst, isSecond, le⟩ := le_iff_exists.1 below
  obtain ⟨_, last, isSame, isThird, le'⟩ := le_iff_exists.1 above
  cases isSecond.symm.trans isSame
  exact le_iff_exists.2 ⟨one, last, isFirst, isThird, Int.le_trans le le'⟩

theorem beq_of_le {first second : Float} (below : first ≤ second) (above : second ≤ first) :
    (first == second) = true := by
  obtain ⟨one, other, isFirst, isSecond, le⟩ := le_iff_exists.1 below
  refine beq_iff_exists.2 ⟨one, isFirst, ?_⟩
  rw [isSecond, Int.le_antisymm le ((le_iff isSecond isFirst).1 above)]

theorem le_of_lt {first second : Float} (less : first < second) : first ≤ second := by
  obtain ⟨one, other, isFirst, isSecond, less⟩ := lt_iff_exists.1 less
  exact le_iff_exists.2 ⟨one, other, isFirst, isSecond, Int.le_of_lt less⟩

theorem lt_of_lt_of_le {first second third : Float} (below : first < second)
    (above : second ≤ third) : first < third := by
  obtain ⟨one, other, isFirst, isSecond, less⟩ := lt_iff_exists.1 below
  obtain ⟨_, last, isSame, isThird, le⟩ := le_iff_exists.1 above
  cases isSecond.symm.trans isSame
  exact lt_iff_exists.2 ⟨one, last, isFirst, isThird, Int.lt_of_lt_of_le less le⟩

theorem lt_trans {first second third : Float} (below : first < second) (above : second < third) :
    first < third :=
  lt_of_lt_of_le below (le_of_lt above)

theorem lt_irrefl (value : Float) : ¬value < value := by
  intro less
  obtain ⟨one, other, isOne, isOther, less⟩ := lt_iff_exists.1 less
  cases isOne.symm.trans isOther
  exact Int.lt_irrefl one less

/-- Nothing lies beyond the infinities. -/
theorem infinite_of_position {value : Float} {place : Int} (isPlace : position? value = some place) :
    (infinityRank ≤ place → decompose value = .infinite false) ∧
      (place ≤ -(infinityRank : Int) → decompose value = .infinite true) := by
  have positive : (0 : Int) < infinityRank := by decide
  unfold position? at isPlace
  cases parts : decompose value with
  | notANumber =>
    rw [parts] at isPlace
    cases isPlace
  | infinite negative =>
    rw [parts] at isPlace
    cases negative with
    | false =>
      have atEnd : (infinityRank : Int) = place := Option.some.inj isPlace
      exact ⟨fun _ => rfl, fun _ => by omega⟩
    | true =>
      have atEnd : -(infinityRank : Int) = place := Option.some.inj isPlace
      exact ⟨fun _ => by omega, fun _ => rfl⟩
  | finite negative rank =>
    rw [parts] at isPlace
    have inside := signedRank_bounds negative (rank_lt_infinity parts)
    have isRank : signedRank negative rank = place := Option.some.inj isPlace
    rw [isRank] at inside
    exact ⟨fun _ => by omega, fun _ => by omega⟩

/-! ### Numbers without a sign -/

/-- A number without a sign stands at its rank. -/
theorem position?_ofRank {rank : Nat} (small : rank ≤ infinityRank) :
    position? (ofRank false rank) = some rank := by
  unfold position?
  rcases Nat.lt_or_eq_of_le small with finite | infinite
  · rw [decompose_ofRank false finite]
    rfl
  · rw [infinite, decompose_ofRank_infinity]
    rfl

theorem zero_eq_ofRank : (0 : Float) = ofRank false 0 := by decide +kernel

/-- A number without a sign is not negative. -/
theorem zero_le_ofRank {rank : Nat} (small : rank ≤ infinityRank) : 0 ≤ ofRank false rank := by
  rw [zero_eq_ofRank, le_iff (position?_ofRank (Nat.zero_le _)) (position?_ofRank small)]
  exact Int.ofNat_le.2 (Nat.zero_le rank)

/-- **A number without a sign**: zero, a positive number or infinity. -/
def Unsigned (value : Float) : Prop := ∃ rank ≤ infinityRank, value = ofRank false rank

/-- Of two numbers without a sign one is less, or they are the same. -/
theorem Unsigned.trichotomy {first second : Float} (isFirst : Unsigned first)
    (isSecond : Unsigned second) : first < second ∨ first = second ∨ second < first := by
  obtain ⟨one, smallOne, rfl⟩ := isFirst
  obtain ⟨other, smallOther, rfl⟩ := isSecond
  rw [lt_iff (position?_ofRank smallOne) (position?_ofRank smallOther),
    lt_iff (position?_ofRank smallOther) (position?_ofRank smallOne)]
  rcases Nat.lt_trichotomy one other with less | same | greater
  · exact .inl (Int.ofNat_lt.2 less)
  · exact .inr (.inl (by rw [same]))
  · exact .inr (.inr (Int.ofNat_lt.2 greater))

end ColumnCalc.Binary64
