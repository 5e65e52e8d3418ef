/-
**What `ROUND` gives.**

`ROUND` wants a whole number of places and passes over what is not finite (`applyRound_pair`,
`applyRound_single`). A finite number stays finite under rounding to decimals. To tens, hundreds and so on
its quotient is rounded up and multiplied again, and nothing looks at the product: `RoundOverflows` is
the condition for an infinity, and `decompose_rounded` says that there is no other one.
-/

import ColumnCalc.Formula.Builtin
import ColumnCalc.Proofs.Number.Decimals

namespace ColumnCalc.Builtin

open Binary64 (decompose isFinite_of_decompose not_isFinite_of_infinite isWhole truncate)
open Decimals (MultipleOverflows atLeastOne_powerOfTen decompose_roundToMultiple
  decompose_roundToPlaces)

/-- What rounding to `tens` and one more zeros divides by. -/
def divisor (tens : Nat) : Float :=
  Decimals.powerOfTen (Nat.min greatestPlaces (tens + 1))

/-- **Rounding overflows**: to a multiple of a power of ten that is itself finite. -/
def RoundOverflows (number : Float) (places : Int) : Prop :=
  ∃ tens, places = .negSucc tens ∧ (divisor tens).isFinite = true ∧
    MultipleOverflows number (divisor tens)

/-- **Rounding a finite number** is finite unless it overflows, and then it is an infinity. -/
theorem decompose_roundAt {number : Float} {negative : Bool} {rank : Nat}
    (isNumber : decompose number = .finite negative rank) (places : Int) :
    (RoundOverflows number places → decompose (roundAt number places) = .infinite negative) ∧
    (¬ RoundOverflows number places → (roundAt number places).isFinite = true) := by
  cases places with
  | ofNat count =>
    constructor
    · rintro ⟨tens, impossible, _⟩
      cases impossible
    · intro _
      unfold roundAt
      simp only
      split
      · exact isFinite_of_decompose isNumber
      · obtain ⟨rounded, isRounded⟩ := decompose_roundToPlaces isNumber count
        exact isFinite_of_decompose isRounded
  | negSucc tens =>
    have multiple := decompose_roundToMultiple isNumber
      (atLeastOne_powerOfTen (Nat.min greatestPlaces (tens + 1)))
    constructor
    · rintro ⟨_, same, isFinite, overflows⟩
      cases same
      unfold divisor at isFinite overflows
      unfold roundAt
      simp only
      rw [if_pos isFinite]
      exact (multiple isFinite).1 overflows
    · intro stays
      unfold roundAt
      simp only
      split
      · rename_i isFinite
        obtain ⟨rounded, isRounded⟩ := (multiple isFinite).2 fun overflows =>
          stays ⟨tens, rfl, isFinite, overflows⟩
        exact isFinite_of_decompose isRounded
      · rw [isNumber]
        exact isFinite_of_decompose (Binary64.decompose_ofRank negative (by decide))

/-! ### The call -/

/-- A number rounded to a whole number of places; what is not finite stays. -/
def rounded (number places : Float) : Float :=
  if number.isFinite then roundAt number (truncate places) else number

theorem applyRound_pair {number places value : Float} :
    applyRound [number, places] = .ok value ↔
      isWhole places = true ∧ value = rounded number places := by
  unfold applyRound rounded
  simp only
  cases areWhole : isWhole places with
  | false =>
    constructor
    · intro applied
      cases applied
    · rintro ⟨impossible, _⟩
      cases impossible
  | true =>
    cases isFinite : number.isFinite with
    | false =>
      constructor
      · intro applied
        cases applied
        exact ⟨rfl, rfl⟩
      · rintro ⟨_, same⟩
        rw [same]
        rfl
    | true =>
      constructor
      · intro applied
        cases applied
        exact ⟨rfl, rfl⟩
      · rintro ⟨_, same⟩
        rw [same]
        rfl

theorem applyRound_single {number value : Float} :
    applyRound [number] = .ok value ↔ value = rounded number 0 := by
  have zeroIsWhole : isWhole 0 = true := by decide +kernel
  show applyRound [number, 0] = .ok value ↔ _
  rw [applyRound_pair, zeroIsWhole]
  exact ⟨fun both => both.2, fun same => ⟨rfl, same⟩⟩

/-- The arguments of a `ROUND` with a value. -/
theorem applyRound_ok {values : List Float} {value : Float}
    (applied : applyRound values = .ok value) :
    (∃ number, values = [number] ∧ value = rounded number 0) ∨
      ∃ number places, values = [number, places] ∧ isWhole places = true ∧
        value = rounded number places := by
  rcases values with _ | ⟨number, _ | ⟨places, _ | ⟨more, rest⟩⟩⟩
  · cases applied
  · exact .inl ⟨number, rfl, applyRound_single.1 applied⟩
  · exact .inr ⟨number, places, rfl, applyRound_pair.1 applied⟩
  · cases applied

/-- **A rounded finite number** is finite unless rounding overflows, and then it is an infinity. -/
theorem decompose_rounded {number places : Float} {negative : Bool} {rank : Nat}
    (isNumber : decompose number = .finite negative rank) :
    (RoundOverflows number (truncate places) →
      decompose (rounded number places) = .infinite negative) ∧
    (¬ RoundOverflows number (truncate places) → (rounded number places).isFinite = true) := by
  rw [rounded, if_pos (isFinite_of_decompose isNumber)]
  exact decompose_roundAt isNumber (truncate places)

theorem rounded_of_infinite {number places : Float} {negative : Bool}
    (isInfinite : decompose number = .infinite negative) : rounded number places = number :=
  if_neg (not_isFinite_of_infinite isInfinite)

/-- Rounding to whole numbers does not overflow. -/
theorem not_roundOverflows_zero (number : Float) : ¬ RoundOverflows number (truncate 0) := by
  have zero : truncate 0 = 0 := by decide +kernel
  rw [zero]
  intro ⟨tens, impossible, _⟩
  cases impossible

end ColumnCalc.Builtin
