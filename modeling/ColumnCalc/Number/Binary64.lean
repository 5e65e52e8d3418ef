/-
**Binary64 numbers as ranks and units.**

The non-negative binary64 numbers in ascending order, infinity included, are numbered by their bit
patterns; that number is a magnitude's *rank*. Every finite magnitude is a whole number of *units*
of 2 ^ -1074, the least positive one. All reading, printing and rounding in this library is exact
arithmetic on units:

* `units` gives the value of a rank, `units_succ_gt` says that ranks ascend with their values;
* `rankOfQuotient` gives the rank nearest to a quotient, a tie going to the even rank;
* `decompose` and `ofRank` lead from a number to its sign and rank and back.
-/

import ColumnCalc.Number.Power

namespace ColumnCalc.Binary64

/-- The whole number nearest to `numerator / denominator`; of two equally near, the even one. -/
def divNearest (numerator denominator : Nat) : Nat :=
  let quotient := numerator / denominator
  let twice := 2 * (numerator % denominator)
  if twice < denominator then quotient
  else if denominator < twice then quotient + 1
  else quotient + quotient % 2

/-- How many units make one. -/
def unitsPerOne : Nat := twoTo 1074

/-- How many bits of a pattern tell the ranks of one binade apart. -/
def fractionBits : Nat := 52

/-- How many ranks a binade has. -/
def binadeSize : Nat := 0x10000000000000

/-- The bit that a sign adds to a rank's pattern. -/
def signBit : Nat := 0x8000000000000000

/-- The rank of infinity, the first that is not a finite magnitude. -/
def infinityRank : Nat := 2047 * binadeSize

/-- The value of a rank, in units: in binade zero the units are counted one by one, and every
later binade doubles the step. -/
def units (rank : Nat) : Nat :=
  let binade := rank / binadeSize
  let fraction := rank % binadeSize
  if binade = 0 then fraction else (binadeSize + fraction) * twoTo (binade - 1)

/-- The rank nearest to `numerator / denominator` units; of two equally near, the even one. Past
the middle between the greatest finite magnitude and the next step it is infinity. -/
def rankOfUnits (numerator denominator : Nat) : Nat :=
  let shift := (numerator / denominator).log2 - fractionBits
  min infinityRank (shift * binadeSize + divNearest numerator (denominator * twoTo shift))

/-- The rank nearest to the value `numerator / denominator`. -/
def rankOfQuotient (numerator denominator : Nat) : Nat :=
  rankOfUnits (numerator * unitsPerOne) denominator

/-- A number taken apart. -/
inductive Parts where
  | notANumber
  | infinite (negative : Bool)
  | finite (negative : Bool) (rank : Nat)
  deriving DecidableEq, Repr

/-- The sign and the rank of a number. -/
def decompose (value : Float) : Parts :=
  let bits := value.toBits.toNat
  let negative := decide (signBit ≤ bits)
  let rank := bits % signBit
  if rank < infinityRank then .finite negative rank
  else if rank = infinityRank then .infinite negative
  else .notANumber

/-- The number of a sign and a rank. -/
def ofRank (negative : Bool) (rank : Nat) : Float :=
  Float.ofBits (UInt64.ofNat (if negative then signBit + rank else rank))

/-- The number nearest to a quotient with a sign in front. -/
def ofQuotient (negative : Bool) (numerator denominator : Nat) : Float :=
  ofRank negative (rankOfQuotient numerator denominator)

/-- The number is whole; infinities and not-a-number are not. -/
def isWhole (value : Float) : Bool :=
  match decompose value with
  | .finite _ rank => units rank % unitsPerOne == 0
  | _ => false

/-- The whole part of a finite number, rounded toward zero. -/
def truncate (value : Float) : Int :=
  match decompose value with
  | .finite negative rank =>
    let whole := units rank / unitsPerOne
    if negative then -(whole : Int) else whole
  | _ => 0

/-- A quotient without remainder is its own nearest number. -/
theorem divNearest_mul (quotient denominator : Nat) (positive : 0 < denominator) :
    divNearest (quotient * denominator) denominator = quotient := by
  simp [divNearest, positive]

/-- Every rank's value lies below the next one's. -/
theorem units_succ_gt (rank : Nat) : units rank < units (rank + 1) := by
  simp only [units]
  by_cases carry : rank % binadeSize = binadeSize - 1
  · have nextBinade : (rank + 1) / binadeSize = rank / binadeSize + 1 := by
      unfold binadeSize at *; omega
    have nextFraction : (rank + 1) % binadeSize = 0 := by unfold binadeSize at *; omega
    rw [nextBinade, nextFraction, carry]
    by_cases first : rank / binadeSize = 0
    · rw [if_pos first, if_neg (by omega), first]
      decide
    · obtain ⟨binade, succ⟩ := Nat.exists_eq_succ_of_ne_zero first
      have positive := twoTo_pos binade
      rw [if_neg first, if_neg (by omega), succ]
      simp only [Nat.succ_eq_add_one, Nat.add_sub_cancel, twoTo_succ, binadeSize]
      omega
  · have sameBinade : (rank + 1) / binadeSize = rank / binadeSize := by
      unfold binadeSize at *; omega
    have nextFraction : (rank + 1) % binadeSize = rank % binadeSize + 1 := by
      unfold binadeSize at *; omega
    rw [sameBinade, nextFraction]
    split
    · omega
    · exact Nat.mul_lt_mul_of_pos_right (by omega) (twoTo_pos _)

end ColumnCalc.Binary64
