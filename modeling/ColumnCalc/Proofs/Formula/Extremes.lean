/-
**Extremes of numbers.**

`MAX` and `MIN` go through their arguments once and keep the first of two numbers if it reaches the
second one, that is if it is at least, or at most, as great (`Chooses`). Both are the same fold: a
choice of one of two numbers that the other one stands in an order to (`foldl_choice`). For numbers that
have a position the choice is right, so the result of such a scan is one of the arguments and reaches
them all (`Scans.extreme_of_apply`). `Extreme` is either of the two functions, with the infinity that it
prefers, and `Extreme.apply` says what it makes of infinities.
-/

import ColumnCalc.Formula.Builtin
import ColumnCalc.Proofs.Number.Comparison

namespace ColumnCalc.Builtin

open Binary64 (decompose position?)

/-- **Going through a list with a choice** between two members gives a member to which all stand in
the order of the choice. -/
theorem foldl_choice {α : Type} {choice : α → α → α} {below : α → α → Prop} {isMember : α → Prop}
    (chooses : ∀ current next, choice current next = current ∨ choice current next = next)
    (bounds : ∀ current next, isMember current → isMember next →
      below current (choice current next) ∧ below next (choice current next))
    (refl : ∀ value, isMember value → below value value)
    (trans : ∀ first second third, below first second → below second third → below first third)
    (rest : List α) (first : α) (members : ∀ value ∈ first :: rest, isMember value) :
    rest.foldl choice first ∈ first :: rest ∧
      ∀ value ∈ first :: rest, below value (rest.foldl choice first) := by
  induction rest generalizing first with
  | nil =>
    refine ⟨.head _, fun value member => ?_⟩
    rcases List.mem_cons.1 member with same | inside
    · rw [same]
      exact refl first (members first (.head _))
    · cases inside
  | cons next rest ih =>
    rw [List.foldl_cons]
    have isFirst := members first (.head _)
    have isNext := members next (.tail _ (.head _))
    have isChoice : isMember (choice first next) := by
      rcases chooses first next with same | same
      · rw [same]
        exact isFirst
      · rw [same]
        exact isNext
    obtain ⟨member, above⟩ := ih (choice first next) fun value inside => by
      rcases List.mem_cons.1 inside with same | later
      · rw [same]
        exact isChoice
      · exact members value (.tail _ (.tail _ later))
    have step := above _ (.head _)
    obtain ⟨firstBelow, nextBelow⟩ := bounds first next isFirst isNext
    refine ⟨?_, ?_⟩
    · rcases List.mem_cons.1 member with same | later
      · rw [same]
        rcases chooses first next with chosen | chosen
        · rw [chosen]
          exact .head _
        · rw [chosen]
          exact .tail _ (.head _)
      · exact .tail _ (.tail _ later)
    · intro value inside
      rcases List.mem_cons.1 inside with same | inside
      · rw [same]
        exact trans _ _ _ firstBelow step
      · rcases List.mem_cons.1 inside with same | later
        · rw [same]
          exact trans _ _ _ nextBelow step
        · exact above value (.tail _ later)

/-! ### The greatest and the least -/

/-- Both numbers have a position, and the first one's is no greater. -/
def Before (first second : Float) : Prop :=
  ∃ one other, position? first = some one ∧ position? second = some other ∧ one ≤ other

theorem before_iff {first second : Float} : Before first second ↔ first ≤ second :=
  Binary64.le_iff_exists.symm

/-- The number has a position. -/
def IsNumber (value : Float) : Prop := (position? value).isSome = true

theorem isNumber_iff {value : Float} : IsNumber value ↔ value.isNaN = false := by
  have unpacked : value.isNaN = (decompose value).unpack.isNaN := by
    rw [← Binary64.unpack_toModel]
    rfl
  rw [unpacked, IsNumber, position?]
  cases decompose value with
  | notANumber => exact iff_of_false nofun nofun
  | infinite negative => exact iff_of_true rfl rfl
  | finite negative rank =>
    refine iff_of_true rfl ?_
    by_cases zero : rank = 0
    · rw [zero]
      rfl
    · rw [Binary64.Parts.unpack_positive negative zero]
      rfl

theorem before_total {first second : Float} (isFirst : IsNumber first)
    (isSecond : IsNumber second) : Before first second ∨ Before second first := by
  obtain ⟨one, isOne⟩ := Option.isSome_iff_exists.1 isFirst
  obtain ⟨other, isOther⟩ := Option.isSome_iff_exists.1 isSecond
  rcases Int.le_total one other with le | le
  · exact .inl ⟨one, other, isOne, isOther, le⟩
  · exact .inr ⟨other, one, isOther, isOne, le⟩

/-! ### Choices -/

/-- **A choice of one of two numbers**: the first one if it reaches the second, and else the second. -/
structure Chooses (choice : Float → Float → Float) (reaches : Float → Float → Prop) : Prop where
  first : ∀ {one other}, reaches one other → choice one other = one
  second : ∀ {one other}, ¬reaches one other → choice one other = other
  total : ∀ {one other}, IsNumber one → IsNumber other → reaches one other ∨ reaches other one
  trans : ∀ {one other third}, reaches one other → reaches other third → reaches one third
  antisymm : ∀ {one other}, reaches one other → reaches other one → (one == other) = true

theorem chooses_greater : Chooses greater fun one other => other ≤ one where
  first reaches := if_pos reaches
  second falls := if_neg falls
  total isOne isOther := by
    rw [← before_iff, ← before_iff]
    exact before_total isOther isOne
  trans reaches further := Binary64.le_trans further reaches
  antisymm reaches reached := Binary64.beq_of_le reached reaches

theorem chooses_less : Chooses less fun one other => one ≤ other where
  first reaches := if_pos reaches
  second falls := if_neg falls
  total isOne isOther := by
    rw [← before_iff, ← before_iff]
    exact before_total isOne isOther
  trans reaches further := Binary64.le_trans reaches further
  antisymm reaches reached := Binary64.beq_of_le reaches reached

namespace Chooses

variable {choice : Float → Float → Float} {reaches : Float → Float → Prop} {one other : Float}

theorem eq_or (chooses : Chooses choice reaches) (one other : Float) :
    choice one other = one ∨ choice one other = other := by
  by_cases reached : reaches one other
  · exact .inl (chooses.first reached)
  · exact .inr (chooses.second reached)

theorem refl (chooses : Chooses choice reaches) (isOne : IsNumber one) : reaches one one :=
  (chooses.total isOne isOne).elim id id

/-- What is chosen reaches both numbers. -/
theorem bounds (chooses : Chooses choice reaches) (isOne : IsNumber one)
    (isOther : IsNumber other) :
    reaches (choice one other) one ∧ reaches (choice one other) other := by
  by_cases reached : reaches one other
  · rw [chooses.first reached]
    exact ⟨chooses.refl isOne, reached⟩
  · rw [chooses.second reached]
    exact ⟨(chooses.total isOne isOther).resolve_left reached, chooses.refl isOther⟩

end Chooses

/-! ### Scans -/

/-- **A function that goes through its arguments with a choice**; it needs at least one of them. -/
structure Scans (builtin : Builtin) (choice : Float → Float → Float)
    (reaches : Float → Float → Prop) : Prop where
  chooses : Chooses choice reaches
  none : builtin.apply [] = .error (.invalidArguments builtin.name .noArguments)
  some : ∀ first rest, builtin.apply (first :: rest) = .ok (rest.foldl choice first)

theorem max_scans : Scans .max greater fun one other => other ≤ one :=
  ⟨chooses_greater, rfl, fun _ _ => rfl⟩

theorem min_scans : Scans .min less fun one other => one ≤ other :=
  ⟨chooses_less, rfl, fun _ _ => rfl⟩

/-- **A scan of numbers** gives one of its arguments, and it reaches them all. -/
theorem Scans.extreme_of_apply {builtin : Builtin} {choice : Float → Float → Float}
    {reaches : Float → Float → Prop} (scans : Scans builtin choice reaches) {values : List Float}
    {extreme : Float} (numbers : ∀ value ∈ values, IsNumber value)
    (applied : builtin.apply values = .ok extreme) :
    extreme ∈ values ∧ ∀ value ∈ values, reaches extreme value := by
  cases values with
  | nil =>
    rw [scans.none] at applied
    cases applied
  | cons first rest =>
    rw [scans.some] at applied
    cases applied
    exact @foldl_choice _ choice (fun value bound => reaches bound value) IsNumber
      scans.chooses.eq_or (fun _ _ => scans.chooses.bounds) (fun _ => scans.chooses.refl)
      (fun _ _ _ reached further => scans.chooses.trans further reached) rest first numbers

/-! ### Infinities among the arguments -/

theorem Before.infinite {first second : Float} (before : Before first second)
    (isInfinite : decompose first = .infinite false) : decompose second = .infinite false := by
  obtain ⟨one, other, isFirst, isSecond, le⟩ := before
  unfold position? at isFirst
  rw [isInfinite] at isFirst
  cases isFirst
  exact (Binary64.infinite_of_position isSecond).1 le

theorem Before.infinite_below {first second : Float} (before : Before first second)
    (isInfinite : decompose second = .infinite true) : decompose first = .infinite true := by
  obtain ⟨one, other, isFirst, isSecond, le⟩ := before
  unfold position? at isSecond
  rw [isInfinite] at isSecond
  cases isSecond
  exact (Binary64.infinite_of_position isFirst).2 le

/-- The function that prefers one end of the line, and the sign of that end. -/
inductive Extreme : Builtin → Bool → Prop where
  | max : Extreme .max false
  | min : Extreme .min true

/-- **An extreme of numbers** is one of them, and the preferred infinity among them is the extreme;
the other infinity is it only when there is nothing else. -/
theorem Extreme.apply {builtin : Builtin} {toward : Bool} (isExtreme : Extreme builtin toward)
    {values : List Float} {extreme : Float} (numbers : ∀ value ∈ values, IsNumber value)
    (applied : builtin.apply values = .ok extreme) :
    extreme ∈ values ∧
      (∀ value ∈ values, decompose value = .infinite toward →
        decompose extreme = .infinite toward) ∧
      (decompose extreme = .infinite (!toward) →
        ∀ value ∈ values, decompose value = .infinite (!toward)) := by
  cases isExtreme with
  | max =>
    obtain ⟨member, bounds⟩ := max_scans.extreme_of_apply numbers applied
    refine ⟨member, ?_, ?_⟩
    · intro value inside isInfinite
      exact (before_iff.2 (bounds value inside)).infinite isInfinite
    · intro isInfinite value inside
      exact (before_iff.2 (bounds value inside)).infinite_below isInfinite
  | min =>
    obtain ⟨member, bounds⟩ := min_scans.extreme_of_apply numbers applied
    refine ⟨member, ?_, ?_⟩
    · intro value inside isInfinite
      exact (before_iff.2 (bounds value inside)).infinite_below isInfinite
    · intro isInfinite value inside
      exact (before_iff.2 (bounds value inside)).infinite isInfinite

theorem Extreme.ofName {builtin : Builtin} {toward : Bool} (isExtreme : Extreme builtin toward) :
    ofName? builtin.name = some builtin := by
  cases isExtreme with
  | max => rfl
  | min => rfl

theorem Extreme.apply_ok {builtin : Builtin} {toward : Bool} (isExtreme : Extreme builtin toward)
    {values : List Float} (some : values ≠ []) : ∃ extreme, builtin.apply values = .ok extreme := by
  cases values with
  | nil => exact absurd rfl some
  | cons first rest =>
    cases isExtreme with
    | max => exact ⟨_, rfl⟩
    | min => exact ⟨_, rfl⟩

end ColumnCalc.Builtin
