/-
**Laws of extremes.**

Numbers are totally ordered by what a choice of one of them goes by, up to zeros of either sign, so
choosing is associative on them (`Chooses.assoc`). A list that is gone through in two parts comes to a
choice between the extremes of the parts (`Chooses.foldl_joined`), and lists of the same numbers have
extremes that reach each other and so compare equal. All of this holds of any scan
(`Scans.picksExtremes`), and `MAX` and `MIN` are scans (`extremes_picked`).
-/

import ColumnCalc.Proofs.Formula.Extremes

namespace ColumnCalc.Builtin

namespace Chooses

variable {choice : Float → Float → Float} {reaches : Float → Float → Prop}
  {one other third : Float}

theorem isNumber (chooses : Chooses choice reaches) (isOne : IsNumber one)
    (isOther : IsNumber other) : IsNumber (choice one other) := by
  rcases chooses.eq_or one other with same | same
  · rwa [same]
  · rwa [same]

/-- **Choosing is associative** on numbers. -/
theorem assoc (chooses : Chooses choice reaches) (isOne : IsNumber one) (isOther : IsNumber other) :
    choice (choice one other) third = choice one (choice other third) := by
  by_cases reached : reaches one other
  · rw [chooses.first reached]
    by_cases further : reaches other third
    · rw [chooses.first further, chooses.first reached, chooses.first (chooses.trans reached further)]
    · rw [chooses.second further]
  · rw [chooses.second reached]
    by_cases further : reaches other third
    · rw [chooses.first further, chooses.second reached]
    · -- The first number is reached by the second one, so it reaches no more than that one does.
      have back := (chooses.total isOne isOther).resolve_left reached
      rw [chooses.second further,
        chooses.second fun reachesThird => further (chooses.trans back reachesThird)]

/-- **A list in two parts**: going on from a choice is to choose between the two that are come to. -/
theorem foldl_joined (chooses : Chooses choice reaches) (isOne : IsNumber one) {rest : List Float}
    {start : Float} (numbers : ∀ value ∈ start :: rest, IsNumber value) :
    rest.foldl choice (choice one start) = choice one (rest.foldl choice start) := by
  induction rest generalizing start with
  | nil => rfl
  | cons next rest ih =>
    obtain ⟨isStart, others⟩ := List.forall_mem_cons.1 numbers
    obtain ⟨isNext, further⟩ := List.forall_mem_cons.1 others
    rw [List.foldl_cons, List.foldl_cons, chooses.assoc isOne isStart]
    exact ih (List.forall_mem_cons.2 ⟨chooses.isNumber isStart isNext, further⟩)

end Chooses

/-- **A function picks extremes** of numbers: one of them that reaches all of them, one that compares
equal in whatever order they stand, and of a list in two parts that of the extremes of the parts. It
fails on the empty list, and only there. -/
structure PicksExtremes (builtin : Builtin) (reaches : Float → Float → Prop) : Prop where
  extreme : ∀ values : List Float, values ≠ [] → (∀ value ∈ values, value.isNaN = false) →
    ∃ extreme, builtin.apply values = .ok extreme ∧ extreme ∈ values ∧
      ∀ value ∈ values, reaches extreme value
  permuted : ∀ values others : List Float, values ≠ [] →
    (∀ value ∈ values, value.isNaN = false) → values.Perm others →
    ∃ one other, builtin.apply values = .ok one ∧ builtin.apply others = .ok other ∧
      (one == other) = true
  joined : ∀ first second : List Float, first ≠ [] → second ≠ [] →
    (∀ value ∈ first ++ second, value.isNaN = false) →
    ∃ one other extreme, builtin.apply first = .ok one ∧ builtin.apply second = .ok other ∧
      builtin.apply (first ++ second) = .ok extreme ∧ builtin.apply [one, other] = .ok extreme
  fails : ∀ values error, builtin.apply values = .error error ↔
    values = [] ∧ error = .invalidArguments builtin.name .noArguments

namespace Scans

variable {builtin : Builtin} {choice : Float → Float → Float} {reaches : Float → Float → Prop}

/-- A scan of numbers comes to one of them that reaches all of them. -/
theorem exists_extreme (scans : Scans builtin choice reaches) {values : List Float}
    (nonempty : values ≠ []) (numbers : ∀ value ∈ values, IsNumber value) :
    ∃ extreme, builtin.apply values = .ok extreme ∧ extreme ∈ values ∧
      ∀ value ∈ values, reaches extreme value := by
  obtain ⟨first, rest, rfl⟩ := List.exists_cons_of_ne_nil nonempty
  exact ⟨_, scans.some first rest, scans.extreme_of_apply numbers (scans.some first rest)⟩

/-- Lists of the same numbers have extremes that compare equal. -/
theorem exists_equal (scans : Scans builtin choice reaches) {values others : List Float}
    (nonempty : values ≠ []) (numbers : ∀ value ∈ values, IsNumber value)
    (same : ∀ value, value ∈ values ↔ value ∈ others) :
    ∃ one other, builtin.apply values = .ok one ∧ builtin.apply others = .ok other ∧
      (one == other) = true := by
  obtain ⟨one, isOne, member, bounds⟩ := scans.exists_extreme nonempty numbers
  obtain ⟨other, isOther, alsoMember, alsoBounds⟩ := scans.exists_extreme
    (List.ne_nil_of_mem ((same one).1 member)) fun value inside => numbers value ((same value).2 inside)
  exact ⟨one, other, isOne, isOther, scans.chooses.antisymm (bounds other ((same other).2 alsoMember))
    (alsoBounds one ((same one).1 member))⟩

/-- A scan of a list in two parts is a scan of the extremes of the parts. -/
theorem exists_joined (scans : Scans builtin choice reaches) {first second : List Float}
    (someFirst : first ≠ []) (someSecond : second ≠ [])
    (numbers : ∀ value ∈ first ++ second, IsNumber value) :
    ∃ one other extreme, builtin.apply first = .ok one ∧ builtin.apply second = .ok other ∧
      builtin.apply (first ++ second) = .ok extreme ∧ builtin.apply [one, other] = .ok extreme := by
  rw [List.forall_mem_append] at numbers
  obtain ⟨one, isOne, member, -⟩ := scans.exists_extreme someFirst numbers.1
  obtain ⟨start, rest, rfl⟩ := List.exists_cons_of_ne_nil someFirst
  obtain ⟨next, further, rfl⟩ := List.exists_cons_of_ne_nil someSecond
  rw [scans.some] at isOne
  cases isOne
  refine ⟨_, _, _, scans.some start rest, scans.some next further, ?_, scans.some _ _⟩
  rw [List.cons_append, scans.some, List.foldl_append, List.foldl_cons,
    scans.chooses.foldl_joined (numbers.1 _ member) numbers.2]
  rfl

/-- **All laws of extremes hold of a scan.** -/
theorem picksExtremes (scans : Scans builtin choice reaches) : PicksExtremes builtin reaches where
  extreme _ nonempty numbers :=
    scans.exists_extreme nonempty fun value member => isNumber_iff.2 (numbers value member)
  permuted _ _ nonempty numbers permuted :=
    scans.exists_equal nonempty (fun value member => isNumber_iff.2 (numbers value member))
      fun _ => permuted.mem_iff
  joined _ _ someFirst someSecond numbers :=
    scans.exists_joined someFirst someSecond fun value member =>
      isNumber_iff.2 (numbers value member)
  fails values error := by
    cases values with
    | nil =>
      rw [scans.none, Except.error.injEq, eq_comm, and_iff_right rfl]
    | cons first rest =>
      rw [scans.some]
      exact iff_of_false nofun fun ⟨isEmpty, _⟩ => List.cons_ne_nil _ _ isEmpty

end Scans

/-- **`MAX` and `MIN` pick true extremes.** Of numbers, whatever infinities and zeros of either sign are
among them, `MAX` gives one that none is greater than, and `MIN` one that none is less than. In any
order of the numbers the answers compare equal. The answer for two lists together is the one for the
two answers. Only the empty list has no answer, and then the arguments are at fault. -/
theorem extremes_picked :
    PicksExtremes .max (fun greatest value => value ≤ greatest) ∧
    PicksExtremes .min (fun least value => least ≤ value) :=
  ⟨max_scans.picksExtremes, min_scans.picksExtremes⟩

/-- Zeros of either sign and an infinity, in two orders and in two parts, and no numbers at all. -/
theorem extremes_picked_zeros :
    let values : List Float := [0.0, -0.0, -1.0 / 0.0]
    (∀ value ∈ values, value.isNaN = false) ∧
    (∃ greatest, Builtin.max.apply values = .ok greatest ∧ greatest ∈ values ∧
      ∀ value ∈ values, value ≤ greatest) ∧
    (∃ one other, Builtin.max.apply values = .ok one ∧
      Builtin.max.apply values.reverse = .ok other ∧ (one == other) = true) ∧
    (∃ one other extreme, Builtin.min.apply [0.0] = .ok one ∧
      Builtin.min.apply [-0.0, -1.0 / 0.0] = .ok other ∧ Builtin.min.apply values = .ok extreme ∧
      Builtin.min.apply [one, other] = .ok extreme) ∧
    Builtin.min.apply [] = .error (.invalidArguments "MIN" .noArguments) := by
  intro values
  have numbers : ∀ value ∈ values, value.isNaN = false := by
    simp only [values, List.forall_mem_cons]
    decide +kernel
  obtain ⟨isMax, isMin⟩ := extremes_picked
  exact ⟨numbers, isMax.extreme values (by simp [values]) numbers,
    isMax.permuted values _ (by simp [values]) numbers (List.reverse_perm values).symm,
    isMin.joined [0.0] _ (by simp) (by simp) numbers, (isMin.fails [] _).2 ⟨rfl, rfl⟩⟩

end ColumnCalc.Builtin
