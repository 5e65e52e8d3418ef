/-
**Where a formula's value is not finite.**

Every operator checks that its result is finite, but the permitted functions do not. Rounding to tens,
hundreds and so on can overflow: the quotient is rounded up and multiplied again, and nothing looks at
the product. `Unbounded` follows such an overflow through signs, further roundings and extremes up to the
value of the whole tree, and it is exact:

* `evaluate_classified` — on finite numbers a value is finite or an infinity, never what is not a
  number, and an infinity has such an origin.
* `evaluate_of_unbounded` — where there is such an origin the value is that infinity.
* `evaluate_unbounded_iff` — both, for accepted formulas.
-/

import ColumnCalc.Proofs.Formula.Extremes
import ColumnCalc.Proofs.Formula.Rounding
import ColumnCalc.Proofs.Formula.Sandbox

namespace ColumnCalc

open Binary64 (decompose ofRank infinityRank isFinite_iff isFinite_of_decompose
  not_isFinite_of_infinite eq_ofRank_infinity decompose_neg position? isWhole truncate)
open Builtin (RoundOverflows Extreme IsNumber rounded decompose_rounded rounded_of_infinite
  applyRound_ok applyRound_pair applyRound_single not_roundOverflows_zero)

/-! ### Origins of an infinity -/

/-- **The value of a tree is an infinity** of a sign: rounding overflows in it, and what stands around
it keeps the infinity. -/
inductive Unbounded (context : Context) : Expr → Bool → Prop where
  -- the origin
  | overflow {span : Span} {value places : Expr} {number count : Float} {negative : Bool}
      {rank : Nat} :
      value.evaluate context = .ok number → decompose number = .finite negative rank →
      places.evaluate context = .ok count → isWhole count = true →
      RoundOverflows number (truncate count) →
      Unbounded context (.call "ROUND" span [value, places]) negative
  -- what keeps it
  | plus {operand : Expr} {negative : Bool} :
      Unbounded context operand negative → Unbounded context (.unary .plus operand) negative
  | neg {operand : Expr} {negative : Bool} :
      Unbounded context operand negative → Unbounded context (.unary .neg operand) !negative
  | round {span : Span} {value : Expr} {negative : Bool} :
      Unbounded context value negative → Unbounded context (.call "ROUND" span [value]) negative
  | roundTo {span : Span} {value places : Expr} {count : Float} {negative : Bool} :
      Unbounded context value negative → places.evaluate context = .ok count →
      isWhole count = true → Unbounded context (.call "ROUND" span [value, places]) negative
  | extreme {builtin : Builtin} {toward : Bool} {span : Span} {arguments : List Expr}
      {argument : Expr} {values : List Float} :
      Extreme builtin toward → arguments.map (Expr.evaluate context) = values.map .ok →
      argument ∈ arguments → Unbounded context argument toward →
      Unbounded context (.call builtin.name span arguments) toward
  | only {builtin : Builtin} {toward : Bool} {span : Span} {arguments : List Expr} :
      Extreme builtin toward → arguments ≠ [] →
      (∀ argument ∈ arguments, Unbounded context argument !toward) →
      Unbounded context (.call builtin.name span arguments) !toward

/-- All literals of a tree are finite. -/
def Expr.FiniteLiterals (tree : Expr) : Prop :=
  ∀ value, .literal value ∈ tree.subtrees → value.isFinite = true

theorem Expr.FiniteLiterals.operand {op : UnaryOp} {operand : Expr}
    (finite : (Expr.unary op operand).FiniteLiterals) : operand.FiniteLiterals :=
  fun value inside => finite value (.tail _ inside)

theorem Expr.FiniteLiterals.argument {function : String} {span : Span} {arguments : List Expr}
    {argument : Expr} (finite : (Expr.call function span arguments).FiniteLiterals)
    (isArgument : argument ∈ arguments) : argument.FiniteLiterals :=
  fun value inside =>
    finite value (.tail _ (Expr.mem_subtreesOfAll.2 ⟨argument, isArgument, inside⟩))

section

variable {context : Context}

/-! ### From the value to its origin -/

/-- What a value on finite numbers can be: finite, or an infinity with its origin. -/
def Classified (context : Context) (tree : Expr) (value : Float) : Prop :=
  value.isFinite = true ∨
    ∃ negative, decompose value = .infinite negative ∧ Unbounded context tree negative

theorem Classified.isNumber {tree : Expr} {value : Float}
    (classified : Classified context tree value) : IsNumber value := by
  unfold IsNumber position?
  rcases classified with isFinite | ⟨negative, isInfinite, _⟩
  · obtain ⟨negative, rank, isValue⟩ := (isFinite_iff value).1 isFinite
    rw [isValue]
    rfl
  · rw [isInfinite]
    rfl

theorem Classified.origin {tree : Expr} {value : Float} {negative : Bool}
    (classified : Classified context tree value) (isInfinite : decompose value = .infinite negative) :
    Unbounded context tree negative := by
  rcases classified with isFinite | ⟨sign, same, origin⟩
  · exact absurd isFinite (not_isFinite_of_infinite isInfinite)
  · rw [isInfinite] at same
    cases same
    exact origin

theorem unary_classified {op : UnaryOp} {operand : Expr} {value : Float}
    (classified : Classified context operand value) :
    Classified context (.unary op operand) (op.apply value) := by
  cases op with
  | plus =>
    rcases classified with isFinite | ⟨negative, isInfinite, origin⟩
    · exact .inl isFinite
    · exact .inr ⟨negative, isInfinite, .plus origin⟩
  | neg =>
    show Classified context (.unary .neg operand) (-value)
    have flipped := decompose_neg value
    rcases classified with isFinite | ⟨negative, isInfinite, origin⟩
    · obtain ⟨negative, rank, isValue⟩ := (isFinite_iff value).1 isFinite
      rw [isValue] at flipped
      exact .inl (isFinite_of_decompose flipped)
    · rw [isInfinite] at flipped
      exact .inr ⟨!negative, flipped, .neg origin⟩

theorem binary_finite {op : BinaryOp} {left right value : Float}
    (applied : op.apply left right = .ok value) : value.isFinite = true := by
  unfold BinaryOp.apply at applied
  split at applied
  · split at applied
    · rename_i isFinite
      cases applied
      exact isFinite
    · cases applied
  · cases applied

/-- Rounding a classified number. -/
theorem rounded_classified {tree whole : Expr} {number places : Float}
    (classified : Classified context tree number)
    (overflow : ∀ negative rank, decompose number = .finite negative rank →
      RoundOverflows number (truncate places) → Unbounded context whole negative)
    (keeps : ∀ negative, Unbounded context tree negative → Unbounded context whole negative) :
    Classified context whole (rounded number places) := by
  rcases classified with isFinite | ⟨negative, isInfinite, origin⟩
  · obtain ⟨negative, rank, isNumber⟩ := (isFinite_iff number).1 isFinite
    obtain ⟨infinite, finite⟩ := @decompose_rounded number places negative rank isNumber
    by_cases overflows : RoundOverflows number (truncate places)
    · exact .inr ⟨negative, infinite overflows, overflow negative rank isNumber overflows⟩
    · exact .inl (finite overflows)
  · rw [rounded_of_infinite isInfinite]
    exact .inr ⟨negative, isInfinite, keeps negative origin⟩

theorem round_classified {span : Span} {arguments : List Expr} {values : List Float}
    {value : Float} (are : arguments.map (Expr.evaluate context) = values.map .ok)
    (classified : ∀ argument ∈ arguments, ∀ value, argument.evaluate context = .ok value →
      Classified context argument value)
    (applied : Builtin.applyRound values = .ok value) :
    Classified context (.call "ROUND" span arguments) value := by
  rcases applyRound_ok applied with ⟨number, rfl, rfl⟩ | ⟨number, places, rfl, areWhole, rfl⟩
  · obtain ⟨argument, rfl, isNumber⟩ := List.map_eq_singleton_iff.1 are
    refine rounded_classified (classified argument (.head _) number isNumber)
      (fun negative rank _ overflows => ?_) (fun negative => .round)
    exact absurd overflows (not_roundOverflows_zero number)
  · obtain ⟨argument, rest, rfl, isNumber, areRest⟩ := List.map_eq_cons_iff.1 are
    obtain ⟨other, rfl, arePlaces⟩ := List.map_eq_singleton_iff.1 areRest
    refine rounded_classified (classified argument (.head _) number isNumber)
      (fun negative rank isFinite overflows => ?_) (fun negative origin => ?_)
    · exact .overflow isNumber isFinite arePlaces areWhole overflows
    · exact .roundTo origin arePlaces areWhole

theorem extreme_classified {builtin : Builtin} {toward : Bool}
    (isExtreme : Extreme builtin toward) {span : Span} {arguments : List Expr}
    {values : List Float} {value : Float}
    (are : arguments.map (Expr.evaluate context) = values.map .ok)
    (classified : ∀ argument ∈ arguments, ∀ value, argument.evaluate context = .ok value →
      Classified context argument value)
    (applied : builtin.apply values = .ok value) :
    Classified context (.call builtin.name span arguments) value := by
  have numbers : ∀ inner ∈ values, IsNumber inner := by
    intro inner member
    obtain ⟨argument, isArgument, isInner⟩ := Expr.argument_of_value are member
    exact (classified argument isArgument inner isInner).isNumber
  obtain ⟨member, _, onlyOther⟩ := isExtreme.apply numbers applied
  obtain ⟨argument, isArgument, isValue⟩ := Expr.argument_of_value are member
  rcases classified argument isArgument value isValue with isFinite | ⟨negative, isInfinite, origin⟩
  · exact .inl isFinite
  · refine .inr ⟨negative, isInfinite, ?_⟩
    by_cases same : negative = toward
    · subst same
      exact .extreme isExtreme are isArgument origin
    · have other : negative = !toward := Bool.eq_not.2 same
      subst other
      refine .only isExtreme (List.ne_nil_of_mem isArgument) fun each isEach => ?_
      obtain ⟨inner, inside, isInner⟩ := Expr.value_of_argument are isEach
      exact (classified each isEach inner isInner).origin (onlyOther isInfinite inner inside)

variable (bounded : ∀ name value, context.get? name = some value → value.isFinite = true)

include bounded

/-- **On finite numbers a value is finite, or an infinity with an origin.** -/
theorem evaluate_classified {tree : Expr} (finite : tree.FiniteLiterals) {value : Float}
    (evaluated : tree.evaluate context = .ok value) : Classified context tree value := by
  induction tree using Expr.induct generalizing value with
  | literal number =>
    cases evaluated
    exact .inl (finite _ (.head _))
  | name text span => exact .inl (bounded text value (Expr.evaluate_name_ok.1 evaluated))
  | unary op operand ih =>
    obtain ⟨inner, isInner, applied⟩ := Expr.evaluate_unary_ok.1 evaluated
    subst applied
    exact unary_classified (ih finite.operand isInner)
  | binary op lhs rhs _ _ =>
    obtain ⟨left, right, _, _, applied⟩ := Expr.evaluate_binary_ok.1 evaluated
    exact .inl (binary_finite applied)
  | call function span arguments ih =>
    obtain ⟨values, builtin, are, isNamed, applied⟩ := Expr.evaluate_call_ok.1 evaluated
    have classified : ∀ argument ∈ arguments, ∀ value, argument.evaluate context = .ok value →
        Classified context argument value :=
      fun argument isArgument _ => ih argument isArgument (finite.argument isArgument)
    have same := name_of_ofName isNamed
    subst same
    cases builtin with
    | round => exact round_classified are classified applied
    | max => exact extreme_classified .max are classified applied
    | min => exact extreme_classified .min are classified applied

/-! ### From an origin to the value -/

/-- An infinity among the arguments of an extreme that prefers it. -/
theorem evaluate_extreme {builtin : Builtin} {toward : Bool} (isExtreme : Extreme builtin toward)
    {span : Span} {arguments : List Expr} {values : List Float}
    (finite : (Expr.call builtin.name span arguments).FiniteLiterals)
    (are : arguments.map (Expr.evaluate context) = values.map .ok) {argument : Expr}
    (isArgument : argument ∈ arguments) {value : Float}
    (isValue : argument.evaluate context = .ok value)
    (isInfinite : decompose value = .infinite toward) :
    ∃ result, (Expr.call builtin.name span arguments).evaluate context = .ok result ∧
      decompose result = .infinite toward := by
  obtain ⟨same, member, isSame⟩ := Expr.value_of_argument are isArgument
  rw [isValue] at isSame
  cases isSame
  have numbers : ∀ inner ∈ values, IsNumber inner := by
    intro inner isMember
    obtain ⟨other, isOther, isInner⟩ := Expr.argument_of_value are isMember
    exact (evaluate_classified bounded (finite.argument isOther) isInner).isNumber
  obtain ⟨result, applied⟩ := isExtreme.apply_ok (List.ne_nil_of_mem member)
  refine ⟨result, Expr.evaluate_call_ok.2 ⟨values, builtin, are, isExtreme.ofName, applied⟩, ?_⟩
  exact (isExtreme.apply numbers applied).2.1 value member isInfinite

omit bounded in
/-- Arguments that all are the same infinity. -/
theorem evaluate_extreme_alike {builtin : Builtin} {toward : Bool}
    (isExtreme : Extreme builtin toward) {span : Span} {arguments : List Expr} {negative : Bool}
    (notEmpty : arguments ≠ [])
    (alike : ∀ argument ∈ arguments, ∃ value, argument.evaluate context = .ok value ∧
      decompose value = .infinite negative) :
    ∃ result, (Expr.call builtin.name span arguments).evaluate context = .ok result ∧
      decompose result = .infinite negative := by
  have infinity := Binary64.decompose_ofRank_infinity negative
  have are : arguments.map (Expr.evaluate context)
      = (List.replicate arguments.length (ofRank negative infinityRank)).map .ok := by
    rw [List.map_replicate, List.eq_replicate_iff, List.length_map]
    refine ⟨rfl, fun outcome isOutcome => ?_⟩
    obtain ⟨argument, isArgument, same⟩ := List.mem_map.1 isOutcome
    obtain ⟨value, isValue, isInfinite⟩ := alike argument isArgument
    rw [← same, isValue, eq_ofRank_infinity isInfinite]
  have numbers : ∀ inner ∈ List.replicate arguments.length (ofRank negative infinityRank),
      IsNumber inner := by
    intro inner isMember
    unfold IsNumber position?
    rw [List.eq_of_mem_replicate isMember, infinity]
    rfl
  have some : List.replicate arguments.length (ofRank negative infinityRank) ≠ [] := by
    intro empty
    exact notEmpty (List.length_eq_zero_iff.1 (List.replicate_eq_nil_iff _ |>.1 empty))
  obtain ⟨result, applied⟩ := isExtreme.apply_ok some
  refine ⟨result, Expr.evaluate_call_ok.2 ⟨_, builtin, are, isExtreme.ofName, applied⟩, ?_⟩
  rw [List.eq_of_mem_replicate (isExtreme.apply numbers applied).1]
  exact infinity

omit bounded in
theorem evaluate_round {argument : Expr} {number : Float} (span : Span)
    (isNumber : argument.evaluate context = .ok number) :
    (Expr.call "ROUND" span [argument]).evaluate context = .ok (rounded number 0) := by
  have applied : Builtin.applyRound [number] = .ok (rounded number 0) := applyRound_single.2 rfl
  refine Expr.evaluate_call_ok.2 ⟨[number], .round, ?_, rfl, applied⟩
  rw [List.map_cons, isNumber]
  rfl

omit bounded in
theorem evaluate_roundTo {argument places : Expr} {number count : Float} (span : Span)
    (isNumber : argument.evaluate context = .ok number)
    (arePlaces : places.evaluate context = .ok count) (areWhole : isWhole count = true) :
    (Expr.call "ROUND" span [argument, places]).evaluate context = .ok (rounded number count) := by
  refine Expr.evaluate_call_ok.2
    ⟨[number, count], .round, ?_, rfl, applyRound_pair.2 ⟨areWhole, rfl⟩⟩
  rw [List.map_cons, List.map_cons, isNumber, arePlaces]
  rfl

/-- **Where there is an origin the value is that infinity.** -/
theorem evaluate_of_unbounded {tree : Expr} {negative : Bool}
    (unbounded : Unbounded context tree negative) (finite : tree.FiniteLiterals) :
    ∃ value, tree.evaluate context = .ok value ∧ decompose value = .infinite negative := by
  induction unbounded with
  | overflow isNumber isFinite arePlaces areWhole overflows =>
    exact ⟨_, evaluate_roundTo _ isNumber arePlaces areWhole,
      (decompose_rounded isFinite).1 overflows⟩
  | plus _ ih =>
    obtain ⟨value, isValue, isInfinite⟩ := ih finite.operand
    exact ⟨value, Expr.evaluate_unary_ok.2 ⟨value, isValue, rfl⟩, isInfinite⟩
  | neg _ ih =>
    obtain ⟨value, isValue, isInfinite⟩ := ih finite.operand
    refine ⟨-value, Expr.evaluate_unary_ok.2 ⟨value, isValue, rfl⟩, ?_⟩
    rw [decompose_neg, isInfinite]
    rfl
  | round _ ih =>
    obtain ⟨value, isValue, isInfinite⟩ := ih (finite.argument (.head _))
    refine ⟨_, evaluate_round _ isValue, ?_⟩
    rw [rounded_of_infinite isInfinite]
    exact isInfinite
  | roundTo _ arePlaces areWhole ih =>
    obtain ⟨value, isValue, isInfinite⟩ := ih (finite.argument (.head _))
    refine ⟨_, evaluate_roundTo _ isValue arePlaces areWhole, ?_⟩
    rw [rounded_of_infinite isInfinite]
    exact isInfinite
  | extreme isExtreme are isArgument _ ih =>
    obtain ⟨value, isValue, isInfinite⟩ := ih (finite.argument isArgument)
    exact evaluate_extreme bounded isExtreme finite are isArgument isValue isInfinite
  | only isExtreme notEmpty _ ih =>
    exact evaluate_extreme_alike isExtreme notEmpty fun argument isArgument =>
      ih argument isArgument (finite.argument isArgument)

end

/-- **Where an accepted formula's value is not finite.** On finite numbers it is so exactly when rounding
overflows in the formula and what stands around it keeps the infinity; the value is then that infinity
and never what is not a number. -/
theorem evaluate_unbounded_iff {text : String} {limits : Limits} {formula : Formula}
    (accepted : Formula.accept text limits = .ok formula) {context : Context}
    (bounded : ∀ name value, context.get? name = some value → value.isFinite = true)
    (value : Float) :
    (formula.evaluate context = .ok value ∧ ¬ value.isFinite = true) ↔
      ∃ negative, value = ofRank negative infinityRank ∧
        Unbounded context formula.tree negative := by
  have finite : formula.tree.FiniteLiterals :=
    fun number member => (literal_of_accept accepted member).1
  constructor
  · rintro ⟨evaluated, notFinite⟩
    rcases evaluate_classified bounded finite evaluated with isFinite | ⟨negative, isInfinite, origin⟩
    · exact absurd isFinite notFinite
    · exact ⟨negative, eq_ofRank_infinity isInfinite, origin⟩
  · rintro ⟨negative, isValue, unbounded⟩
    obtain ⟨found, evaluated, isInfinite⟩ := evaluate_of_unbounded bounded unbounded finite
    rw [isValue, ← eq_ofRank_infinity isInfinite]
    exact ⟨evaluated, not_isFinite_of_infinite isInfinite⟩

/-- **A multiple past the range**: the greatest number, rounded to a multiple of 10³⁰⁸. -/
theorem evaluate_unbounded_rounding :
    ∃ formula, Formula.accept "ROUND(1.7976931348623157e308, -308)" = .ok formula ∧
      formula.evaluate .empty = .ok (ofRank false infinityRank) ∧
      Unbounded .empty formula.tree false := by
  have computed : ((Formula.accept "ROUND(1.7976931348623157e308, -308)").toOption.bind
      fun formula => (formula.evaluate .empty).toOption) = some (ofRank false infinityRank) := by
    decide +kernel
  have infinite := Binary64.decompose_ofRank_infinity false
  cases accepted : Formula.accept "ROUND(1.7976931348623157e308, -308)" with
  | error error =>
    rw [accepted] at computed
    cases computed
  | ok formula =>
    rw [accepted] at computed
    have evaluated : formula.evaluate .empty = .ok (ofRank false infinityRank) := by
      change (formula.evaluate .empty).toOption = _ at computed
      cases outcome : formula.evaluate .empty with
      | error error =>
        rw [outcome] at computed
        cases computed
      | ok value =>
        rw [outcome] at computed
        rw [Option.some.inj computed]
    have bounded : ∀ name (value : Float), Dictionary.empty.get? name = some value →
        value.isFinite = true := by
      intro name value bound
      rw [Dictionary.get?_empty] at bound
      cases bound
    obtain ⟨negative, same, unbounded⟩ := (evaluate_unbounded_iff accepted bounded _).1
      ⟨evaluated, not_isFinite_of_infinite infinite⟩
    have isSign := (congrArg decompose same).symm.trans infinite
    rw [Binary64.decompose_ofRank_infinity] at isSign
    cases isSign
    exact ⟨formula, rfl, evaluated, unbounded⟩

end ColumnCalc
