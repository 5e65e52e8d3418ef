/-
**How a tree comes to its value.**

What the evaluation of each kind of node can do, said once: a node has a value exactly when its operands
have values and the operation on them has one (`evaluate_unary_ok`, `evaluate_binary_ok`,
`evaluate_call_ok`), and it fails with the failure of an operand or of the operation
(`evaluate_unary_error`, `evaluate_binary_error`, `evaluate_call_error`). What an operation can fail
with is said by `BinaryOp.apply_error`, `Builtin.apply_error` and `callByName_error`.
-/

import ColumnCalc.Formula.Evaluation

namespace ColumnCalc

/-! ### Failures of operations -/

theorem BinaryOp.compute_error {op : BinaryOp} {left right : Float} {error : EvalError}
    (failed : op.compute left right = .error error) : error = .divisionByZero := by
  cases op with
  | add => cases failed
  | sub => cases failed
  | mul => cases failed
  | div =>
    unfold compute at failed
    simp only at failed
    split at failed <;> cases failed
    rfl
  | pow =>
    unfold compute at failed
    simp only at failed
    split at failed <;> cases failed
    rfl

/-- **An operator fails** by a division by zero or by a result that is not finite. -/
theorem BinaryOp.apply_error {op : BinaryOp} {left right : Float} {error : EvalError}
    (failed : op.apply left right = .error error) :
    error = .divisionByZero ∨ error = .overflow op := by
  unfold apply at failed
  split at failed
  · split at failed
    · cases failed
    · cases failed
      exact .inr rfl
  · rename_i computed
    cases failed
    exact .inl (compute_error computed)

/-- **A permitted function fails** by its arguments, and not because it were forbidden. -/
theorem Builtin.apply_error {builtin : Builtin} {values : List Float} {error : EvalError}
    (failed : builtin.apply values = .error error) :
    ∃ fault, error = .invalidArguments builtin.name fault ∧ fault ≠ .notPermitted := by
  cases builtin with
  | round =>
    unfold apply applyRound at failed
    simp only at failed
    split at failed
    · split at failed
      · cases failed
        exact ⟨_, rfl, nofun⟩
      · split at failed <;> cases failed
    · split at failed
      · cases failed
        exact ⟨_, rfl, nofun⟩
      · split at failed <;> cases failed
    · cases failed
      exact ⟨_, rfl, nofun⟩
  | max =>
    cases values <;> cases failed
    exact ⟨_, rfl, nofun⟩
  | min =>
    cases values <;> cases failed
    exact ⟨_, rfl, nofun⟩

/-- A call by name fails by its arguments, or because there is no such function. -/
theorem callByName_error {function : String} {values : List Float} {error : EvalError}
    (failed : callByName function values = .error error) :
    ∃ name fault, error = .invalidArguments name fault := by
  unfold callByName at failed
  split at failed
  · obtain ⟨fault, isFault, _⟩ := Builtin.apply_error failed
    exact ⟨_, fault, isFault⟩
  · cases failed
    exact ⟨function, .notPermitted, rfl⟩

namespace Expr

variable {context : Context}

/-! ### Arguments -/

/-- **Arguments have values together when each has one.** -/
theorem evaluateAll_ok {trees : List Expr} {values : List Float} :
    evaluateAll context trees = .ok values ↔ trees.map (evaluate context) = values.map .ok := by
  induction trees generalizing values with
  | nil =>
    rw [evaluateAll]
    cases values with
    | nil => simp
    | cons first rest => simp
  | cons first rest ih =>
    rw [evaluateAll, List.map_cons]
    cases evaluated : first.evaluate context with
    | error error =>
      cases values with
      | nil => simp [bind, Except.bind]
      | cons value values => simp [bind, Except.bind]
    | ok value =>
      cases others : evaluateAll context rest with
      | error error =>
        have noValues : ∀ values : List Float, rest.map (evaluate context) ≠ values.map .ok := by
          intro values same
          rw [← ih, others] at same
          cases same
        cases values with
        | nil => simp [bind, Except.bind]
        | cons one more => simp [bind, Except.bind, noValues]
      | ok found =>
        have same := ih.1 others
        cases values with
        | nil => simp [bind, Except.bind, pure, Except.pure]
        | cons one more =>
          have injective : found.map (Except.ok : Float → Outcome) = more.map .ok ↔ found = more :=
            List.map_inj_right fun _ _ equal => by cases equal; rfl
          simp [bind, Except.bind, pure, Except.pure, same, injective]

/-- **The failure of arguments** is that of one of them. -/
theorem evaluateAll_error {trees : List Expr} {error : EvalError}
    (failed : evaluateAll context trees = .error error) :
    ∃ tree ∈ trees, tree.evaluate context = .error error := by
  induction trees with
  | nil => cases failed
  | cons first rest ih =>
    rw [evaluateAll] at failed
    cases evaluated : first.evaluate context with
    | error other =>
      rw [evaluated] at failed
      cases failed
      exact ⟨first, .head _, evaluated⟩
    | ok value =>
      rw [evaluated] at failed
      cases others : evaluateAll context rest with
      | error other =>
        have same : (Except.error other : Except EvalError (List Float)) = .error error := by
          rw [others] at failed
          exact failed
        cases same
        obtain ⟨tree, member, isError⟩ := ih others
        exact ⟨tree, .tail _ member, isError⟩
      | ok values =>
        rw [others] at failed
        cases failed

/-- Every argument has one of the values. -/
theorem value_of_argument {arguments : List Expr} {values : List Float}
    (are : arguments.map (evaluate context) = values.map .ok) {argument : Expr}
    (member : argument ∈ arguments) : ∃ value ∈ values, argument.evaluate context = .ok value := by
  have isValue : argument.evaluate context ∈ values.map .ok := by
    rw [← are]
    exact List.mem_map_of_mem member
  obtain ⟨value, inside, same⟩ := List.mem_map.1 isValue
  exact ⟨value, inside, same.symm⟩

/-- Every value is that of one of the arguments. -/
theorem argument_of_value {arguments : List Expr} {values : List Float}
    (are : arguments.map (evaluate context) = values.map .ok) {value : Float}
    (member : value ∈ values) : ∃ argument ∈ arguments, argument.evaluate context = .ok value := by
  have isArgument : Except.ok value ∈ arguments.map (evaluate context) := by
    rw [are]
    exact List.mem_map_of_mem member
  exact List.mem_map.1 isArgument

/-! ### Nodes -/

theorem evaluate_name_ok {text : String} {span : Span} {value : Float} :
    (name text span).evaluate context = .ok value ↔ context.get? text = some value := by
  rw [evaluate]
  cases context.get? text with
  | none => simp
  | some bound => simp

theorem evaluate_unary_ok {op : UnaryOp} {operand : Expr} {value : Float} :
    (unary op operand).evaluate context = .ok value ↔
      ∃ inner, operand.evaluate context = .ok inner ∧ op.apply inner = value := by
  rw [evaluate]
  cases operand.evaluate context with
  | error error => simp [bind, Except.bind]
  | ok inner => simp [bind, Except.bind, pure, Except.pure]

theorem evaluate_unary_error {op : UnaryOp} {operand : Expr} {error : EvalError}
    (failed : (unary op operand).evaluate context = .error error) :
    operand.evaluate context = .error error := by
  rw [evaluate] at failed
  cases evaluated : operand.evaluate context with
  | error other =>
    rw [evaluated] at failed
    cases failed
    rfl
  | ok inner =>
    rw [evaluated] at failed
    cases failed

theorem evaluate_binary_ok {op : BinaryOp} {lhs rhs : Expr} {value : Float} :
    (binary op lhs rhs).evaluate context = .ok value ↔
      ∃ left right, lhs.evaluate context = .ok left ∧ rhs.evaluate context = .ok right ∧
        op.apply left right = .ok value := by
  rw [evaluate]
  cases lhs.evaluate context with
  | error error => simp [bind, Except.bind]
  | ok left =>
    cases rhs.evaluate context with
    | error error => simp [bind, Except.bind]
    | ok right => simp [bind, Except.bind]

theorem evaluate_binary_error {op : BinaryOp} {lhs rhs : Expr} {error : EvalError}
    (failed : (binary op lhs rhs).evaluate context = .error error) :
    lhs.evaluate context = .error error ∨ rhs.evaluate context = .error error ∨
      ∃ left right, op.apply left right = .error error := by
  rw [evaluate] at failed
  cases evaluatedLeft : lhs.evaluate context with
  | error other =>
    rw [evaluatedLeft] at failed
    cases failed
    exact .inl rfl
  | ok left =>
    cases evaluatedRight : rhs.evaluate context with
    | error other =>
      rw [evaluatedLeft, evaluatedRight] at failed
      cases failed
      exact .inr (.inl rfl)
    | ok right =>
      rw [evaluatedLeft, evaluatedRight] at failed
      exact .inr (.inr ⟨left, right, failed⟩)

theorem evaluate_call_ok {function : String} {span : Span} {arguments : List Expr}
    {value : Float} :
    (call function span arguments).evaluate context = .ok value ↔
      ∃ values builtin, arguments.map (evaluate context) = values.map .ok ∧
        Builtin.ofName? function = some builtin ∧ builtin.apply values = .ok value := by
  rw [evaluate]
  cases evaluated : evaluateAll context arguments with
  | error error =>
    have noValues : ∀ values : List Float, arguments.map (evaluate context) ≠ values.map .ok := by
      intro values same
      rw [← evaluateAll_ok, evaluated] at same
      cases same
    simp [bind, Except.bind, noValues]
  | ok found =>
    show callByName function found = .ok value ↔ _
    rw [callByName]
    constructor
    · intro called
      split at called
      · rename_i builtin isNamed
        exact ⟨found, builtin, evaluateAll_ok.1 evaluated, isNamed, called⟩
      · cases called
    · rintro ⟨values, builtin, are, isNamed, applied⟩
      rw [evaluateAll_ok.2 are] at evaluated
      cases evaluated
      rw [isNamed]
      exact applied

theorem evaluate_call_error {function : String} {span : Span} {arguments : List Expr}
    {error : EvalError} (failed : (call function span arguments).evaluate context = .error error) :
    (∃ argument ∈ arguments, argument.evaluate context = .error error) ∨
      ∃ values, callByName function values = .error error := by
  rw [evaluate] at failed
  cases evaluated : evaluateAll context arguments with
  | error other =>
    rw [evaluated] at failed
    cases failed
    exact .inl (evaluateAll_error evaluated)
  | ok values =>
    rw [evaluated] at failed
    exact .inr ⟨values, failed⟩

end Expr

end ColumnCalc
