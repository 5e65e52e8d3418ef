/-
**The sandbox is closed.**

Two gates keep formulas to three functions: `Expr.check` looks at a tree before any row is seen, and
`callByName` looks again when a call is evaluated. They agree at every depth, since evaluation is
strict: a tree has no value unless every call in it was made.

* `literal_of_derives` — the literals of a tree are the numbers of its tokens.
* `accept_ok` — what an accepted formula has passed.
* `permitted_of_evaluate` — a tree with a value calls permitted functions only.
* `evaluate_permitted` — a tree that passes the first gate is not stopped by the second.
* `sandbox_closed` — both gates together, for accepted formulas and for any tree.
-/

import ColumnCalc.Proofs.Formula.Evaluation
import ColumnCalc.Proofs.Formula.Literals
import ColumnCalc.Proofs.Formula.Sentences
import ColumnCalc.Proofs.Formula.Subtree

namespace ColumnCalc

open Grammar (Phrase Derives)

/-! ### Literals -/

/-- The subtrees of what a symbol stands for. -/
def Grammar.Phrase.subtrees : Phrase → List Expr
  | .expr tree => tree.subtrees
  | .term tree => tree.subtrees
  | .unary tree => tree.subtrees
  | .power tree => tree.subtrees
  | .primary tree => tree.subtrees
  | .arguments trees => Expr.subtreesOfAll trees

theorem literal_of_binary {op : BinaryOp} {lhs rhs : Expr} {value : Float}
    (member : .literal value ∈ (Expr.binary op lhs rhs).subtrees) :
    .literal value ∈ lhs.subtrees ∨ .literal value ∈ rhs.subtrees := by
  rcases List.mem_cons.1 member with same | inside
  · cases same
  · exact List.mem_append.1 inside

/-- A number on one side of a token is a number of all tokens. -/
theorem number_of_sides {left right : List Token} {value : Float} (between : Token)
    (sides : (∃ token ∈ left, token.kind = .number value) ∨
      ∃ token ∈ right, token.kind = .number value) :
    ∃ token ∈ left ++ between :: right, token.kind = .number value := by
  rcases sides with ⟨token, inside, isNumber⟩ | ⟨token, inside, isNumber⟩
  · exact ⟨token, List.mem_append_left _ inside, isNumber⟩
  · exact ⟨token, List.mem_append_right _ (.tail _ inside), isNumber⟩

/-- **The literals of a tree are the numbers of its tokens.** -/
theorem literal_of_derives {phrase : Phrase} {tokens : List Token}
    (derived : Derives phrase tokens) {value : Float} (member : .literal value ∈ phrase.subtrees) :
    ∃ token ∈ tokens, token.kind = .number value := by
  induction derived with
  | ofTerm _ ih => exact ih member
  | ofUnary _ ih => exact ih member
  | ofPower _ ih => exact ih member
  | ofPrimary _ ih => exact ih member
  | sum _ _ _ left right => exact number_of_sides _ ((literal_of_binary member).imp left right)
  | product _ _ _ left right => exact number_of_sides _ ((literal_of_binary member).imp left right)
  | power _ _ _ left right => exact number_of_sides _ ((literal_of_binary member).imp left right)
  | sign _ _ ih =>
    rcases List.mem_cons.1 member with same | inside
    · cases same
    · obtain ⟨token, isToken, isNumber⟩ := ih inside
      exact ⟨token, .tail _ isToken, isNumber⟩
  | number isNumber =>
    rcases List.mem_cons.1 member with same | inside
    · cases same
      exact ⟨_, .head _, isNumber⟩
    · cases inside
  | name _ =>
    rcases List.mem_cons.1 member with same | inside
    · cases same
    · cases inside
  | emptyCall _ _ _ =>
    rcases List.mem_cons.1 member with same | inside
    · cases same
    · cases inside
  | call _ _ _ _ ih =>
    rcases List.mem_cons.1 member with same | inside
    · cases same
    · obtain ⟨token, isToken, isNumber⟩ := ih inside
      exact ⟨token, .tail _ (.tail _ (List.mem_append_left _ isToken)), isNumber⟩
  | paren _ _ _ ih =>
    obtain ⟨token, isToken, isNumber⟩ := ih member
    exact ⟨token, .tail _ (List.mem_append_left _ isToken), isNumber⟩
  | last _ ih =>
    rcases List.mem_append.1 member with inside | inside
    · exact ih inside
    · cases inside
  | more _ _ _ first rest => exact number_of_sides _ ((List.mem_append.1 member).imp first rest)

/-! ### The gate before evaluation -/

theorem check_ok {limits : Limits} {tree : Expr} (passes : tree.check limits = .ok ()) :
    tree.nodeCount ≤ limits.maxNodes ∧ tree.forbiddenCall? = none := by
  unfold Expr.check at passes
  split at passes
  · cases passes
  · rename_i few
    split at passes
    · cases passes
    · rename_i isPermitted
      exact ⟨Nat.not_lt.1 few, isPermitted⟩

/-- **An accepted formula** is parsed and has passed the check. -/
theorem accept_ok {text : String} {limits : Limits} {formula : Formula}
    (accepted : Formula.accept text limits = .ok formula) :
    parse limits text = .ok formula.tree ∧ formula.tree.nodeCount ≤ limits.maxNodes ∧
      formula.tree.forbiddenCall? = none := by
  unfold Formula.accept at accepted
  cases parsed : parse limits text with
  | error error =>
    rw [parsed] at accepted
    cases accepted
  | ok tree =>
    rw [parsed] at accepted
    cases checked : tree.check limits with
    | error error =>
      have stopped : (tree.check limits >>= fun _ => pure { text, tree }) = .ok formula := accepted
      rw [checked] at stopped
      cases stopped
    | ok _ =>
      have passed : (tree.check limits >>= fun _ => pure { text, tree }) = .ok formula := accepted
      rw [checked] at passed
      cases passed
      exact ⟨rfl, check_ok checked⟩

/-- What a tree is refused for: its size, or a call. -/
theorem check_error {limits : Limits} {tree : Expr} {error : FormulaError}
    (refused : tree.check limits = .error error) :
    (∃ excess, error = .tooComplex excess) ∨
      ∃ name span, tree.forbiddenCall? = some (name, span) ∧
        error = .disallowedFunction name span := by
  unfold Expr.check at refused
  split at refused
  · cases refused
    exact .inl ⟨_, rfl⟩
  · split at refused
    · rename_i isForbidden
      cases refused
      exact .inr ⟨_, _, isForbidden, rfl⟩
    · cases refused

/-- **A formula that is not accepted** is not parsed, or its tree does not pass the check. -/
theorem accept_error {text : String} {limits : Limits} {error : FormulaError}
    (refused : Formula.accept text limits = .error error) :
    parse limits text = .error error ∨
      ∃ tree, parse limits text = .ok tree ∧ tree.check limits = .error error := by
  unfold Formula.accept at refused
  cases parsed : parse limits text with
  | error other =>
    rw [parsed] at refused
    cases refused
    exact .inl rfl
  | ok tree =>
    rw [parsed] at refused
    have stopped : (tree.check limits >>= fun _ => pure { text, tree })
        = (.error error : Except FormulaError Formula) := refused
    cases checked : tree.check limits with
    | error other =>
      rw [checked] at stopped
      cases stopped
      exact .inr ⟨tree, rfl, checked⟩
    | ok _ =>
      rw [checked] at stopped
      cases stopped

/-- **The literals of an accepted formula** are finite and not negative. -/
theorem literal_of_accept {text : String} {limits : Limits} {formula : Formula}
    (accepted : Formula.accept text limits = .ok formula) {value : Float}
    (member : .literal value ∈ formula.tree.subtrees) : value.isFinite = true ∧ 0 ≤ value := by
  obtain ⟨tokens, isTokens, derived⟩ := Parser.derives_of_parse (accept_ok accepted).1
  obtain ⟨token, inside, isNumber⟩ := literal_of_derives derived member
  have isItem : .ok token ∈ itemsOf text := by
    rw [isTokens]
    exact List.mem_map_of_mem inside
  exact number_of_itemsOf isItem isNumber

/-! ### The gate at dispatch -/

/-- A permitted function is found by its name. -/
theorem name_of_ofName {function : String} {builtin : Builtin}
    (found : Builtin.ofName? function = some builtin) : builtin.name = function := by
  have same := List.find?_some found
  rwa [beq_iff_eq] at same

theorem names_of_permitted {function : String}
    (isPermitted : (Builtin.ofName? function).isSome = true) :
    function = "ROUND" ∨ function = "MAX" ∨ function = "MIN" := by
  obtain ⟨builtin, found⟩ := Option.isSome_iff_exists.1 isPermitted
  have same := name_of_ofName found
  cases builtin with
  | round => exact .inl same.symm
  | max => exact .inr (.inl same.symm)
  | min => exact .inr (.inr same.symm)

/-- No permitted function reports that it is not permitted. -/
theorem apply_permitted (builtin : Builtin) (arguments : List Float) (function : String) :
    builtin.apply arguments ≠ .error (.invalidArguments function .notPermitted) := by
  intro refused
  obtain ⟨fault, same, isPermitted⟩ := Builtin.apply_error refused
  cases same
  exact isPermitted rfl

theorem binary_permitted (op : BinaryOp) (lhs rhs : Float) (function : String) :
    op.apply lhs rhs ≠ .error (.invalidArguments function .notPermitted) := by
  intro refused
  rcases BinaryOp.apply_error refused with same | same <;> cases same

/-- **A tree that passes the first gate is not stopped by the second.** -/
theorem evaluate_permitted {tree : Expr} (isPermitted : tree.forbiddenCall? = none)
    (context : Context) (function : String) :
    tree.evaluate context ≠ .error (.invalidArguments function .notPermitted) := by
  induction tree using Expr.induct with
  | literal value =>
    intro refused
    cases refused
  | name text span =>
    intro refused
    rw [Expr.evaluate] at refused
    split at refused <;> cases refused
  | unary op operand ih =>
    intro refused
    exact ih isPermitted (Expr.evaluate_unary_error refused)
  | binary op lhs rhs left right =>
    intro refused
    have sides := Option.or_eq_none_iff.1 isPermitted
    rcases Expr.evaluate_binary_error refused with inLeft | inRight | ⟨_, _, applied⟩
    · exact left sides.1 inLeft
    · exact right sides.2 inRight
    · exact binary_permitted op _ _ function applied
  | call name span arguments ih =>
    intro refused
    obtain ⟨isNamed, inside⟩ := Expr.forbiddenCall_call.1 isPermitted
    obtain ⟨builtin, found⟩ := Option.isSome_iff_exists.1 isNamed
    rcases Expr.evaluate_call_error refused with ⟨argument, isArgument, failed⟩ | ⟨values, called⟩
    · exact ih argument isArgument (inside argument isArgument) failed
    · rw [callByName, found] at called
      exact apply_permitted builtin values function called

/-- **A tree with a value calls permitted functions only.** -/
theorem permitted_of_evaluate {tree : Expr} {context : Context} {value : Float}
    (evaluated : tree.evaluate context = .ok value) : tree.forbiddenCall? = none := by
  induction tree using Expr.induct generalizing value with
  | literal value => rfl
  | name text span => rfl
  | unary op operand ih =>
    obtain ⟨inner, isInner, _⟩ := Expr.evaluate_unary_ok.1 evaluated
    exact ih isInner
  | binary op lhs rhs left right =>
    obtain ⟨_, _, isLeft, isRight, _⟩ := Expr.evaluate_binary_ok.1 evaluated
    exact Option.or_eq_none_iff.2 ⟨left isLeft, right isRight⟩
  | call function span arguments ih =>
    obtain ⟨values, builtin, are, isNamed, _⟩ := Expr.evaluate_call_ok.1 evaluated
    refine Expr.forbiddenCall_call.2 ⟨Option.isSome_of_eq_some isNamed, ?_⟩
    intro argument isArgument
    obtain ⟨inner, _, isInner⟩ := Expr.value_of_argument are isArgument
    exact ih argument isArgument isInner

/-- **The sandbox is closed and its gates agree.** An accepted formula calls `ROUND`, `MAX` and `MIN`
only, its literals are finite and not negative, and it has no more nodes than allowed. Any tree that
passes the check is not stopped at dispatch, and any tree that has a value passes the check. -/
theorem sandbox_closed :
    (∀ (text : String) (limits : Limits) (formula : Formula),
      Formula.accept text limits = .ok formula →
        (∀ function span arguments, .call function span arguments ∈ formula.tree.subtrees →
          function = "ROUND" ∨ function = "MAX" ∨ function = "MIN") ∧
        (∀ value, .literal value ∈ formula.tree.subtrees → value.isFinite = true ∧ 0 ≤ value) ∧
        formula.tree.nodeCount ≤ limits.maxNodes) ∧
    ∀ (tree : Expr) (context : Context),
      (tree.forbiddenCall? = none →
        ∀ function, tree.evaluate context ≠ .error (.invalidArguments function .notPermitted)) ∧
      ∀ value, tree.evaluate context = .ok value → tree.forbiddenCall? = none := by
  refine ⟨fun text limits formula accepted => ⟨?_, ?_, ?_⟩, fun tree context => ⟨?_, ?_⟩⟩
  · intro function span arguments member
    have isPermitted := (Expr.forbiddenCall_none formula.tree).1 (accept_ok accepted).2.2
    exact names_of_permitted (isPermitted function span arguments member)
  · intro value member
    exact literal_of_accept accepted member
  · exact (accept_ok accepted).2.1
  · intro isPermitted function
    exact evaluate_permitted isPermitted context function
  · intro value evaluated
    exact permitted_of_evaluate evaluated

/-- `MAX(a)` is accepted with its call of `MAX`, and a call of `system` never has a value. -/
theorem sandbox_closed_call :
    (∀ function span arguments, .call function span arguments ∈
        (Expr.call "MAX" ⟨0, 3⟩ [.name "a" ⟨4, 1⟩]).subtrees →
      function = "ROUND" ∨ function = "MAX" ∨ function = "MIN") ∧
    ∀ context value, (Expr.call "system" ⟨0, 6⟩ []).evaluate context ≠ .ok value := by
  have accepted : Formula.accept "MAX(a)" {}
      = .ok ⟨"MAX(a)", .call "MAX" ⟨0, 3⟩ [.name "a" ⟨4, 1⟩]⟩ := by
    with_unfolding_all rfl
  refine ⟨(sandbox_closed.1 _ _ _ accepted).1, fun context value evaluated => ?_⟩
  have isPermitted := (sandbox_closed.2 _ context).2 value evaluated
  cases isPermitted

end ColumnCalc
