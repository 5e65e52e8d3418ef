/-
**Evaluation reports the first failure.**

`Expr.postorder` lists a tree and all trees inside it in the order in which their values are needed:
from left to right, operands and arguments before what is done with them. Evaluation stops at the
first of them that has no value, and its error is the answer; nothing behind it is looked at.

* `postorder_perm` — the same trees as `subtrees`, which lists a tree before its operands;
  `inside_suffix` — operands and arguments come first.
* `findSome?_postorder` — the first failure in this order is the failure of the tree.
* `forbidden_of_evaluate` — what fails for want of permission is a call.
* `first_failure_reported` — all of it, for every tree and every context.
-/

import ColumnCalc.Proofs.Formula.Evaluation
import ColumnCalc.Proofs.Formula.Subtree

namespace ColumnCalc.Expr

/-! ### Operands before what is done with them -/

mutual

/-- A tree and all trees inside it, from left to right and operands first. -/
def postorder : Expr → List Expr
  | literal value => [literal value]
  | name text span => [name text span]
  | unary op operand => postorder operand ++ [unary op operand]
  | binary op lhs rhs => postorder lhs ++ postorder rhs ++ [binary op lhs rhs]
  | call function span arguments => postorderOfAll arguments ++ [call function span arguments]

/-- The trees inside several trees, one tree after another. -/
def postorderOfAll : List Expr → List Expr
  | [] => []
  | first :: rest => postorder first ++ postorderOfAll rest

end

mutual

/-- **These are the subtrees**, in another order. -/
theorem postorder_perm : ∀ tree : Expr, tree.postorder.Perm tree.subtrees
  | .literal _ => .refl _
  | .name _ _ => .refl _
  | .unary _ operand => by
    rw [postorder, subtrees]
    exact List.perm_append_singleton _ _ |>.trans ((postorder_perm operand).cons _)
  | .binary _ lhs rhs => by
    rw [postorder, subtrees]
    exact List.perm_append_singleton _ _ |>.trans
      (((postorder_perm lhs).append (postorder_perm rhs)).cons _)
  | .call _ _ arguments => by
    rw [postorder, subtrees]
    exact List.perm_append_singleton _ _ |>.trans ((postorderOfAll_perm arguments).cons _)

theorem postorderOfAll_perm : ∀ trees : List Expr,
    (postorderOfAll trees).Perm (subtreesOfAll trees)
  | [] => .refl _
  | first :: rest => by
    rw [postorderOfAll, subtreesOfAll]
    exact (postorder_perm first).append (postorderOfAll_perm rest)

end

/-- The trees inside a tree, without itself. -/
def inside : Expr → List Expr
  | literal _ => []
  | name _ _ => []
  | unary _ operand => postorder operand
  | binary _ lhs rhs => postorder lhs ++ postorder rhs
  | call _ _ arguments => postorderOfAll arguments

/-- A tree comes last. -/
theorem postorder_eq (tree : Expr) : tree.postorder = tree.inside ++ [tree] := by
  cases tree with
  | literal value => rw [postorder, inside, List.nil_append]
  | name text span => rw [postorder, inside, List.nil_append]
  | unary op operand => rw [postorder, inside]
  | binary op lhs rhs => rw [postorder, inside]
  | call function span arguments => rw [postorder, inside]

theorem mem_postorder_self (tree : Expr) : tree ∈ tree.postorder := by
  rw [postorder_eq]
  exact List.mem_append_right _ (.head _)

theorem mem_postorderOfAll {tree : Expr} {trees : List Expr} (member : tree ∈ trees) :
    tree ∈ postorderOfAll trees := by
  induction trees with
  | nil => cases member
  | cons first rest ih =>
    rw [postorderOfAll]
    rcases List.mem_cons.1 member with rfl | later
    · exact List.mem_append_left _ (mem_postorder_self tree)
    · exact List.mem_append_right _ (ih later)

/-- An item of two lists in a row is in the first, or in the second behind all of the first. -/
theorem split_append {α : Type} {first second before behind : List α} {item : α}
    (same : first ++ second = before ++ item :: behind) :
    (∃ rest, first = before ++ item :: rest) ∨
      ∃ rest, before = first ++ rest ∧ second = rest ++ item :: behind := by
  rcases List.append_eq_append_iff.1 same with ⟨rest, isBefore, isSecond⟩ | ⟨rest, isFirst, isItem⟩
  · exact .inr ⟨rest, isBefore, isSecond⟩
  · cases rest with
    | nil =>
      rw [List.append_nil] at isFirst
      exact .inr ⟨[], by rw [isFirst, List.append_nil], isItem.symm⟩
    | cons next rest =>
      cases isItem
      exact .inl ⟨rest, isFirst⟩

/-- Standing among the trees inside a tree, or being the tree itself. -/
theorem split_postorder {tree node : Expr} {before behind : List Expr}
    (same : tree.postorder = before ++ node :: behind) :
    (∃ rest, tree.inside = before ++ node :: rest) ∨ before = tree.inside ∧ node = tree := by
  rw [postorder_eq] at same
  rcases split_append same with within | ⟨rest, isBefore, isLast⟩
  · exact .inl within
  · cases rest with
    | nil =>
      cases isLast
      exact .inr ⟨by rw [isBefore, List.append_nil], rfl⟩
    | cons next rest => simp at isLast

theorem suffix_of_postorderOfAll {trees : List Expr} {node : Expr} {before behind : List Expr}
    (suffix : ∀ tree ∈ trees, ∀ before behind, tree.postorder = before ++ node :: behind →
      node.inside <:+ before) (same : postorderOfAll trees = before ++ node :: behind) :
    node.inside <:+ before := by
  induction trees generalizing before with
  | nil => simp [postorderOfAll] at same
  | cons tree rest ih =>
    rw [postorderOfAll] at same
    rcases split_append same with ⟨_, inFirst⟩ | ⟨later, rfl, inRest⟩
    · exact suffix tree (.head _) _ _ inFirst
    · have within := ih (fun other member => suffix other (.tail _ member)) inRest
      exact within.trans (List.suffix_append _ _)

/-- **Operands and arguments come first**: right in front of a tree stand the trees inside it. -/
theorem inside_suffix {tree node : Expr} {before behind : List Expr}
    (same : tree.postorder = before ++ node :: behind) : node.inside <:+ before := by
  induction tree using Expr.induct generalizing before behind with
  | literal value =>
    rcases split_postorder same with ⟨rest, within⟩ | ⟨rfl, rfl⟩
    · simp [inside] at within
    · exact List.suffix_rfl
  | name text span =>
    rcases split_postorder same with ⟨rest, within⟩ | ⟨rfl, rfl⟩
    · simp [inside] at within
    · exact List.suffix_rfl
  | unary op operand ih =>
    rcases split_postorder same with ⟨rest, within⟩ | ⟨rfl, rfl⟩
    · exact ih within
    · exact List.suffix_rfl
  | binary op lhs rhs left right =>
    rcases split_postorder same with ⟨rest, within⟩ | ⟨rfl, rfl⟩
    · rcases split_append within with ⟨_, inLeft⟩ | ⟨later, rfl, inRight⟩
      · exact left inLeft
      · exact (right inRight).trans (List.suffix_append _ _)
    · exact List.suffix_rfl
  | call function span arguments ih =>
    rcases split_postorder same with ⟨rest, within⟩ | ⟨rfl, rfl⟩
    · exact suffix_of_postorderOfAll (fun argument isArgument _ _ => ih argument isArgument) within
    · exact List.suffix_rfl

/-! ### The first failure -/

variable {context : Context}

/-- What the evaluation of a tree fails with. -/
def failure? (context : Context) (tree : Expr) : Option EvalError :=
  match tree.evaluate context with
  | .ok _ => none
  | .error error => some error

theorem failure?_eq_some_iff {tree : Expr} {error : EvalError} :
    tree.failure? context = some error ↔ tree.evaluate context = .error error := by
  unfold failure?
  cases tree.evaluate context with
  | ok value => exact ⟨nofun, nofun⟩
  | error other => exact ⟨fun same => congrArg _ (Option.some.inj same),
      fun same => congrArg _ (Except.error.inj same)⟩

theorem failure?_eq_none_iff {tree : Expr} :
    tree.failure? context = none ↔ ∃ value, tree.evaluate context = .ok value := by
  unfold failure?
  cases tree.evaluate context with
  | ok value => exact ⟨fun _ => ⟨value, rfl⟩, fun _ => rfl⟩
  | error error => exact ⟨nofun, fun ⟨_, same⟩ => nomatch same⟩

/-- **Arguments fail with the first failure among them.** -/
theorem evaluateAll_of_findSome? {trees : List Expr} {error : EvalError}
    (failed : trees.findSome? (failure? context) = some error) :
    evaluateAll context trees = .error error := by
  induction trees with
  | nil => cases failed
  | cons first rest ih =>
    rw [evaluateAll]
    rw [List.findSome?_cons] at failed
    split at failed
    · rename_i isFailure
      cases failed
      rw [failure?_eq_some_iff.1 isFailure]
      rfl
    · rename_i hasValue
      obtain ⟨value, isValue⟩ := failure?_eq_none_iff.1 hasValue
      rw [isValue, ih failed]
      rfl

/-- A tree that fails when the trees `inside` it do fails with the first of their failures and its
own. -/
theorem findSome?_concat {inside : List Expr} {tree : Expr}
    (passesOn : ∀ error, inside.findSome? (failure? context) = some error →
      tree.evaluate context = .error error) :
    (inside ++ [tree]).findSome? (failure? context) = tree.failure? context := by
  rw [List.findSome?_append, List.findSome?_singleton]
  cases failed : inside.findSome? (failure? context) with
  | none => rfl
  | some error => exact (failure?_eq_some_iff.2 (passesOn error failed)).symm

theorem findSome?_postorderOfAll {trees : List Expr}
    (first : ∀ tree ∈ trees, tree.postorder.findSome? (failure? context) = tree.failure? context) :
    (postorderOfAll trees).findSome? (failure? context) = trees.findSome? (failure? context) := by
  induction trees with
  | nil => rfl
  | cons tree rest ih =>
    rw [postorderOfAll, List.findSome?_append, first tree (.head _),
      ih fun other member => first other (.tail _ member), List.findSome?_cons]
    cases tree.failure? context <;> rfl

/-- **A tree fails with the first failure in post-order**, and has a value if there is none. -/
theorem findSome?_postorder (tree : Expr) :
    tree.postorder.findSome? (failure? context) = tree.failure? context := by
  induction tree using Expr.induct with
  | literal value => rfl
  | name text span =>
    rw [postorder, List.findSome?_singleton]
  | unary op operand ih =>
    refine findSome?_concat fun error failed => ?_
    rw [evaluate, failure?_eq_some_iff.1 (ih.symm.trans failed)]
    rfl
  | binary op lhs rhs left right =>
    refine findSome?_concat fun error failed => ?_
    rw [List.findSome?_append, left, right, Option.or_eq_some_iff] at failed
    rw [evaluate]
    rcases failed with inLeft | ⟨hasValue, inRight⟩
    · rw [failure?_eq_some_iff.1 inLeft]
      rfl
    · obtain ⟨value, isValue⟩ := failure?_eq_none_iff.1 hasValue
      rw [isValue, failure?_eq_some_iff.1 inRight]
      rfl
  | call function span arguments ih =>
    refine findSome?_concat fun error failed => ?_
    rw [findSome?_postorderOfAll ih] at failed
    rw [evaluate, evaluateAll_of_findSome? failed]
    rfl

/-! ### Functions that are not permitted -/

/-- A call by name fails for want of permission if there is no such function. -/
theorem forbidden_of_callByName {function other : String} {values : List Float}
    (failed : callByName function values = .error (.invalidArguments other .notPermitted)) :
    other = function ∧ Builtin.ofName? function = none := by
  unfold callByName at failed
  split at failed
  · obtain ⟨fault, same, permitted⟩ := Builtin.apply_error failed
    cases same
    exact absurd rfl permitted
  · rename_i missing
    cases failed
    exact ⟨rfl, missing⟩

/-- **Only a call fails for want of permission**, unless a tree inside it fails. -/
theorem forbidden_of_evaluate {tree : Expr} {function : String}
    (haveValues : ∀ node ∈ tree.inside, ∃ value, node.evaluate context = .ok value)
    (failed : tree.evaluate context = .error (.invalidArguments function .notPermitted)) :
    ∃ span arguments, tree = call function span arguments ∧ Builtin.ofName? function = none := by
  cases tree with
  | literal value => cases failed
  | name text span =>
    rw [evaluate] at failed
    split at failed <;> cases failed
  | unary op operand =>
    obtain ⟨value, isValue⟩ := haveValues operand (mem_postorder_self operand)
    cases isValue.symm.trans (evaluate_unary_error failed)
  | binary op lhs rhs =>
    obtain ⟨left, isLeft⟩ := haveValues lhs (List.mem_append_left _ (mem_postorder_self lhs))
    obtain ⟨right, isRight⟩ := haveValues rhs (List.mem_append_right _ (mem_postorder_self rhs))
    rcases evaluate_binary_error failed with inLeft | inRight | ⟨_, _, applied⟩
    · cases isLeft.symm.trans inLeft
    · cases isRight.symm.trans inRight
    · rcases BinaryOp.apply_error applied with same | same <;> cases same
  | call other span arguments =>
    rcases evaluate_call_error failed with ⟨argument, isArgument, isError⟩ | ⟨values, called⟩
    · obtain ⟨value, isValue⟩ := haveValues argument (mem_postorderOfAll isArgument)
      cases isValue.symm.trans isError
    · obtain ⟨rfl, forbidden⟩ := forbidden_of_callByName called
      exact ⟨span, arguments, rfl, forbidden⟩

/-- **Evaluation reports the first failure.** The trees inside a tree are ordered from left to
right, and right in front of each of them stand the trees inside it. A tree has a value exactly when
every tree in it has one, and fails exactly with the error of the first one that has none. So a
function that is not permitted is reported for a call of it, when all its arguments and everything
before it have values. -/
theorem first_failure_reported (tree : Expr) (context : Context) :
    (tree.postorder.Perm tree.subtrees ∧
      ∀ before node behind, tree.postorder = before ++ node :: behind → node.inside <:+ before) ∧
    ((∃ value, tree.evaluate context = .ok value) ↔
      ∀ node ∈ tree.postorder, ∃ value, node.evaluate context = .ok value) ∧
    (∀ error, tree.evaluate context = .error error ↔
      ∃ before node behind, tree.postorder = before ++ node :: behind ∧
        (∀ earlier ∈ before, ∃ value, earlier.evaluate context = .ok value) ∧
        node.evaluate context = .error error) ∧
    ∀ function, tree.evaluate context = .error (.invalidArguments function .notPermitted) →
      ∃ before span arguments behind,
        tree.postorder = before ++ call function span arguments :: behind ∧
        (∀ earlier ∈ before, ∃ value, earlier.evaluate context = .ok value) ∧
        (∀ argument ∈ arguments, ∃ value, argument.evaluate context = .ok value) ∧
        Builtin.ofName? function = none := by
  have first : tree.postorder.findSome? (failure? context) = tree.failure? context :=
    findSome?_postorder tree
  have isFirst (error : EvalError) : tree.evaluate context = .error error ↔
      ∃ before node behind, tree.postorder = before ++ node :: behind ∧
        (∀ earlier ∈ before, ∃ value, earlier.evaluate context = .ok value) ∧
        node.evaluate context = .error error := by
    rw [← failure?_eq_some_iff, ← first, List.findSome?_eq_some_iff]
    simp only [failure?_eq_some_iff, failure?_eq_none_iff]
    constructor
    · rintro ⟨before, node, behind, split, failed, earlier⟩
      exact ⟨before, node, behind, split, earlier, failed⟩
    · rintro ⟨before, node, behind, split, earlier, failed⟩
      exact ⟨before, node, behind, split, failed, earlier⟩
  refine ⟨⟨postorder_perm tree, fun before node behind => inside_suffix⟩, ?_, isFirst, ?_⟩
  · rw [← failure?_eq_none_iff, ← first, List.findSome?_eq_none_iff]
    simp only [failure?_eq_none_iff]
  · intro function failed
    obtain ⟨before, node, behind, split, earlier, isError⟩ := (isFirst _).1 failed
    have haveValues : ∀ inner ∈ node.inside, ∃ value, inner.evaluate context = .ok value :=
      fun inner member => earlier inner ((inside_suffix split).mem member)
    obtain ⟨span, arguments, rfl, forbidden⟩ := forbidden_of_evaluate haveValues isError
    refine ⟨before, span, arguments, behind, split, earlier,
      fun argument isArgument => ?_, forbidden⟩
    exact haveValues argument (mem_postorderOfAll isArgument)

/-- In `MAX(a, exec(a, b) / 0) + c`, where `a` and `b` are bound, the call of `exec` and the name
`c` have no value of their own. The call comes first, and both of its arguments have values. -/
theorem first_failure_reported_exec :
    let exec : Expr := .call "exec" ⟨7, 4⟩ [.name "a" ⟨12, 1⟩, .name "b" ⟨15, 1⟩]
    let tree : Expr := .binary .add
      (.call "MAX" ⟨0, 3⟩ [.name "a" ⟨4, 1⟩, .binary .div exec (.literal 0)]) (.name "c" ⟨25, 1⟩)
    let context : Context := .ofList [("a", 1), ("b", 3)]
    tree.postorder = [.name "a" ⟨4, 1⟩, .name "a" ⟨12, 1⟩, .name "b" ⟨15, 1⟩] ++ exec ::
        [.literal 0, .binary .div exec (.literal 0),
          .call "MAX" ⟨0, 3⟩ [.name "a" ⟨4, 1⟩, .binary .div exec (.literal 0)],
          .name "c" ⟨25, 1⟩, tree] ∧
      exec.inside <:+ [.name "a" ⟨4, 1⟩, .name "a" ⟨12, 1⟩, .name "b" ⟨15, 1⟩] ∧
    tree.evaluate context = .error (.invalidArguments "exec" .notPermitted) ∧
    ∃ before span arguments behind,
      tree.postorder = before ++ call "exec" span arguments :: behind ∧
      (∀ earlier ∈ before, ∃ value, earlier.evaluate context = .ok value) ∧
      (∀ argument ∈ arguments, ∃ value, argument.evaluate context = .ok value) ∧
      Builtin.ofName? "exec" = none := by
  intro exec tree context
  have reported := first_failure_reported tree context
  have failed : tree.evaluate context = .error (.invalidArguments "exec" .notPermitted) := by
    with_unfolding_all rfl
  exact ⟨rfl, reported.1.2 _ _ _ rfl, failed, reported.2.2.2 "exec" failed⟩

end ColumnCalc.Expr
