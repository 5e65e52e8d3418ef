/-
**The nodes of a tree.**

`Expr.subtrees` lists a tree and all trees inside it, each before its operands and from left to right. A
tree's calls hold lists of trees, so induction is by `Expr.induct`, which gives the hypothesis for every
argument of a call.

* `subtrees_length` — there are as many subtrees as nodes.
* `forbiddenCall_none` — a tree passes when every call in it is of a permitted function.
-/

import ColumnCalc.Formula.Basic

namespace ColumnCalc.Expr

/-- **Induction over trees**, with the hypothesis for every argument of a call. -/
theorem induct {motive : Expr → Prop} (literal : ∀ value, motive (.literal value))
    (name : ∀ text span, motive (.name text span))
    (unary : ∀ op operand, motive operand → motive (.unary op operand))
    (binary : ∀ op lhs rhs, motive lhs → motive rhs → motive (.binary op lhs rhs))
    (call : ∀ function span arguments, (∀ argument ∈ arguments, motive argument) →
      motive (.call function span arguments)) (tree : Expr) : motive tree := by
  refine @Expr.rec motive (fun trees => ∀ tree ∈ trees, motive tree) literal name unary binary call
    ?_ ?_ tree
  · intro tree member
    cases member
  · intro first rest isFirst isRest tree member
    rcases List.mem_cons.1 member with same | later
    · rw [same]
      exact isFirst
    · exact isRest tree later

/-! ### Subtrees -/

mutual

/-- A tree and all trees inside it. -/
def subtrees : Expr → List Expr
  | literal value => [literal value]
  | name text span => [name text span]
  | unary op operand => unary op operand :: subtrees operand
  | binary op lhs rhs => binary op lhs rhs :: (subtrees lhs ++ subtrees rhs)
  | call function span arguments => call function span arguments :: subtreesOfAll arguments

/-- The subtrees of several trees. -/
def subtreesOfAll : List Expr → List Expr
  | [] => []
  | first :: rest => subtrees first ++ subtreesOfAll rest

end

theorem mem_subtreesOfAll {tree : Expr} {trees : List Expr} :
    tree ∈ subtreesOfAll trees ↔ ∃ root ∈ trees, tree ∈ root.subtrees := by
  induction trees with
  | nil => simp [subtreesOfAll]
  | cons first rest ih => simp [subtreesOfAll, ih]

mutual

/-- **There are as many subtrees as nodes.** -/
theorem subtrees_length : ∀ tree : Expr, tree.subtrees.length = tree.nodeCount
  | .literal _ => rfl
  | .name _ _ => rfl
  | .unary _ operand => by
    rw [subtrees, nodeCount, List.length_cons, subtrees_length operand, Nat.add_comm]
  | .binary _ lhs rhs => by
    rw [subtrees, nodeCount, List.length_cons, List.length_append, subtrees_length lhs,
      subtrees_length rhs, Nat.add_comm]
  | .call _ _ arguments => by
    rw [subtrees, nodeCount, List.length_cons, subtreesOfAll_length arguments, Nat.add_comm]

theorem subtreesOfAll_length : ∀ trees : List Expr, (subtreesOfAll trees).length = nodeCounts trees
  | [] => rfl
  | first :: rest => by
    rw [subtreesOfAll, nodeCounts, List.length_append, subtrees_length first,
      subtreesOfAll_length rest]

end

/-! ### Permitted calls -/

theorem forbiddenCallOfAll_none {trees : List Expr} :
    forbiddenCallOfAll? trees = none ↔ ∀ tree ∈ trees, tree.forbiddenCall? = none := by
  induction trees with
  | nil => simp [forbiddenCallOfAll?]
  | cons first rest ih => simp [forbiddenCallOfAll?, ih]

theorem forbiddenCall_call {function : String} {span : Span} {arguments : List Expr} :
    (call function span arguments).forbiddenCall? = none ↔
      (Builtin.ofName? function).isSome = true ∧
        ∀ argument ∈ arguments, argument.forbiddenCall? = none := by
  rw [forbiddenCall?, ← forbiddenCallOfAll_none]
  cases Builtin.ofName? function with
  | none => simp
  | some builtin => simp

/-- **A tree passes when every call in it is of a permitted function.** -/
theorem forbiddenCall_none (tree : Expr) :
    tree.forbiddenCall? = none ↔ ∀ function span arguments,
      call function span arguments ∈ tree.subtrees → (Builtin.ofName? function).isSome = true := by
  induction tree using Expr.induct with
  | literal value => simp [forbiddenCall?, subtrees]
  | name text span => simp [forbiddenCall?, subtrees]
  | unary op operand ih => simp [forbiddenCall?, subtrees, ih]
  | binary op lhs rhs left right =>
    rw [forbiddenCall?, subtrees, Option.or_eq_none_iff, left, right]
    constructor
    · rintro ⟨inLeft, inRight⟩ function span arguments member
      rcases List.mem_cons.1 member with same | inside
      · cases same
      · rcases List.mem_append.1 inside with inside | inside
        · exact inLeft function span arguments inside
        · exact inRight function span arguments inside
    · intro inBoth
      refine ⟨fun function span arguments member => ?_, fun function span arguments member => ?_⟩
      · exact inBoth function span arguments (.tail _ (List.mem_append_left _ member))
      · exact inBoth function span arguments (.tail _ (List.mem_append_right _ member))
  | call function span arguments ih =>
    rw [forbiddenCall_call, subtrees]
    constructor
    · rintro ⟨isPermitted, inside⟩ other otherSpan others member
      rcases List.mem_cons.1 member with same | member
      · cases same
        exact isPermitted
      · obtain ⟨root, isArgument, within⟩ := mem_subtreesOfAll.1 member
        exact (ih root isArgument).1 (inside root isArgument) other otherSpan others within
    · intro inAll
      refine ⟨inAll function span arguments (.head _), fun argument isArgument => ?_⟩
      rw [ih argument isArgument]
      intro other otherSpan others within
      exact inAll other otherSpan others
        (.tail _ (mem_subtreesOfAll.2 ⟨argument, isArgument, within⟩))

end ColumnCalc.Expr
