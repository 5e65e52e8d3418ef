/-
**What a formula's value depends on.**

The value of a tree is decided by the numbers that its names are bound to. `Expr.reads` lists these
names, each once and in the order in which they are used first. The list and the value come from two
recursions over the tree; they agree on every kind of node, the arguments of calls among them, so one
context can take the place of another that binds the listed names alike.

* `listsNames_reads` — the list against the nodes of the tree.
* `evaluate_congr` — contexts that agree on the listed names give the same outcome.
* `unbound_of_evaluate` — a name that is reported as unknown is listed, and not bound.
* `value_depends_on_reads` — all of it, for every tree.
-/

import ColumnCalc.Proofs.Formula.Evaluation
import ColumnCalc.Proofs.Formula.Subtree
import Mathlib.Data.List.Induction
import Mathlib.Data.List.Nodup

namespace ColumnCalc.Expr

/-! ### Names in the order of their first use -/

/-- The name that a node is. -/
def name? : Expr → Option String
  | name text _ => some text
  | _ => none

theorem name?_eq_some_iff {node : Expr} {text : String} :
    node.name? = some text ↔ ∃ span, node = name text span := by
  cases node with
  | name other span => simp [name?]
  | _ => simp [name?]

/-- A name stands among nodes. -/
def Uses (nodes : List Expr) (text : String) : Prop :=
  ∃ span, name text span ∈ nodes

/-- The place of the first node that is a name; behind all nodes if none is. -/
def firstUse (nodes : List Expr) (text : String) : Nat :=
  nodes.findIdx fun node => node.name? == some text

/-- **The names among nodes**, each once and in the order of their first use. -/
structure ListsNames (nodes : List Expr) (listed : List String) : Prop where
  once : listed.Nodup
  all : ∀ text, text ∈ listed ↔ Uses nodes text
  ordered : listed.Pairwise fun first second => firstUse nodes first < firstUse nodes second

theorem firstUse_lt_iff {nodes : List Expr} {text : String} :
    firstUse nodes text < nodes.length ↔ Uses nodes text := by
  rw [firstUse, List.findIdx_lt_length]
  constructor
  · rintro ⟨node, member, isNamed⟩
    obtain ⟨span, rfl⟩ := name?_eq_some_iff.1 (beq_iff_eq.1 isNamed)
    exact ⟨span, member⟩
  · rintro ⟨span, member⟩
    exact ⟨_, member, beq_iff_eq.2 rfl⟩

theorem firstUse_append {nodes : List Expr} {text : String} (used : Uses nodes text)
    (more : List Expr) : firstUse (nodes ++ more) text = firstUse nodes text := by
  have inside := firstUse_lt_iff.2 used
  rw [firstUse, List.findIdx_append]
  exact if_pos inside

theorem length_le_firstUse {nodes : List Expr} {text : String} (unused : ¬Uses nodes text)
    (more : List Expr) : nodes.length ≤ firstUse (nodes ++ more) text := by
  have outside : ¬firstUse nodes text < nodes.length := mt firstUse_lt_iff.1 unused
  rw [firstUse, List.findIdx_append]
  show nodes.length ≤ if firstUse nodes text < nodes.length then _ else _
  rw [if_neg outside]
  exact Nat.le_add_left ..

theorem uses_concat {nodes : List Expr} {node : Expr} {text : String} :
    Uses (nodes ++ [node]) text ↔ Uses nodes text ∨ node.name? = some text := by
  rw [name?_eq_some_iff]
  simp only [Uses, List.mem_append, List.mem_singleton, exists_or, eq_comm (b := node)]

/-- The list of names with one more name, unless it is there. -/
def noted (listed : List String) (text : String) : List String :=
  if listed.contains text then listed else listed ++ [text]

theorem ListsNames.nil : ListsNames [] [] :=
  ⟨.nil, fun _ => ⟨nofun, fun ⟨_, member⟩ => nomatch member⟩, .nil⟩

/-- Nodes behind the first use of a name do not change the order. -/
theorem ListsNames.ordered_append {nodes : List Expr} {listed : List String}
    (lists : ListsNames nodes listed) (more : List Expr) :
    listed.Pairwise fun first second =>
      firstUse (nodes ++ more) first < firstUse (nodes ++ more) second :=
  lists.ordered.imp_of_mem fun {first second} isFirst isSecond before => by
    rw [firstUse_append ((lists.all _).1 isFirst), firstUse_append ((lists.all _).1 isSecond)]
    exact before

/-- A node that is no name changes nothing. -/
theorem ListsNames.other {nodes : List Expr} {listed : List String}
    (lists : ListsNames nodes listed) {node : Expr} (noName : node.name? = none) :
    ListsNames (nodes ++ [node]) listed where
  once := lists.once
  all text := by
    rw [uses_concat, lists.all, noName]
    exact ⟨.inl, fun used => used.resolve_right nofun⟩
  ordered := lists.ordered_append _

/-- A node that is a name is noted, at the end if it is new. -/
theorem ListsNames.note {nodes : List Expr} {listed : List String}
    (lists : ListsNames nodes listed) {node : Expr} {text : String}
    (isName : node.name? = some text) : ListsNames (nodes ++ [node]) (noted listed text) := by
  unfold noted
  by_cases known : text ∈ listed
  · rw [if_pos (List.contains_iff_mem.2 known)]
    refine ⟨lists.once, fun other => ?_, lists.ordered_append _⟩
    rw [uses_concat, lists.all, isName]
    refine ⟨.inl, fun used => used.elim id fun same => ?_⟩
    cases same
    exact (lists.all text).1 known
  · rw [if_neg (mt List.contains_iff_mem.1 known)]
    have unused : ¬Uses nodes text := mt (lists.all text).2 known
    refine ⟨?_, fun other => ?_, ?_⟩
    · refine List.nodup_append.2 ⟨lists.once, List.nodup_singleton _, ?_⟩
      intro first isFirst second isSecond same
      cases List.mem_singleton.1 isSecond
      exact known (same ▸ isFirst)
    · rw [uses_concat, List.mem_append, lists.all, List.mem_singleton, isName, Option.some.injEq,
        eq_comm (a := text)]
    · refine List.pairwise_append.2 ⟨lists.ordered_append _, List.pairwise_singleton .., ?_⟩
      intro first isFirst second isSecond
      cases List.mem_singleton.1 isSecond
      have used := (lists.all first).1 isFirst
      calc firstUse (nodes ++ [node]) first = firstUse nodes first := firstUse_append used _
        _ < nodes.length := firstUse_lt_iff.2 used
        _ ≤ firstUse (nodes ++ [node]) text := length_le_firstUse unused _

/-- Noting the names of nodes one after another lists them. -/
theorem listsNames_foldl (nodes : List Expr) :
    ListsNames nodes ((nodes.filterMap name?).foldl noted []) := by
  induction nodes using List.reverseRecOn with
  | nil => exact .nil
  | append_singleton nodes node ih =>
    rw [List.filterMap_append, List.foldl_append]
    cases isName : node.name? with
    | none => simpa [isName] using ih.other isName
    | some text => simpa [isName] using ih.note isName

mutual

/-- The names of a tree are its nodes that are names. -/
theorem names_eq : ∀ tree : Expr, tree.names = tree.subtrees.filterMap name?
  | .literal _ => rfl
  | .name _ _ => rfl
  | .unary _ operand => names_eq operand
  | .binary _ lhs rhs => by
    rw [names, names_eq lhs, names_eq rhs, subtrees, List.filterMap_cons_none rfl,
      List.filterMap_append]
  | .call _ _ arguments => namesOfAll_eq arguments

theorem namesOfAll_eq : ∀ trees : List Expr,
    namesOfAll trees = (subtreesOfAll trees).filterMap name?
  | [] => rfl
  | first :: rest => by
    rw [namesOfAll, names_eq first, namesOfAll_eq rest, subtreesOfAll, List.filterMap_append]

end

/-- **The names that a tree reads**, each once and in the order of their first use. -/
theorem listsNames_reads (tree : Expr) : ListsNames tree.subtrees tree.reads := by
  have listed := listsNames_foldl tree.subtrees
  rw [← names_eq] at listed
  exact listed

theorem mem_reads {tree : Expr} {text : String} :
    text ∈ tree.reads ↔ Uses tree.subtrees text :=
  (listsNames_reads tree).all text

/-! ### Names of the operands -/

theorem Uses.operand {op : UnaryOp} {operand : Expr} {text : String}
    (used : Uses operand.subtrees text) : Uses (unary op operand).subtrees text :=
  used.imp fun _ member => .tail _ member

theorem Uses.left {op : BinaryOp} {lhs rhs : Expr} {text : String}
    (used : Uses lhs.subtrees text) : Uses (binary op lhs rhs).subtrees text :=
  used.imp fun _ member => .tail _ (List.mem_append_left _ member)

theorem Uses.right {op : BinaryOp} {lhs rhs : Expr} {text : String}
    (used : Uses rhs.subtrees text) : Uses (binary op lhs rhs).subtrees text :=
  used.imp fun _ member => .tail _ (List.mem_append_right _ member)

theorem Uses.argument {function : String} {span : Span} {arguments : List Expr} {argument : Expr}
    (isArgument : argument ∈ arguments) {text : String} (used : Uses argument.subtrees text) :
    Uses (call function span arguments).subtrees text :=
  used.imp fun _ member => .tail _ (mem_subtreesOfAll.2 ⟨argument, isArgument, member⟩)

/-! ### Evaluation -/

theorem evaluateAll_congr {first second : Context} {trees : List Expr}
    (same : ∀ tree ∈ trees, tree.evaluate first = tree.evaluate second) :
    evaluateAll first trees = evaluateAll second trees := by
  induction trees with
  | nil => rfl
  | cons tree trees ih =>
    rw [evaluateAll, evaluateAll, same tree (.head _),
      ih fun other member => same other (.tail _ member)]

/-- **Contexts that agree on the names of a tree give it the same outcome.** -/
theorem evaluate_congr {tree : Expr} {first second : Context}
    (agree : ∀ text ∈ tree.reads, first.get? text = second.get? text) :
    tree.evaluate first = tree.evaluate second := by
  have agreeUsed : ∀ text, Uses tree.subtrees text → first.get? text = second.get? text :=
    fun text used => agree text (mem_reads.2 used)
  clear agree
  induction tree using Expr.induct with
  | literal value => rfl
  | name text span =>
    rw [evaluate, evaluate, agreeUsed text ⟨span, .head _⟩]
  | unary op operand ih =>
    rw [evaluate, evaluate, ih fun text used => agreeUsed text used.operand]
  | binary op lhs rhs left right =>
    rw [evaluate, evaluate, left fun text used => agreeUsed text used.left,
      right fun text used => agreeUsed text used.right]
  | call function span arguments ih =>
    rw [evaluate, evaluate, evaluateAll_congr fun argument isArgument =>
      ih argument isArgument fun text used => agreeUsed text (used.argument isArgument)]

/-- **A name that is reported as unknown is read by the tree, and not bound.** -/
theorem unbound_of_evaluate {tree : Expr} {context : Context} {text : String}
    (failed : tree.evaluate context = .error (.unknownVariable text)) :
    text ∈ tree.reads ∧ context.get? text = none := by
  rw [mem_reads]
  induction tree using Expr.induct with
  | literal value => cases failed
  | name other span =>
    rw [evaluate] at failed
    cases bound : context.get? other with
    | some value =>
      rw [bound] at failed
      cases failed
    | none =>
      rw [bound] at failed
      cases failed
      exact ⟨⟨span, .head _⟩, bound⟩
  | unary op operand ih => exact (ih (evaluate_unary_error failed)).imp_left .operand
  | binary op lhs rhs left right =>
    -- The operators have failures of their own, but an unknown name is none of them.
    rcases evaluate_binary_error failed with inLeft | inRight | ⟨_, _, applied⟩
    · exact (left inLeft).imp_left .left
    · exact (right inRight).imp_left .right
    · rcases BinaryOp.apply_error applied with same | same <;> cases same
  | call function span arguments ih =>
    rcases evaluate_call_error failed with ⟨argument, isArgument, inside⟩ | ⟨values, called⟩
    · exact (ih argument isArgument inside).imp_left (.argument isArgument)
    · obtain ⟨_, _, same⟩ := callByName_error called
      cases same

/-- **A formula's value depends on the names that it reads, and on nothing else.** The names are listed
each once and in the order of their first use; contexts in which each of them has the same value, or
none in both, give the same outcome; no name is unknown if all of them are bound, and one that is
reported as unknown is one of them and not bound. -/
theorem value_depends_on_reads (tree : Expr) :
    ListsNames tree.subtrees tree.reads ∧
    (∀ first second : Context,
      (∀ text ∈ tree.reads, first.get? text = second.get? text) →
        tree.evaluate first = tree.evaluate second) ∧
    ∀ context : Context,
      ((∀ text ∈ tree.reads, (context.get? text).isSome) →
        ∀ text, tree.evaluate context ≠ .error (.unknownVariable text)) ∧
      ∀ text, tree.evaluate context = .error (.unknownVariable text) →
        text ∈ tree.reads ∧ context.get? text = none := by
  refine ⟨listsNames_reads tree, fun _ _ agree => evaluate_congr agree, fun context => ⟨?_, ?_⟩⟩
  · intro allBound text failed
    obtain ⟨isRead, unbound⟩ := unbound_of_evaluate failed
    have bound := allBound text isRead
    rw [unbound] at bound
    cases bound
  · exact fun text failed => unbound_of_evaluate failed

/-- `MAX(a, b * a, 2)` reads `a` and `b`; a column `c` does not count, and without `b` it has no
value. -/
theorem value_depends_on_reads_product :
    let tree : Expr := .call "MAX" ⟨0, 3⟩
      [.name "a" ⟨4, 1⟩, .binary .mul (.name "b" ⟨7, 1⟩) (.name "a" ⟨11, 1⟩), .literal 2]
    let plain : Context := .ofList [("a", 1), ("b", 3)]
    let further : Context := .ofList [("c", 5), ("b", 3), ("a", 1)]
    let partly : Context := .ofList [("a", 1), ("c", 5)]
    tree.reads = ["a", "b"] ∧
    (tree.evaluate plain = tree.evaluate further ∧
      ∀ text, tree.evaluate plain ≠ .error (.unknownVariable text)) ∧
    tree.evaluate partly = .error (.unknownVariable "b") ∧
      "b" ∈ tree.reads ∧ partly.get? "b" = none := by
  intro tree plain further partly
  have reads : tree.reads = ["a", "b"] := by decide +kernel
  have depends := value_depends_on_reads tree
  have onNames : ∀ text ∈ tree.reads, plain.get? text = further.get? text ∧
      (plain.get? text).isSome := by
    intro text isRead
    rw [reads] at isRead
    simp only [List.mem_cons, List.not_mem_nil, or_false] at isRead
    rcases isRead with rfl | rfl <;> exact ⟨rfl, rfl⟩
  have failed : tree.evaluate partly = .error (.unknownVariable "b") := by with_unfolding_all rfl
  refine ⟨reads, ⟨?_, ?_⟩, failed, (depends.2.2 partly).2 "b" failed⟩
  · exact depends.2.1 plain further fun text isRead => (onNames text isRead).1
  · exact (depends.2.2 plain).1 fun text isRead => (onNames text isRead).2

end ColumnCalc.Expr
