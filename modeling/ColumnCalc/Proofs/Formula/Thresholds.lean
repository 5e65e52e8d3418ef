/-
**Limits cut off at exact thresholds.**

A formula has an answer of its own, which it gets within all limits that are large enough. A tree
of `n` nodes is the answer within limits of at least `n` nodes and of at least the depth of the
formula's text; within any other limits the formula is too complex.

* `nodes_of_conclude` — the nodes that the automaton has counted at the end are those of the tree.
* `nodes_le_of_checkpoints` — no check sees more nodes than that.
* `parse_eq_ok_iff` — limits admit a tree exactly from its nodes and the depth of the text on.
* `parse_thresholds` — all of it, for every text.
-/

import ColumnCalc.Proofs.Formula.Sandbox

namespace ColumnCalc.Parser

/-! ### The counter of nodes -/

/-- No item takes a node back. -/
theorem nodes_le_of_advance {state next : State} {item : Item}
    (read : advance state item = .ok next) : state.nodes ≤ next.nodes := by
  cases item with
  | error error => cases read
  | ok token => exact (weight_advance read).1.1

/-- **The last check sees the most nodes**: all that have been counted. -/
theorem nodes_of_checkpoints {items : List Item} {state last : State}
    (run : items.foldlM advance state = .ok last) :
    last.opened none ∈ checkpoints state items ∧ state.nodes ≤ last.nodes ∧
      ∀ check ∈ checkpoints state items, check.nodes ≤ last.nodes := by
  induction items generalizing state with
  | nil =>
    cases run
    refine ⟨.head _, Nat.le_refl _, fun check member => ?_⟩
    cases List.mem_singleton.1 member
    exact Nat.le_of_eq (nodes_opened _ _)
  | cons item items ih =>
    obtain ⟨next, isRead, went⟩ := bind_eq_ok.1 run
    obtain ⟨ends, grows, bounds⟩ := ih went
    have kept := nodes_le_of_advance isRead
    rw [checkpoints, isRead]
    refine ⟨.tail _ (.tail _ ends), Nat.le_trans kept grows, fun check member => ?_⟩
    rcases List.mem_cons.1 member with rfl | later
    · rw [nodes_opened]
      exact Nat.le_trans kept grows
    · rcases List.mem_cons.1 later with rfl | further
      · exact grows
      · exact bounds check further

/-- **The counter ends at the size of the tree.** -/
theorem nodes_of_conclude {length : Nat} {items : List Item} {last : State} {tree : Expr}
    (run : items.foldlM advance .start = .ok last) (concluded : conclude length last = .ok tree) :
    last.nodes = tree.nodeCount := by
  have read : readItems length items = .ok tree := bind_eq_ok.2 ⟨last, run, concluded⟩
  obtain ⟨tokens, rfl, derived⟩ := derives_of_readItems read
  obtain ⟨state, reached, counted, _⟩ :=
    readsPhrase_of_derives derived [] 0 fun frame isFirst => by cases isFirst
  rw [foldlM_advance] at run
  cases run.symm.trans reached
  rw [counted, Nat.zero_add]

/-- Reading within limits reads what is read at any size, and counts the same. -/
theorem foldlM_advance_of_feed {limits : Limits} {items : List Item} {state last : State}
    (run : items.foldlM (feed limits) state = .ok last) :
    items.foldlM advance state = .ok last := by
  rcases cutOff_foldlM limits items state with same | ⟨excess, cut⟩
  · exact same.symm.trans run
  · cases cut.symm.trans run

/-! ### The depth of a text -/

/-- **How deeply a text is nested**: the deepest nesting that is checked while it is read. -/
def depthOf (formula : String) : Nat :=
  ((checkpointsOf formula).map State.nesting).foldr max 0

theorem foldr_max_le {values : List Nat} {bound : Nat} :
    values.foldr max 0 ≤ bound ↔ ∀ value ∈ values, value ≤ bound := by
  induction values with
  | nil => simp
  | cons value values ih => rw [List.foldr_cons, Nat.max_le, ih, List.forall_mem_cons]

theorem depthOf_le_iff {formula : String} {bound : Nat} :
    depthOf formula ≤ bound ↔ ∀ check ∈ checkpointsOf formula, check.nesting ≤ bound := by
  rw [depthOf, foldr_max_le, List.forall_mem_map]

/-! ### The thresholds -/

/-- **Limits admit a tree exactly from its size and the depth of its text on.** -/
theorem parse_eq_ok_iff {limits : Limits} {formula : String} {tree : Expr} :
    parse limits formula = .ok tree ↔
      readItems formula.utf8ByteSize (itemsOf formula) = .ok tree ∧
        tree.nodeCount ≤ limits.maxNodes ∧ depthOf formula ≤ limits.maxDepth := by
  constructor
  · intro parsed
    have allowed := allowed_of_parse parsed
    have read : readItems formula.utf8ByteSize (itemsOf formula) = .ok tree :=
      (parse_of_allowed allowed).symm.trans parsed
    obtain ⟨last, run, concluded⟩ := bind_eq_ok.1 read
    have ends := allow_ok_iff.1 (allowed _ (.tail _ (nodes_of_checkpoints run).1))
    rw [nodes_opened, nodes_of_conclude run concluded] at ends
    exact ⟨read, ends.1, depthOf_le_iff.2 fun check member => (allow_ok_iff.1 (allowed _ member)).2⟩
  · rintro ⟨read, few, shallow⟩
    obtain ⟨last, run, concluded⟩ := bind_eq_ok.1 read
    rw [← nodes_of_conclude run concluded] at few
    refine (parse_of_allowed fun check member => allow_ok_iff.2 ⟨?_, ?_⟩).trans read
    · refine Nat.le_trans ?_ few
      rcases List.mem_cons.1 member with rfl | later
      · exact Nat.zero_le _
      · exact (nodes_of_checkpoints run).2.2 check later
    · exact depthOf_le_iff.1 shallow check member

/-- A tree that is parsed within limits passes the check of its size. -/
theorem check_of_parse {limits : Limits} {formula : String} {tree : Expr}
    (parsed : parse limits formula = .ok tree) (excess : Excess) :
    tree.check limits ≠ .error (.tooComplex excess) := by
  unfold Expr.check
  rw [if_neg (Nat.not_lt.2 (parse_eq_ok_iff.1 parsed).2.1)]
  split <;> exact nofun

/-! ### Texts -/

/-- An item takes at least one character. -/
theorem length_items (byte : Nat) (text : List Char) :
    (Scan.items byte text).length ≤ text.length := by
  induction byte, text using Scan.items.induct with
  | case1 byte text found =>
    rw [Scan.items, found]
    exact Nat.zero_le _
  | case2 byte text scanned found ih =>
    rw [Scan.items, found]
    exact Nat.le_trans (Nat.succ_le_succ ih) (Scan.scan_shorter found)

theorem length_itemsOf (formula : String) : (itemsOf formula).length ≤ formula.length :=
  length_items 0 formula.toList

/-- **Limits only ever cut off, at exact thresholds.** Within limits that are at least as large as
the text is long, a text has one answer of its own. If that is a tree, limits admit it from its
number of nodes and from a depth of the text on, and within all others the formula is too complex.
If that is an error, the answer within any limits is this error or that the formula is too
complex. Hence greater limits keep a tree, the counter of nodes ends at the size of the tree, and
the check of an accepted tree's size never fails: a formula that is refused as too complex was not
parsed. -/
theorem parse_thresholds (formula : String) :
    (∃ unlimited,
      (∀ limits : Limits, formula.length ≤ limits.maxNodes → formula.length < limits.maxDepth →
        parse limits formula = unlimited) ∧
      (∀ tree, unlimited = .ok tree → ∃ depth, ∀ limits : Limits,
        (tree.nodeCount ≤ limits.maxNodes ∧ depth ≤ limits.maxDepth →
          parse limits formula = .ok tree) ∧
        (¬ (tree.nodeCount ≤ limits.maxNodes ∧ depth ≤ limits.maxDepth) →
          ∃ excess, parse limits formula = .error (.tooComplex excess))) ∧
      ∀ error, unlimited = .error error → ∀ limits,
        parse limits formula = .error error ∨
          ∃ excess, parse limits formula = .error (.tooComplex excess)) ∧
    (∀ (limits larger : Limits) (tree : Expr), limits.maxNodes ≤ larger.maxNodes →
      limits.maxDepth ≤ larger.maxDepth → parse limits formula = .ok tree →
      parse larger formula = .ok tree) ∧
    (∀ (limits : Limits) (last : State) (tree : Expr),
      (itemsOf formula).foldlM (feed limits) .start = .ok last →
      finish limits formula.utf8ByteSize last = .ok tree → last.nodes = tree.nodeCount) ∧
    ∀ (limits : Limits) (tree : Expr), parse limits formula = .ok tree →
      ∀ excess, tree.check limits ≠ .error (.tooComplex excess) := by
  refine ⟨⟨readItems formula.utf8ByteSize (itemsOf formula), ?_, ?_, ?_⟩, ?_, ?_, ?_⟩
  · intro limits few shallow
    have short := length_itemsOf formula
    exact parse_of_room (Nat.le_trans short few) (Nat.lt_of_le_of_lt short shallow)
  · intro tree read
    refine ⟨depthOf formula, fun limits => ⟨fun within => parse_eq_ok_iff.2 ⟨read, within⟩, ?_⟩⟩
    intro exceeded
    rcases parse_cutOff limits formula with same | cut
    · exact absurd (parse_eq_ok_iff.1 (same.trans read)).2 exceeded
    · exact cut
  · intro error read limits
    rw [← read]
    exact parse_cutOff limits formula
  · intro limits larger tree moreNodes deeper parsed
    obtain ⟨read, few, shallow⟩ := parse_eq_ok_iff.1 parsed
    exact parse_eq_ok_iff.2 ⟨read, Nat.le_trans few moreNodes, Nat.le_trans shallow deeper⟩
  · intro limits last tree run finished
    obtain ⟨_, _, concluded⟩ := bind_eq_ok.1 finished
    exact nodes_of_conclude (foldlM_advance_of_feed run) concluded
  · exact fun limits tree parsed => check_of_parse parsed

/-- `MAX(a)` has two nodes and is two levels deep: its argument is nested. -/
theorem parse_thresholds_call :
    parse ⟨2, 2⟩ "MAX(a)" = .ok (.call "MAX" ⟨0, 3⟩ [.name "a" ⟨4, 1⟩]) ∧
    parse {} "MAX(a)" = .ok (.call "MAX" ⟨0, 3⟩ [.name "a" ⟨4, 1⟩]) ∧
    parse ⟨2, 1⟩ "MAX(a)" = .error (.tooComplex (.nesting 1)) := by
  have parsed : parse ⟨2, 2⟩ "MAX(a)" = .ok (.call "MAX" ⟨0, 3⟩ [.name "a" ⟨4, 1⟩]) := by
    with_unfolding_all rfl
  have larger := (parse_thresholds "MAX(a)").2.1 ⟨2, 2⟩ {} _ (by decide) (by decide) parsed
  exact ⟨parsed, larger, by with_unfolding_all rfl⟩

end ColumnCalc.Parser
