/-
**Reading does not look at places.**

Tokens know where they start, and trees and errors carry spans made of that; no decision rests on
them. `unplaced` takes the places away, from a token as from all that is made of tokens. Readings of
two lists of items that differ in places only (`Displaced`) end alike: in the same tree, or in an
error of the same cause.

* `fold_unplaced` — closing frames, without places.
* `displaced_advance`, `displaced_feed`, `displaced_run` — one item, one item within limits, a run.
* `displaced_parseItems` — a whole formula; its length decides as little as its places.
* `displaced_check` — what is checked of a tree.
-/

import ColumnCalc.Formula.Basic
import ColumnCalc.Proofs.Formula.Reading
import ColumnCalc.Proofs.Formula.Subtree

namespace ColumnCalc

/-! ### Without places -/

mutual

/-- A tree without its places. -/
def Expr.unplaced : Expr → Expr
  | .literal value => .literal value
  | .name text _ => .name text default
  | .unary op operand => .unary op operand.unplaced
  | .binary op lhs rhs => .binary op lhs.unplaced rhs.unplaced
  | .call function _ arguments => .call function default (Expr.unplacedAll arguments)

/-- Several trees without their places. -/
def Expr.unplacedAll : List Expr → List Expr
  | [] => []
  | first :: rest => first.unplaced :: Expr.unplacedAll rest

end

/-- An error without its place: its cause. -/
def FormulaError.unplaced : FormulaError → FormulaError
  | .malformed fault _ => .malformed fault default
  | .disallowedConstruct construct _ => .disallowedConstruct construct default
  | .disallowedFunction name _ => .disallowedFunction name default
  | .tooComplex excess => .tooComplex excess

/-- A token without its place. -/
def Token.unplaced (token : Token) : Token :=
  { token with offset := 0 }

@[simp] theorem Token.kind_unplaced (token : Token) : token.unplaced.kind = token.kind := rfl

/-- An outcome without places. -/
def withoutPlaces {α : Type} (change : α → α) : Except FormulaError α → Except FormulaError α
  | .ok value => .ok (change value)
  | .error error => .error error.unplaced

/-- **Two outcomes that differ in places only.** -/
def Displaced {α : Type} (change : α → α) (outcome other : Except FormulaError α) : Prop :=
  withoutPlaces change outcome = withoutPlaces change other

/-- Kind and message of an error do not depend on its place. -/
theorem FormulaError.code_unplaced (error : FormulaError) : error.unplaced.code = error.code := by
  cases error <;> rfl

theorem FormulaError.message_unplaced (error : FormulaError) :
    error.unplaced.message = error.message := by
  cases error <;> rfl

theorem Expr.unplacedAll_eq (trees : List Expr) : unplacedAll trees = trees.map unplaced := by
  induction trees with
  | nil => rfl
  | cons first rest ih => rw [unplacedAll, ih, List.map_cons]

@[simp] theorem Expr.unplaced_unplaced (tree : Expr) : tree.unplaced.unplaced = tree.unplaced := by
  induction tree using Expr.induct with
  | literal value => rfl
  | name text span => rfl
  | unary op operand ih => simp only [unplaced, ih]
  | binary op lhs rhs left right => simp only [unplaced, left, right]
  | call function span arguments ih =>
    simp only [unplaced, unplacedAll_eq, List.map_map]
    exact congrArg _ (List.map_congr_left ih)

@[simp] theorem FormulaError.unplaced_unplaced (error : FormulaError) :
    error.unplaced.unplaced = error.unplaced := by
  cases error <;> rfl

namespace Parser

def Frame.unplaced : Frame → Frame
  | .binary op lhs => .binary op lhs.unplaced
  | .sign op => .sign op
  | .paren => .paren
  | .argument function _ earlier => .argument function default (earlier.map Expr.unplaced)

def Phase.unplaced : Phase → Phase
  | .operand => .operand
  | .afterName name _ => .afterName name default
  | .afterCall function _ => .afterCall function default
  | .complete tree => .complete tree.unplaced

/-- A state without the places of what has been read. -/
def State.unplaced (state : State) : State :=
  ⟨state.phase.unplaced, state.frames.map Frame.unplaced, state.nodes⟩

@[simp] theorem Frame.unplaced_unplaced (frame : Frame) :
    frame.unplaced.unplaced = frame.unplaced := by
  cases frame <;> simp [unplaced]

@[simp] theorem Phase.unplaced_unplaced (phase : Phase) :
    phase.unplaced.unplaced = phase.unplaced := by
  cases phase <;> simp [unplaced]

/-- Frames without places have none to lose. -/
theorem map_unplaced (frames : List Frame) :
    (frames.map Frame.unplaced).map Frame.unplaced = frames.map Frame.unplaced := by
  rw [List.map_map]
  exact List.map_congr_left fun frame _ => frame.unplaced_unplaced

@[simp] theorem State.unplaced_unplaced (state : State) :
    state.unplaced.unplaced = state.unplaced := by
  simp only [unplaced, Phase.unplaced_unplaced, map_unplaced]

end Parser

/-! ### Displaced outcomes -/

theorem Displaced.refl {α : Type} {change : α → α} (outcome : Except FormulaError α) :
    Displaced change outcome outcome := rfl

theorem Displaced.ok {α : Type} {change : α → α} {value other : α}
    (same : change value = change other) :
    Displaced change (.ok value) (.ok other) :=
  congrArg Except.ok same

theorem Displaced.error {α : Type} {change : α → α} {error other : FormulaError}
    (same : error.unplaced = other.unplaced) : Displaced change (.error error) (.error other) :=
  congrArg Except.error same

/-- What goes on in the same way behind displaced steps is displaced. -/
theorem Displaced.bind {α β : Type} {change : α → α} {changeNext : β → β}
    {first second : Except FormulaError α} {next other : α → Except FormulaError β}
    (displaced : Displaced change first second)
    (further : ∀ value same, change value = change same →
      Displaced changeNext (next value) (other same)) :
    Displaced changeNext (first >>= next) (second >>= other) := by
  cases first with
  | ok value =>
    cases second with
    | ok same => exact further value same (Except.ok.inj displaced)
    | error error => cases displaced
  | error error =>
    cases second with
    | ok same => cases displaced
    | error other => exact .error (Except.error.inj displaced)

/-! ### Frames -/

namespace Parser

theorem Frame.goesOn_unplaced (frame : Frame) (level : Level) :
    frame.unplaced.goesOn level = frame.goesOn level := by
  cases frame <;> rfl

theorem Frame.close?_unplaced (frame : Frame) (operand : Expr) :
    frame.unplaced.close? operand.unplaced = (frame.close? operand).map Expr.unplaced := by
  cases frame <;> rfl

/-- **Closing frames, without places.** -/
theorem fold_unplaced {keeps : Frame → Bool} (blind : ∀ frame, keeps frame.unplaced = keeps frame)
    (operand : Expr) (frames : List Frame) :
    fold keeps operand.unplaced (frames.map Frame.unplaced)
      = ((fold keeps operand frames).1.unplaced,
          (fold keeps operand frames).2.map Frame.unplaced) := by
  induction frames generalizing operand with
  | nil => rfl
  | cons frame frames ih =>
    have closed := frame.close?_unplaced operand
    cases closes : frame.close? operand with
    | none =>
      rw [closes] at closed
      rw [List.map_cons, fold_open closes, fold_open closed, List.map_cons]
    | some tree =>
      rw [closes] at closed
      cases kept : keeps frame with
      | true =>
        rw [List.map_cons, fold_kept kept, fold_kept ((blind frame).trans kept), List.map_cons]
      | false =>
        rw [List.map_cons, fold_closed kept closes,
          fold_closed ((blind frame).trans kept) closed, ih]

/-! ### One item -/

theorem unplaced_rejection (token : Token) (fault : SyntaxFault) :
    (token.unplaced.rejection fault).unplaced = (token.rejection fault).unplaced := by
  unfold Token.rejection
  rw [Token.kind_unplaced]
  split <;> rfl

theorem displaced_state {phase otherPhase : Phase} {frames otherFrames : List Frame} (nodes : Nat)
    (samePhase : phase.unplaced = otherPhase.unplaced)
    (sameFrames : frames.map Frame.unplaced = otherFrames.map Frame.unplaced) :
    Displaced State.unplaced (.ok ⟨phase, frames, nodes⟩) (.ok ⟨otherPhase, otherFrames, nodes⟩) :=
  .ok (by rw [State.unplaced, samePhase, sameFrames, State.unplaced])

theorem displaced_readOperand (frames : List Frame) (nodes : Nat) (token : Token) :
    Displaced State.unplaced (readOperand (frames.map Frame.unplaced) nodes token.unplaced)
      (readOperand frames nodes token) := by
  simp only [readOperand, Token.kind_unplaced]
  split
  · exact displaced_state _ rfl (map_unplaced frames)
  · exact displaced_state _ rfl (map_unplaced frames)
  · exact displaced_state _ rfl (map_unplaced (.paren :: frames))
  · split
    · rename_i op _
      exact displaced_state _ rfl (map_unplaced (.sign op :: frames))
    · exact .error (unplaced_rejection token _)

theorem displaced_readClosing (operand : Expr) (frames : List Frame) (nodes : Nat) (token : Token) :
    Displaced State.unplaced
      (readClosing operand.unplaced (frames.map Frame.unplaced) nodes token.unplaced)
      (readClosing operand frames nodes token) := by
  have folded : foldAll operand.unplaced (frames.map Frame.unplaced)
      = ((foldAll operand frames).1.unplaced, (foldAll operand frames).2.map Frame.unplaced) :=
    fold_unplaced (fun _ => rfl) operand frames
  simp only [readClosing, folded]
  obtain ⟨tree, left⟩ := foldAll operand frames
  cases left with
  | nil => exact .error (unplaced_rejection token _)
  | cons frame left =>
    have sameFrames := map_unplaced left
    cases frame with
    | binary op lhs => exact .error (unplaced_rejection token _)
    | sign op => exact .error (unplaced_rejection token _)
    | paren =>
      simp only [List.map_cons, Frame.unplaced, Token.kind_unplaced]
      split
      · exact displaced_state _ (congrArg Phase.complete tree.unplaced_unplaced) sameFrames
      · exact .error (unplaced_rejection token _)
    | argument function span earlier =>
      have arguments : earlier.map Expr.unplaced ++ [tree.unplaced]
          = (earlier ++ [tree]).map Expr.unplaced := by
        rw [List.map_append, List.map_singleton]
      simp only [List.map_cons, Frame.unplaced, Token.kind_unplaced, arguments]
      split
      · exact displaced_state _ rfl
          (map_unplaced (.argument function span (earlier ++ [tree]) :: left))
      · rw [← Expr.unplacedAll_eq]
        refine displaced_state _ (congrArg Phase.complete ?_) sameFrames
        exact Expr.unplaced_unplaced (.call function span (earlier ++ [tree]))
      · exact .error (unplaced_rejection token _)

theorem displaced_readComplete (operand : Expr) (frames : List Frame) (nodes : Nat)
    (token : Token) :
    Displaced State.unplaced
      (readComplete operand.unplaced (frames.map Frame.unplaced) nodes token.unplaced)
      (readComplete operand frames nodes token) := by
  simp only [readComplete, Token.kind_unplaced]
  split
  · exact .error rfl
  · split
    · exact .error rfl
    · rename_i op _ _
      rw [fold_unplaced (fun frame => frame.goesOn_unplaced (levelOf op)) operand frames]
      obtain ⟨tree, left⟩ := fold (·.goesOn (levelOf op)) operand frames
      exact displaced_state _ rfl (map_unplaced (.binary op tree :: left))
    · exact displaced_readClosing operand frames nodes token

/-- **One item.** -/
theorem displaced_advance (state : State) (item : Item) :
    Displaced State.unplaced (advance state.unplaced (withoutPlaces Token.unplaced item))
      (advance state item) := by
  cases item with
  | error error => exact .error error.unplaced_unplaced
  | ok token =>
    obtain ⟨phase, frames, nodes⟩ := state
    cases phase with
    | operand => exact displaced_readOperand frames nodes token
    | afterName name span =>
      simp only [withoutPlaces, advance, State.unplaced, Phase.unplaced, Token.kind_unplaced]
      split
      · exact displaced_state _ rfl (map_unplaced frames)
      · exact displaced_readComplete (.name name span) frames nodes token
    | afterCall function span =>
      simp only [withoutPlaces, advance, State.unplaced, Phase.unplaced, Token.kind_unplaced]
      split
      · exact displaced_state _ rfl (map_unplaced frames)
      · exact displaced_readOperand (.argument function span [] :: frames) nodes token
    | complete tree => exact displaced_readComplete tree frames nodes token

/-! ### The end of a formula -/

theorem displaced_concludeComplete (length other : Nat) (operand : Expr) (frames : List Frame) :
    Displaced Expr.unplaced (concludeComplete length operand.unplaced (frames.map Frame.unplaced))
      (concludeComplete other operand frames) := by
  have folded : foldAll operand.unplaced (frames.map Frame.unplaced)
      = ((foldAll operand frames).1.unplaced, (foldAll operand frames).2.map Frame.unplaced) :=
    fold_unplaced (fun _ => rfl) operand frames
  simp only [concludeComplete, folded]
  obtain ⟨tree, left⟩ := foldAll operand frames
  cases left with
  | nil => exact .ok tree.unplaced_unplaced
  | cons frame left => cases frame <;> exact .error rfl

/-- **The end**; how long the formula is shows in the place of an error only. -/
theorem displaced_conclude (length other : Nat) (state : State) :
    Displaced Expr.unplaced (conclude length state.unplaced) (conclude other state) := by
  obtain ⟨phase, frames, nodes⟩ := state
  cases phase with
  | operand => exact .error rfl
  | afterName name span => exact displaced_concludeComplete length other (.name name span) frames
  | afterCall function span => exact .error rfl
  | complete tree => exact displaced_concludeComplete length other tree frames

/-! ### Within limits -/

theorem allow_unplaced (limits : Limits) (state : State) :
    limits.allow state.unplaced = limits.allow state := by
  have nesting : state.unplaced.nesting = state.nesting := congrArg (· + 1) (List.length_map _)
  rw [Limits.allow, nesting]
  rfl

theorem opened_unplaced (state : State) (item : Option Item) :
    state.unplaced.opened (item.map (withoutPlaces Token.unplaced))
      = (state.opened item).unplaced := by
  obtain ⟨phase, frames, nodes⟩ := state
  cases phase with
  | operand => rfl
  | afterName name span => rfl
  | complete tree => rfl
  | afterCall function span =>
    match item with
    | none => rfl
    | some (.error error) => rfl
    | some (.ok ⟨kind, literal, offset⟩) => cases kind <;> rfl

theorem displaced_allow (limits : Limits) {state other : State}
    (same : state.unplaced = other.unplaced) :
    Displaced id (limits.allow state) (limits.allow other) := by
  rw [← allow_unplaced, same, allow_unplaced]
  exact .refl _

theorem feed_unplaced (limits : Limits) (state : State) (item : Item) :
    Displaced State.unplaced (feed limits state.unplaced (withoutPlaces Token.unplaced item))
      (feed limits state item) := by
  have opened : Displaced id
      (limits.allow (state.unplaced.opened (some (withoutPlaces Token.unplaced item))))
      (limits.allow (state.opened (some item))) := by
    rw [← Option.map_some, opened_unplaced]
    exact displaced_allow limits (state.opened (some item)).unplaced_unplaced
  exact opened.bind fun _ _ _ => (displaced_advance state item).bind fun _ _ sameNext =>
    (displaced_allow limits sameNext).bind fun _ _ _ => .ok sameNext

/-- **One item within limits.** -/
theorem displaced_feed (limits : Limits) {state other : State}
    (same : state.unplaced = other.unplaced) {item otherItem : Item}
    (sameItem : Displaced Token.unplaced item otherItem) :
    Displaced State.unplaced (feed limits state item) (feed limits other otherItem) := by
  have unplaced := feed_unplaced limits state item
  rw [same, sameItem] at unplaced
  exact unplaced.symm.trans (feed_unplaced limits other otherItem)

/-- **A run.** -/
theorem displaced_run (limits : Limits) {items others : List Item}
    (same : items.map (withoutPlaces Token.unplaced) = others.map (withoutPlaces Token.unplaced))
    {state other : State} (sameState : state.unplaced = other.unplaced) :
    Displaced State.unplaced (items.foldlM (feed limits) state)
      (others.foldlM (feed limits) other) := by
  induction items generalizing others state other with
  | nil =>
    cases List.map_eq_nil_iff.1 same.symm
    exact .ok sameState
  | cons item items ih =>
    obtain ⟨otherItem, others, rfl, sameItem, sameRest⟩ := List.map_eq_cons_iff.1 same.symm
    rw [List.foldlM_cons, List.foldlM_cons]
    exact (displaced_feed limits sameState sameItem.symm).bind fun next final sameNext =>
      ih sameRest.symm sameNext

theorem finish_unplaced (limits : Limits) (length other : Nat) (state : State) :
    Displaced Expr.unplaced (finish limits length state.unplaced) (finish limits other state) := by
  have opened : Displaced id (limits.allow (state.unplaced.opened none))
      (limits.allow (state.opened none)) := by
    rw [← Option.map_none, opened_unplaced]
    exact displaced_allow limits (state.opened none).unplaced_unplaced
  exact opened.bind fun _ _ _ => displaced_conclude length other state

theorem displaced_finish (limits : Limits) (length otherLength : Nat) {state other : State}
    (same : state.unplaced = other.unplaced) :
    Displaced Expr.unplaced (finish limits length state) (finish limits otherLength other) := by
  have unplaced := finish_unplaced limits length length state
  rw [same] at unplaced
  exact unplaced.symm.trans (finish_unplaced limits length otherLength other)

/-- **Lists of items that differ in places only are parsed alike.** -/
theorem displaced_parseItems (limits : Limits) (length otherLength : Nat) {items others : List Item}
    (same : items.map (withoutPlaces Token.unplaced) = others.map (withoutPlaces Token.unplaced)) :
    Displaced Expr.unplaced (parseItems limits length items)
      (parseItems limits otherLength others) := by
  have start := displaced_allow limits (Eq.refl State.start.unplaced)
  exact start.bind fun _ _ _ => (displaced_run limits same rfl).bind fun _ _ sameState =>
    displaced_finish limits length otherLength sameState

end Parser

/-! ### The check of a tree -/

namespace Expr

mutual

theorem nodeCount_unplaced : ∀ tree : Expr, tree.unplaced.nodeCount = tree.nodeCount
  | .literal _ => rfl
  | .name _ _ => rfl
  | .unary _ operand => by rw [unplaced, nodeCount, nodeCount_unplaced operand, nodeCount]
  | .binary _ lhs rhs => by
    rw [unplaced, nodeCount, nodeCount_unplaced lhs, nodeCount_unplaced rhs, nodeCount]
  | .call _ _ arguments => by
    rw [unplaced, nodeCount, nodeCounts_unplaced arguments, nodeCount]

theorem nodeCounts_unplaced : ∀ trees : List Expr, nodeCounts (unplacedAll trees) = nodeCounts trees
  | [] => rfl
  | first :: rest => by
    rw [unplacedAll, nodeCounts, nodeCount_unplaced first, nodeCounts_unplaced rest, nodeCounts]

end

mutual

theorem forbiddenCall_unplaced : ∀ tree : Expr,
    tree.unplaced.forbiddenCall? = tree.forbiddenCall?.map fun found => (found.1, default)
  | .literal _ => rfl
  | .name _ _ => rfl
  | .unary _ operand => by
    rw [unplaced, forbiddenCall?, forbiddenCall_unplaced operand, forbiddenCall?]
  | .binary _ lhs rhs => by
    rw [unplaced, forbiddenCall?, forbiddenCall_unplaced lhs, forbiddenCall_unplaced rhs,
      forbiddenCall?, Option.map_or]
  | .call _ _ arguments => by
    rw [unplaced, forbiddenCall?, forbiddenCall?]
    split
    · rfl
    · exact forbiddenCallOfAll_unplaced arguments

theorem forbiddenCallOfAll_unplaced : ∀ trees : List Expr,
    forbiddenCallOfAll? (unplacedAll trees)
      = (forbiddenCallOfAll? trees).map fun found => (found.1, default)
  | [] => rfl
  | first :: rest => by
    rw [unplacedAll, forbiddenCallOfAll?, forbiddenCall_unplaced first,
      forbiddenCallOfAll_unplaced rest, forbiddenCallOfAll?, Option.map_or]

end

theorem check_unplaced (limits : Limits) (tree : Expr) :
    Displaced id (tree.unplaced.check limits) (tree.check limits) := by
  unfold check
  rw [nodeCount_unplaced, forbiddenCall_unplaced]
  split
  · exact .refl _
  · cases tree.forbiddenCall? with
    | none => exact .refl _
    | some found => exact .error rfl

theorem displaced_check (limits : Limits) {tree other : Expr}
    (same : tree.unplaced = other.unplaced) :
    Displaced id (tree.check limits) (other.check limits) := by
  have unplaced := check_unplaced limits tree
  rw [same] at unplaced
  exact unplaced.symm.trans (check_unplaced limits other)

end Expr

/-- **Acceptance**: two texts whose items differ in places only are accepted alike. -/
theorem displaced_accept (limits : Limits) {text other : String}
    (same : (itemsOf text).map (withoutPlaces Token.unplaced)
      = (itemsOf other).map (withoutPlaces Token.unplaced)) :
    Displaced Expr.unplaced ((Formula.accept text limits).map Formula.tree)
      ((Formula.accept other limits).map Formula.tree) := by
  have accepted (text : String) : (Formula.accept text limits).map Formula.tree
      = parse limits text >>= fun tree => tree.check limits >>= fun _ => .ok tree := by
    unfold Formula.accept
    cases parse limits text with
    | error error => rfl
    | ok tree =>
      show (tree.check limits >>= fun _ => Except.ok (Formula.mk text tree)).map Formula.tree
        = tree.check limits >>= fun _ => .ok tree
      cases tree.check limits <;> rfl
  rw [accepted, accepted]
  exact (Parser.displaced_parseItems limits _ _ same).bind fun tree final sameTree =>
    (Expr.displaced_check limits sameTree).bind fun _ _ _ => .ok sameTree

end ColumnCalc
