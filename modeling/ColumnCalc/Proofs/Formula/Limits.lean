/-
**Limits only cut off.**

Reading within limits is reading at any size, stopped where a limit is exceeded: `CutOff` relates
the two. A formula is never read to another tree, nor refused for another cause, because of its
limits.

* `parse_cutOff` — the answer within limits is the answer at any size, or that a limit is
  exceeded.
* `parse_of_allowed`, `allowed_of_parse` — the limits are asked at the `checkpoints` of a text and
  nowhere else: a text whose checkpoints they all allow is read as at any size, and a text that is
  read to a tree has no other checkpoints.
* `parse_of_room` — limits as large as the number of items exceed nothing: every token adds at
  most one node and at most one to the nesting (`weight_advance`).
-/

import ColumnCalc.Proofs.Failure
import ColumnCalc.Proofs.Formula.Reading

namespace ColumnCalc.Parser

/-- The tree of the items of a formula of `length` bytes, however large it is. -/
def readItems (length : Nat) (items : List Item) : Except FormulaError Expr := do
  let state ← items.foldlM advance .start
  conclude length state

/-- **The first answer is the second one, cut off** where a limit is exceeded. -/
def CutOff {α : Type} (limited unlimited : Except FormulaError α) : Prop :=
  limited = unlimited ∨ ∃ excess, limited = .error (.tooComplex excess)

theorem CutOff.refl {α : Type} (answer : Except FormulaError α) : CutOff answer answer := .inl rfl

theorem CutOff.bind {α β : Type} {limited unlimited : Except FormulaError α}
    {first second : α → Except FormulaError β} (cutOff : CutOff limited unlimited)
    (further : ∀ value, CutOff (first value) (second value)) :
    CutOff (limited >>= first) (unlimited >>= second) := by
  rcases cutOff with rfl | ⟨excess, rfl⟩
  · cases limited with
    | error error => exact .refl _
    | ok value => exact further value
  · exact .inr ⟨excess, rfl⟩

/-! ### One item and a run -/

/-- Admission lets a state pass or reports an excess. -/
theorem cutOff_allow (limits : Limits) (state : State) : CutOff (limits.allow state) (.ok ()) := by
  unfold Limits.allow
  split
  · exact .inr ⟨_, rfl⟩
  · split
    · exact .inr ⟨_, rfl⟩
    · exact .refl _

theorem cutOff_feed (limits : Limits) (state : State) (item : Item) :
    CutOff (feed limits state item) (advance state item) := by
  have checked : CutOff (feed limits state item)
      (.ok () >>= fun _ => advance state item >>= fun next => .ok () >>= fun _ => .ok next) := by
    refine (cutOff_allow limits _).bind fun _ => (CutOff.refl _).bind fun next => ?_
    exact (cutOff_allow limits next).bind fun _ => .refl _
  cases read : advance state item with
  | error error =>
    rw [read] at checked
    exact checked
  | ok next =>
    rw [read] at checked
    exact checked

theorem cutOff_foldlM (limits : Limits) (items : List Item) (state : State) :
    CutOff (items.foldlM (feed limits) state) (items.foldlM advance state) := by
  induction items generalizing state with
  | nil => exact .refl _
  | cons item items ih =>
    rw [List.foldlM_cons, List.foldlM_cons]
    exact (cutOff_feed limits state item).bind ih

/-- **Limits only cut off.** -/
theorem parse_cutOff (limits : Limits) (formula : String) :
    CutOff (parse limits formula) (readItems formula.utf8ByteSize (itemsOf formula)) := by
  have checked : CutOff (parse limits formula)
      (.ok () >>= fun _ => (itemsOf formula).foldlM advance .start >>= fun state =>
        .ok () >>= fun _ => conclude formula.utf8ByteSize state) := by
    refine (cutOff_allow limits _).bind fun _ => ?_
    refine (cutOff_foldlM limits _ _).bind fun state => ?_
    exact (cutOff_allow limits _).bind fun _ => .refl _
  exact checked

/-! ### Where limits are checked -/

/-- **The states that are checked** while items are read from a state on: before each item, behind
it, and at the end. Nothing is checked behind an item that is refused. -/
def checkpoints (state : State) : List Item → List State
  | [] => [state.opened none]
  | item :: items =>
    state.opened (some item) ::
      match advance state item with
      | .error _ => []
      | .ok next => next :: checkpoints next items

/-- The states that are checked while a formula is read. -/
def checkpointsOf (formula : String) : List State :=
  .start :: checkpoints .start (itemsOf formula)

theorem finish_of_allowed {limits : Limits} {state : State}
    (allowed : limits.allow (state.opened none) = .ok ()) (length : Nat) :
    finish limits length state = conclude length state := by
  rw [finish, allowed]
  rfl

/-- Reading within limits that allow every checked state is reading at any size. -/
theorem run_of_allowed {limits : Limits} {items : List Item} {state : State}
    (allowed : ∀ check ∈ checkpoints state items, limits.allow check = .ok ()) (length : Nat) :
    items.foldlM (feed limits) state >>= finish limits length
      = items.foldlM advance state >>= conclude length := by
  induction items generalizing state with
  | nil => exact finish_of_allowed (allowed _ (.head _)) length
  | cons item items ih =>
    have opens : limits.allow (state.opened (some item)) = .ok () := allowed _ (.head _)
    rw [List.foldlM_cons, List.foldlM_cons, feed, opens]
    cases read : advance state item with
    | error error => rfl
    | ok next =>
      have later : ∀ check ∈ next :: checkpoints next items, limits.allow check = .ok () := by
        intro check member
        refine allowed check (.tail _ ?_)
        rw [read]
        exact member
      show (limits.allow next >>= fun _ => .ok next) >>= (fun state =>
        items.foldlM (feed limits) state) >>= finish limits length = _
      rw [later next (.head _)]
      exact ih fun check member => later check (.tail _ member)

theorem feed_eq_ok {limits : Limits} {state next : State} {item : Item} :
    feed limits state item = .ok next ↔ limits.allow (state.opened (some item)) = .ok () ∧
      advance state item = .ok next ∧ limits.allow next = .ok () := by
  rw [feed, bind_eq_ok]
  constructor
  · rintro ⟨_, opens, went⟩
    obtain ⟨read, isRead, checked⟩ := bind_eq_ok.1 went
    obtain ⟨_, passed, same⟩ := bind_eq_ok.1 checked
    cases same
    exact ⟨opens, isRead, passed⟩
  · rintro ⟨opens, isRead, passed⟩
    exact ⟨(), opens, bind_eq_ok.2 ⟨next, isRead, bind_eq_ok.2 ⟨(), passed, rfl⟩⟩⟩

/-- **An answer is a pass at every check.** -/
theorem allowed_of_run {limits : Limits} {length : Nat} {items : List Item} {state : State}
    {tree : Expr} (run : items.foldlM (feed limits) state >>= finish limits length = .ok tree) :
    ∀ check ∈ checkpoints state items, limits.allow check = .ok () := by
  induction items generalizing state with
  | nil =>
    intro check member
    cases List.mem_singleton.1 member
    obtain ⟨_, passed, _⟩ := bind_eq_ok.1 (show finish limits length state = .ok tree from run)
    exact passed
  | cons item items ih =>
    rw [List.foldlM_cons, bind_assoc] at run
    obtain ⟨next, fed, went⟩ := bind_eq_ok.1 run
    obtain ⟨opens, isRead, passed⟩ := feed_eq_ok.1 fed
    intro check member
    rw [checkpoints, isRead] at member
    rcases List.mem_cons.1 member with rfl | later
    · exact opens
    · rcases List.mem_cons.1 later with rfl | further
      · exact passed
      · exact ih went check further

theorem parse_of_allowed {limits : Limits} {formula : String}
    (allowed : ∀ check ∈ checkpointsOf formula, limits.allow check = .ok ()) :
    parse limits formula = readItems formula.utf8ByteSize (itemsOf formula) := by
  rw [parse, parseItems, allowed _ (.head _)]
  exact run_of_allowed (fun check member => allowed check (.tail _ member)) _

theorem allowed_of_parse {limits : Limits} {formula : String} {tree : Expr}
    (parsed : parse limits formula = .ok tree) :
    ∀ check ∈ checkpointsOf formula, limits.allow check = .ok () := by
  obtain ⟨_, starts, run⟩ := bind_eq_ok.1 parsed
  intro check member
  rcases List.mem_cons.1 member with rfl | later
  · exact starts
  · exact allowed_of_run run check later

/-! ### Limits that exceed nothing -/

/-- How many tokens a state has taken at least: one for every frame, and those of the operand
behind them. -/
def State.weight (state : State) : Nat :=
  state.frames.length +
    match state.phase with
    | .operand => 0
    | .afterName _ _ => 1
    | .afterCall _ _ => 2
    | .complete _ => 1

theorem length_fold_le (keeps : Frame → Bool) (operand : Expr) (frames : List Frame) :
    (fold keeps operand frames).2.length ≤ frames.length := by
  induction frames generalizing operand with
  | nil => exact Nat.le_refl _
  | cons frame frames ih =>
    rw [fold]
    split
    · exact Nat.le_trans (ih _) (Nat.le_succ _)
    · exact Nat.le_refl _

theorem weight_readOperand {frames : List Frame} {nodes : Nat} {token : Token} {next : State}
    (read : readOperand frames nodes token = .ok next) :
    (nodes ≤ next.nodes ∧ next.nodes ≤ nodes + 1) ∧ next.weight ≤ frames.length + 1 := by
  unfold readOperand at read
  split at read
  · cases read
    exact ⟨⟨Nat.le_succ _, Nat.le_refl _⟩, Nat.le_refl _⟩
  · cases read
    exact ⟨⟨Nat.le_succ _, Nat.le_refl _⟩, Nat.le_refl _⟩
  · cases read
    exact ⟨⟨Nat.le_refl _, Nat.le_succ _⟩, Nat.le_refl _⟩
  · split at read
    · cases read
      exact ⟨⟨Nat.le_succ _, Nat.le_refl _⟩, Nat.le_refl _⟩
    · cases read

theorem weight_readClosing {operand : Expr} {frames : List Frame} {nodes : Nat} {token : Token}
    {next : State} (read : readClosing operand frames nodes token = .ok next) :
    (nodes ≤ next.nodes ∧ next.nodes ≤ nodes + 1) ∧ next.weight ≤ frames.length + 1 := by
  have shorter := length_fold_le (fun _ => false) operand frames
  unfold readClosing foldAll at read
  generalize fold (fun _ => false) operand frames = folded at *
  split at read
  · rw [List.length_cons] at shorter
    split at read
    · cases read
      exact ⟨⟨Nat.le_refl _, Nat.le_succ _⟩, by simp only [State.weight]; omega⟩
    · cases read
  · rw [List.length_cons] at shorter
    split at read
    · cases read
      exact ⟨⟨Nat.le_refl _, Nat.le_succ _⟩, by simp only [State.weight, List.length_cons]; omega⟩
    · cases read
      exact ⟨⟨Nat.le_refl _, Nat.le_succ _⟩, by simp only [State.weight]; omega⟩
    · cases read
  · cases read

theorem weight_readComplete {operand : Expr} {frames : List Frame} {nodes : Nat} {token : Token}
    {next : State} (read : readComplete operand frames nodes token = .ok next) :
    (nodes ≤ next.nodes ∧ next.nodes ≤ nodes + 1) ∧ next.weight ≤ frames.length + 1 := by
  cases isSign : operator? token.kind with
  | none => exact weight_readClosing (readClosing_of_readComplete isSign read)
  | some op =>
    have shorter := length_fold_le (·.goesOn (levelOf op)) operand frames
    rw [readComplete_operator isSign] at read
    cases read
    exact ⟨⟨Nat.le_succ _, Nat.le_refl _⟩, by simp only [State.weight, List.length_cons]; omega⟩

/-- **A token adds at most one node and one frame**, and takes no node back. -/
theorem weight_advance {state next : State} {token : Token}
    (read : advance state (.ok token) = .ok next) :
    (state.nodes ≤ next.nodes ∧ next.nodes ≤ state.nodes + 1) ∧
      next.weight ≤ state.weight + 1 := by
  obtain ⟨phase, frames, nodes⟩ := state
  cases phase with
  | operand => exact weight_readOperand read
  | afterName name span =>
    simp only [advance] at read
    split at read
    · cases read
      exact ⟨⟨Nat.le_refl _, Nat.le_succ _⟩, Nat.le_refl _⟩
    · obtain ⟨counted, weighed⟩ := weight_readComplete read
      exact ⟨counted, Nat.le_trans weighed (Nat.le_succ _)⟩
  | afterCall function span =>
    simp only [advance] at read
    split at read
    · cases read
      exact ⟨⟨Nat.le_refl _, Nat.le_succ _⟩, by simp only [State.weight]; omega⟩
    · obtain ⟨counted, weighed⟩ := weight_readOperand read
      rw [List.length_cons] at weighed
      exact ⟨counted, Nat.le_trans weighed (Nat.le_succ _)⟩
  | complete operand =>
    obtain ⟨counted, weighed⟩ := weight_readComplete read
    exact ⟨counted, Nat.le_trans weighed (Nat.le_succ _)⟩

theorem nesting_le_weight (state : State) : state.nesting ≤ state.weight + 1 := by
  simp only [State.nesting, State.weight]
  omega

theorem nesting_opened_le_weight (state : State) (item : Option Item) :
    (state.opened item).nesting ≤ state.weight + 1 := by
  obtain ⟨phase, frames, nodes⟩ := state
  unfold State.opened
  split
  · exact nesting_le_weight _
  · rename_i isCall _
    cases isCall
    simp only [State.nesting, State.weight, List.length_cons]
    omega
  · exact nesting_le_weight _

theorem nodes_opened (state : State) (item : Option Item) :
    (state.opened item).nodes = state.nodes := by
  unfold State.opened
  split <;> rfl

theorem allow_ok_iff {limits : Limits} {state : State} :
    limits.allow state = .ok () ↔
      state.nodes ≤ limits.maxNodes ∧ state.nesting ≤ limits.maxDepth := by
  unfold Limits.allow
  split
  · rename_i large
    exact ⟨nofun, fun within => absurd within.1 (Nat.not_le.2 large)⟩
  · rename_i few
    split
    · rename_i deep
      exact ⟨nofun, fun within => absurd within.2 (Nat.not_le.2 deep)⟩
    · rename_i shallow
      exact ⟨fun _ => ⟨Nat.not_lt.1 few, Nat.not_lt.1 shallow⟩, fun _ => rfl⟩

/-- **What one item adds bounds every check**: as many nodes and levels as there are items. -/
theorem checkpoint_bounds {state check : State} {items : List Item}
    (member : check ∈ checkpoints state items) :
    check.nodes ≤ state.nodes + items.length ∧
      check.nesting ≤ state.weight + items.length + 1 := by
  induction items generalizing state with
  | nil =>
    cases List.mem_singleton.1 member
    rw [nodes_opened]
    exact ⟨Nat.le_refl _, nesting_opened_le_weight state none⟩
  | cons item items ih =>
    rw [List.length_cons]
    rcases List.mem_cons.1 member with rfl | later
    · have nested := nesting_opened_le_weight state (some item)
      rw [nodes_opened]
      omega
    · cases read : advance state item with
      | error error =>
        rw [read] at later
        cases later
      | ok next =>
        rw [read] at later
        cases item with
        | error error => cases read
        | ok token =>
          obtain ⟨counted, weighed⟩ := weight_advance read
          rcases List.mem_cons.1 later with rfl | further
          · have nested := nesting_le_weight check
            omega
          · have bounds := ih further
            omega

/-- **Limits exceed nothing that leaves room for every item.** -/
theorem parse_of_room {limits : Limits} {formula : String}
    (few : (itemsOf formula).length ≤ limits.maxNodes)
    (shallow : (itemsOf formula).length < limits.maxDepth) :
    parse limits formula = readItems formula.utf8ByteSize (itemsOf formula) := by
  refine parse_of_allowed fun check member => allow_ok_iff.2 ?_
  rcases List.mem_cons.1 member with rfl | later
  · exact ⟨Nat.zero_le _, Nat.lt_of_le_of_lt (Nat.zero_le _) shallow⟩
  · obtain ⟨counted, nested⟩ := checkpoint_bounds later
    rw [show State.start.nodes = 0 from rfl, Nat.zero_add] at counted
    rw [show State.start.weight = 0 from rfl, Nat.zero_add] at nested
    exact ⟨Nat.le_trans counted few, Nat.le_trans nested shallow⟩

theorem foldlM_advance (state : State) (tokens : List Token) :
    (tokens.map .ok).foldlM advance state = advanceAll state tokens :=
  List.foldlM_map ..

/-- **Ample limits exceed nothing.** -/
theorem parse_of_ample {limits : Limits} {formula : String} {tokens : List Token}
    (isTokens : itemsOf formula = tokens.map .ok) (few : tokens.length ≤ limits.maxNodes)
    (shallow : tokens.length < limits.maxDepth) :
    parse limits formula = readItems formula.utf8ByteSize (itemsOf formula) := by
  have same : (itemsOf formula).length = tokens.length := by rw [isTokens, List.length_map]
  rw [← same] at few shallow
  exact parse_of_room few shallow

end ColumnCalc.Parser
