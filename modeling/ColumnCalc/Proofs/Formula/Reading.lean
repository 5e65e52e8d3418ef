/-
**What the automaton has read.**

A state of the automaton stands for the tokens read so far: its frames spell the constructs that are
still open, and its phase the operand behind them. `Reads` says so, and it carries the soundness of
reading:

* `reads_advance` — one token takes a state that reads some tokens to one that reads one more.
* `reads_advanceAll` — so does a run.
* `derives_of_conclude` — a formula that ends in a tree spells that tree.
* `viable_of_reads` — whatever has been read is the start of a sentence: a number for the awaited
  operand and a closing parenthesis for every open one complete it.

The invariant of the stack is `Opened`: every operator stands on frames that go on at its level
(`Admits`). This is where grouping comes from: `awaited` says which symbol the innermost frame waits
for, and the tree that a frame makes of its operand is again one that the next frame waits for
(`awaited_of_whole`).
-/

import ColumnCalc.Formula.Parser
import ColumnCalc.Proofs.Formula.Grammar

namespace ColumnCalc.Parser

open Grammar (Phrase Derives Viable EndsInOperand sumSigns productSigns prefixSigns)

/-- Reads tokens one by one. -/
def advanceAll (state : State) (tokens : List Token) : Except FormulaError State :=
  tokens.foldlM (fun state token => advance state (.ok token)) state

theorem advanceAll_cons (state : State) (token : Token) (tokens : List Token) :
    advanceAll state (token :: tokens)
      = advance state (.ok token) >>= fun next => advanceAll next tokens := rfl

theorem advanceAll_append (state : State) (first rest : List Token) :
    advanceAll state (first ++ rest)
      = advanceAll state first >>= fun next => advanceAll next rest :=
  List.foldlM_append

/-! ### Levels and the symbols of the grammar -/

/-- The innermost frame goes on at a level. -/
def Admits (frames : List Frame) (level : Level) : Prop :=
  ∀ frame ∈ frames.head?, frame.goesOn level = true

/-- The left operand of an operator of a level. -/
def leftPhrase : Level → Expr → Phrase
  | .sum, tree => .expr tree
  | .product, tree => .term tree
  | .power, tree => .primary tree

/-- The right operand of an operator of a level. -/
def rightPhrase : Level → Expr → Phrase
  | .sum, tree => .term tree
  | .product, tree => .unary tree
  | .power, tree => .unary tree

/-- What an operator of a level makes of its operands. -/
def wholePhrase : Level → Expr → Phrase
  | .sum, tree => .expr tree
  | .product, tree => .term tree
  | .power, tree => .power tree

/-- What a frame makes of its operand, for frames that end with it. -/
def closedPhrase : Frame → Expr → Phrase
  | .binary op _, tree => wholePhrase (levelOf op) tree
  | .sign _, tree => .unary tree
  | .paren, tree => .primary tree
  | .argument .., tree => .primary tree

/-- What the innermost frame waits for. -/
def awaited : List Frame → Expr → Phrase
  | .binary op _ :: _, tree => rightPhrase (levelOf op) tree
  | .sign _ :: _, tree => .unary tree
  | _, tree => .expr tree

theorem awaited_of_unary (frames : List Frame) {tree : Expr} {tokens : List Token}
    (derived : Derives (.unary tree) tokens) : Derives (awaited frames tree) tokens := by
  cases frames with
  | nil => exact derived.expr_of_unary
  | cons frame frames =>
    cases frame with
    | binary op lhs =>
      cases op with
      | add => exact .ofUnary derived
      | sub => exact .ofUnary derived
      | mul => exact derived
      | div => exact derived
      | pow => exact derived
    | sign op => exact derived
    | paren => exact derived.expr_of_unary
    | argument function span earlier => exact derived.expr_of_unary

theorem expr_of_awaited (frames : List Frame) {tree : Expr} {tokens : List Token}
    (derived : Derives (awaited frames tree) tokens) : Derives (.expr tree) tokens := by
  cases frames with
  | nil => exact derived
  | cons frame frames =>
    cases frame with
    | binary op lhs =>
      cases op with
      | add => exact .ofTerm derived
      | sub => exact .ofTerm derived
      | mul => exact derived.expr_of_unary
      | div => exact derived.expr_of_unary
      | pow => exact derived.expr_of_unary
    | sign op => exact derived.expr_of_unary
    | paren => exact derived
    | argument function span earlier => exact derived

/-- **Grouping**: what an operator makes of its operands is what the frame below it waits for. -/
theorem awaited_of_whole {frames : List Frame} {level : Level} (admits : Admits frames level)
    {tree : Expr} {tokens : List Token} (derived : Derives (wholePhrase level tree) tokens) :
    Derives (awaited frames tree) tokens := by
  cases level with
  | power => exact awaited_of_unary frames (.ofPower derived)
  | sum =>
    cases frames with
    | nil => exact derived
    | cons frame frames =>
      have goesOn := admits frame rfl
      cases frame with
      | binary op lhs => cases op <;> cases goesOn
      | sign op => cases goesOn
      | paren => exact derived
      | argument function span earlier => exact derived
  | product =>
    cases frames with
    | nil => exact .ofTerm derived
    | cons frame frames =>
      have goesOn := admits frame rfl
      cases frame with
      | binary op lhs =>
        cases op with
        | add => exact derived
        | sub => exact derived
        | mul => cases goesOn
        | div => cases goesOn
        | pow => cases goesOn
      | sign op => cases goesOn
      | paren => exact .ofTerm derived
      | argument function span earlier => exact .ofTerm derived

/-- What a frame makes of its operand may stand to the left of an operator at which the frame does
not go on. -/
theorem left_of_closed {frame : Frame} {level : Level} (ends : frame.goesOn level = false)
    {tree : Expr} {tokens : List Token} (derived : Derives (closedPhrase frame tree) tokens) :
    Derives (leftPhrase level tree) tokens := by
  cases level with
  | power =>
    cases frame with
    | binary op lhs => cases op <;> cases ends
    | sign op => cases ends
    | paren => cases ends
    | argument function span earlier => cases ends
  | product =>
    cases frame with
    | binary op lhs =>
      cases op with
      | add => cases ends
      | sub => cases ends
      | mul => exact derived
      | div => exact derived
      | pow => exact derived.term_of_power
    | sign op => exact .ofUnary derived
    | paren => cases ends
    | argument function span earlier => cases ends
  | sum =>
    cases frame with
    | binary op lhs =>
      cases op with
      | add => exact derived
      | sub => exact derived
      | mul => exact .ofTerm derived
      | div => exact .ofTerm derived
      | pow => exact .ofTerm derived.term_of_power
    | sign op => exact derived.expr_of_unary
    | paren => cases ends
    | argument function span earlier => cases ends

/-! ### The tokens of a stack of frames -/

/-- Complete arguments, each with the comma behind it. -/
inductive Listed : List Expr → List Token → Prop
  | nil : Listed [] []
  | snoc {trees : List Expr} {tree : Expr} {before tokens : List Token} {comma : Token} :
      Listed trees before → Derives (.expr tree) tokens → comma.kind = .comma →
      Listed (trees ++ [tree]) (before ++ tokens ++ [comma])

/-- Arguments behind complete ones. -/
theorem Listed.arguments {earlier trees : List Expr} {before tokens : List Token}
    (listed : Listed earlier before) (derived : Derives (.arguments trees) tokens) :
    Derives (.arguments (earlier ++ trees)) (before ++ tokens) := by
  induction listed generalizing trees tokens with
  | nil => exact derived
  | snoc _ argument isComma ih =>
    rw [List.append_assoc, List.append_assoc, List.append_assoc]
    exact ih (.more argument isComma derived)

/-- **The tokens spell the open constructs of a stack of frames**, the innermost frame first. -/
inductive Opened : List Frame → List Token → Prop
  | nil : Opened [] []
  | binary {frames : List Frame} {before left : List Token} {sign : Token} {op : BinaryOp}
      {lhs : Expr} :
      Opened frames before → Admits frames (levelOf op) →
      Derives (leftPhrase (levelOf op) lhs) left → operator? sign.kind = some op →
      Opened (.binary op lhs :: frames) (before ++ left ++ [sign])
  | sign {frames : List Frame} {before : List Token} {sign : Token} {op : UnaryOp} :
      Opened frames before → sign? sign.kind = some op →
      Opened (.sign op :: frames) (before ++ [sign])
  | paren {frames : List Frame} {before : List Token} {opening : Token} :
      Opened frames before → opening.kind = .leftParen →
      Opened (.paren :: frames) (before ++ [opening])
  | argument {frames : List Frame} {before tokens : List Token} {name opening : Token}
      {earlier : List Expr} :
      Opened frames before → name.kind = .name → opening.kind = .leftParen →
      Listed earlier tokens →
      Opened (.argument name.literal name.span earlier :: frames)
        (before ++ name :: opening :: tokens)

/-- An operator between its operands. -/
theorem whole_of_operator {op : BinaryOp} {sign : Token} (isSign : operator? sign.kind = some op)
    {lhs rhs : Expr} {left right : List Token}
    (first : Derives (leftPhrase (levelOf op) lhs) left)
    (second : Derives (rightPhrase (levelOf op) rhs) right) :
    Derives (wholePhrase (levelOf op) (.binary op lhs rhs)) (left ++ sign :: right) := by
  obtain ⟨kind, literal, offset⟩ := sign
  cases kind <;> cases isSign
  · exact .sum first (by simp [sumSigns]) second
  · exact .sum first (by simp [sumSigns]) second
  · exact .product first (by simp [productSigns]) second
  · exact .power first rfl second
  · exact .product first (by simp [productSigns]) second

/-- A sign in front of its operand. -/
theorem unary_of_sign {op : UnaryOp} {sign : Token} (isSign : sign? sign.kind = some op)
    {operand : Expr} {tokens : List Token} (derived : Derives (.unary operand) tokens) :
    Derives (.unary (.unary op operand)) (sign :: tokens) := by
  obtain ⟨kind, literal, offset⟩ := sign
  cases kind <;> cases isSign
  · exact .sign (by simp [prefixSigns]) derived
  · exact .sign (by simp [prefixSigns]) derived

/-- **One frame ends**: the operand and the tokens of the frame spell what the frame makes of it,
and the frame below waits for just that. -/
theorem Opened.close {frame : Frame} {frames : List Frame} {before tokens : List Token}
    {operand tree : Expr} (opened : Opened (frame :: frames) before)
    (derived : Derives (awaited (frame :: frames) operand) tokens)
    (closes : frame.close? operand = some tree) :
    ∃ outer inner, before ++ tokens = outer ++ inner ∧ Opened frames outer ∧
      Derives (closedPhrase frame tree) inner ∧ Derives (awaited frames tree) inner := by
  cases opened with
  | @binary _ outer left sign op lhs outerOpened admits first isSign =>
    cases closes
    have whole := whole_of_operator isSign first derived
    refine ⟨outer, left ++ sign :: tokens, ?_, outerOpened, whole, awaited_of_whole admits whole⟩
    rw [List.append_assoc, List.append_assoc]
    rfl
  | @sign _ outer sign op outerOpened isSign =>
    cases closes
    have whole := unary_of_sign isSign derived
    refine ⟨outer, sign :: tokens, ?_, outerOpened, whole, awaited_of_unary frames whole⟩
    rw [List.append_assoc]
    rfl
  | paren => cases closes
  | argument => cases closes

theorem Frame.close?_eq_none {frame : Frame} {operand : Expr} (keeps : frame.close? operand = none)
    (level : Level) : frame.goesOn level = true := by
  cases frame with
  | binary op lhs => cases keeps
  | sign op => cases keeps
  | paren => rfl
  | argument function span earlier => rfl

theorem fold_kept {keeps : Frame → Bool} {frame : Frame} (kept : keeps frame = true)
    (operand : Expr) (frames : List Frame) :
    fold keeps operand (frame :: frames) = (operand, frame :: frames) := by
  simp only [fold, kept]

theorem fold_closed {keeps : Frame → Bool} {frame : Frame} {operand tree : Expr}
    (ends : keeps frame = false) (closes : frame.close? operand = some tree) (frames : List Frame) :
    fold keeps operand (frame :: frames) = fold keeps tree frames := by
  simp only [fold, ends, closes]

theorem fold_open {frame : Frame} {operand : Expr} (waits : frame.close? operand = none)
    (keeps : Frame → Bool) (frames : List Frame) :
    fold keeps operand (frame :: frames) = (operand, frame :: frames) := by
  simp only [fold, waits]
  cases keeps frame <;> rfl

/-- **Folding keeps the invariant**, up to the first frame that keeps. What is left of the stack is
opened, and the operand is what its innermost frame waits for. -/
theorem Opened.fold (keeps : Frame → Bool) {frames : List Frame} {before tokens : List Token}
    {operand : Expr} (opened : Opened frames before)
    (derived : Derives (awaited frames operand) tokens) :
    ∃ outer inner, before ++ tokens = outer ++ inner ∧
      Opened (Parser.fold keeps operand frames).2 outer ∧
      Derives (awaited (Parser.fold keeps operand frames).2 (Parser.fold keeps operand frames).1)
        inner := by
  induction frames generalizing operand before tokens with
  | nil => exact ⟨before, tokens, rfl, opened, derived⟩
  | cons frame frames ih =>
    cases closes : frame.close? operand with
    | none =>
      rw [fold_open closes]
      exact ⟨before, tokens, rfl, opened, derived⟩
    | some tree =>
      cases kept : keeps frame with
      | true =>
        rw [fold_kept kept]
        exact ⟨before, tokens, rfl, opened, derived⟩
      | false =>
        rw [fold_closed kept closes]
        obtain ⟨outer, inner, split, outerOpened, _, waited⟩ := opened.close derived closes
        obtain ⟨further, rest, splitAgain, restOpened, restDerived⟩ := ih outerOpened waited
        exact ⟨further, rest, split.trans splitAgain, restOpened, restDerived⟩

/-- **Folding at an operator**: the operand becomes a left operand of the operator's level, and the
rest of the stack goes on at that level. -/
theorem Opened.fold_goesOn (level : Level) {frames : List Frame} {before tokens : List Token}
    {operand : Expr} (opened : Opened frames before)
    (waited : Derives (awaited frames operand) tokens)
    (derived : Derives (leftPhrase level operand) tokens) :
    ∃ outer inner, before ++ tokens = outer ++ inner ∧
      Opened (Parser.fold (·.goesOn level) operand frames).2 outer ∧
      Admits (Parser.fold (·.goesOn level) operand frames).2 level ∧
      Derives (leftPhrase level (Parser.fold (·.goesOn level) operand frames).1) inner := by
  induction frames generalizing operand before tokens with
  | nil =>
    refine ⟨before, tokens, rfl, opened, fun frame member => ?_, derived⟩
    cases member
  | cons frame frames ih =>
    cases kept : frame.goesOn level with
    | true =>
      rw [fold_kept kept]
      refine ⟨before, tokens, rfl, opened, fun first isFirst => ?_, derived⟩
      cases isFirst
      exact kept
    | false =>
      cases closes : frame.close? operand with
      | none =>
        rw [Frame.close?_eq_none closes level] at kept
        cases kept
      | some tree =>
        rw [fold_closed kept closes]
        obtain ⟨outer, inner, split, outerOpened, closed, waitedBelow⟩ := opened.close waited closes
        obtain ⟨further, rest, splitAgain, result⟩ :=
          ih outerOpened waitedBelow (left_of_closed kept closed)
        exact ⟨further, rest, split.trans splitAgain, result⟩

/-! ### The tokens of a state -/

/-- **The tokens that a state has read.** -/
def State.Reads (state : State) (tokens : List Token) : Prop :=
  match state.phase with
  | .operand => Opened state.frames tokens
  | .afterName name span =>
    ∃ before word, tokens = before ++ [word] ∧ Opened state.frames before ∧
      word.kind = .name ∧ word.literal = name ∧ word.span = span
  | .afterCall function span =>
    ∃ before word opening, tokens = before ++ [word, opening] ∧ Opened state.frames before ∧
      word.kind = .name ∧ word.literal = function ∧ word.span = span ∧ opening.kind = .leftParen
  | .complete operand =>
    ∃ before inner, tokens = before ++ inner ∧ Opened state.frames before ∧
      Derives (.primary operand) inner

theorem reads_start : State.start.Reads [] := Opened.nil

/-- Reading the first token of an operand. -/
theorem reads_readOperand {frames : List Frame} {before : List Token} {nodes : Nat} {token : Token}
    {next : State} (opened : Opened frames before)
    (read : readOperand frames nodes token = .ok next) : next.Reads (before ++ [token]) := by
  unfold readOperand at read
  split at read
  · rename_i value isNumber
    cases read
    exact ⟨before, [token], rfl, opened, .number isNumber⟩
  · rename_i isName
    cases read
    exact ⟨before, token, rfl, opened, isName, rfl, rfl⟩
  · rename_i isOpening
    cases read
    exact Opened.paren opened isOpening
  · split at read
    · rename_i op isSign
      cases read
      exact Opened.sign opened isSign
    · cases read

/-- Reading a token that closes or continues what is open around a complete operand. -/
theorem reads_readClosing {frames : List Frame} {before inner : List Token} {nodes : Nat}
    {operand : Expr} {token : Token} {next : State} (opened : Opened frames before)
    (derived : Derives (.primary operand) inner)
    (read : readClosing operand frames nodes token = .ok next) :
    next.Reads (before ++ inner ++ [token]) := by
  obtain ⟨outer, rest, split, outerOpened, waited⟩ :=
    opened.fold (fun _ => false) (awaited_of_unary frames derived.unary_of_primary)
  have spelled := expr_of_awaited _ waited
  rw [split]
  unfold readClosing foldAll at read
  generalize fold (fun _ => false) operand frames = folded at *
  obtain ⟨tree, below⟩ := folded
  split at read
  · rename_i operand frames same
    cases same
    split at read
    · rename_i isClosing
      cases read
      cases outerOpened with
      | @paren _ outer opening outerOpened isOpening =>
        refine ⟨outer, opening :: rest ++ [token], ?_, outerOpened,
          .paren isOpening spelled isClosing⟩
        simp
    · cases read
  · rename_i operand function span earlier frames same
    cases same
    cases outerOpened with
    | @argument _ outer tokens name opening _ outerOpened isName isOpening listed =>
      split at read
      · rename_i isComma
        cases read
        have further := Opened.argument outerOpened isName isOpening
          (listed.snoc spelled isComma)
        show Opened _ (outer ++ name :: opening :: tokens ++ rest ++ [token])
        simpa using further
      · rename_i isClosing
        cases read
        refine ⟨outer, name :: opening :: (tokens ++ rest) ++ [token], ?_, outerOpened,
          .call isName isOpening (listed.arguments (.last spelled)) isClosing⟩
        simp
      · cases read
  · cases read

/-- An operator behind a complete operand ends the frames that do not go on at its level. -/
theorem readComplete_operator {token : Token} {op : BinaryOp}
    (isSign : operator? token.kind = some op) (operand : Expr) (frames : List Frame) (nodes : Nat) :
    readComplete operand frames nodes token
      = .ok ⟨.operand, .binary op (fold (·.goesOn (levelOf op)) operand frames).1
          :: (fold (·.goesOn (levelOf op)) operand frames).2, nodes + 1⟩ := by
  obtain ⟨kind, literal, offset⟩ := token
  cases kind <;> cases isSign <;> rfl

/-- Behind a complete operand, a token that is read is an operator or closes or continues something. -/
theorem readClosing_of_readComplete {operand : Expr} {frames : List Frame} {nodes : Nat}
    {token : Token} {next : State} (noSign : operator? token.kind = none)
    (read : readComplete operand frames nodes token = .ok next) :
    readClosing operand frames nodes token = .ok next := by
  unfold readComplete at read
  rw [noSign] at read
  split at read
  · cases read
  · split at read
    · cases read
    · rename_i isSome _
      cases isSome
    · exact read

/-- A primary may stand to the left of every operator. -/
theorem left_of_primary (level : Level) {tree : Expr} {tokens : List Token}
    (derived : Derives (.primary tree) tokens) : Derives (leftPhrase level tree) tokens := by
  cases level with
  | sum => exact derived.expr_of_primary
  | product => exact derived.term_of_primary
  | power => exact derived

/-- Reading a token behind a complete operand. -/
theorem reads_readComplete {frames : List Frame} {before inner : List Token} {nodes : Nat}
    {operand : Expr} {token : Token} {next : State} (opened : Opened frames before)
    (derived : Derives (.primary operand) inner)
    (read : readComplete operand frames nodes token = .ok next) :
    next.Reads (before ++ inner ++ [token]) := by
  cases isSign : operator? token.kind with
  | none => exact reads_readClosing opened derived (readClosing_of_readComplete isSign read)
  | some op =>
    obtain ⟨outer, rest, split, outerOpened, admits, spelled⟩ :=
      opened.fold_goesOn (levelOf op) (awaited_of_unary frames derived.unary_of_primary)
        (left_of_primary (levelOf op) derived)
    rw [readComplete_operator isSign] at read
    cases read
    rw [split]
    exact Opened.binary outerOpened admits spelled isSign

/-- **One token more has been read.** -/
theorem reads_advance {state next : State} {tokens : List Token} {token : Token}
    (reads : state.Reads tokens) (read : advance state (.ok token) = .ok next) :
    next.Reads (tokens ++ [token]) := by
  obtain ⟨phase, frames, nodes⟩ := state
  cases phase with
  | operand => exact reads_readOperand reads read
  | afterName name span =>
    obtain ⟨before, word, rfl, opened, isName, rfl, rfl⟩ := reads
    simp only [advance] at read
    split at read
    · rename_i isOpening
      cases read
      exact ⟨before, word, token, by simp, opened, isName, rfl, rfl, isOpening⟩
    · exact reads_readComplete opened (.name isName) read
  | afterCall function span =>
    obtain ⟨before, word, opening, rfl, opened, isName, rfl, rfl, isOpening⟩ := reads
    simp only [advance] at read
    split at read
    · rename_i isClosing
      cases read
      exact ⟨before, [word, opening, token], by simp, opened,
        .emptyCall isName isOpening isClosing⟩
    · exact reads_readOperand (Opened.argument opened isName isOpening .nil) read
  | complete operand =>
    obtain ⟨before, inner, rfl, opened, derived⟩ := reads
    exact reads_readComplete opened derived read

/-- **A run reads its tokens.** -/
theorem reads_advanceAll {state last : State} {before tokens : List Token}
    (reads : state.Reads before) (run : advanceAll state tokens = .ok last) :
    last.Reads (before ++ tokens) := by
  induction tokens generalizing state before with
  | nil =>
    cases run
    rwa [List.append_nil]
  | cons token tokens ih =>
    rw [advanceAll_cons] at run
    cases read : advance state (.ok token) with
    | error error =>
      rw [read] at run
      cases run
    | ok next =>
      rw [read] at run
      have further := ih (reads_advance reads read) run
      rwa [List.append_assoc] at further

/-! ### The end of a formula -/

/-- A formula that ends behind a complete operand. -/
theorem derives_of_concludeComplete {length : Nat} {operand tree : Expr} {frames : List Frame}
    {before inner : List Token} (opened : Opened frames before)
    (derived : Derives (.primary operand) inner)
    (concluded : concludeComplete length operand frames = .ok tree) :
    Derives (.expr tree) (before ++ inner) := by
  obtain ⟨outer, rest, split, outerOpened, waited⟩ :=
    opened.fold (fun _ => false) (awaited_of_unary frames derived.unary_of_primary)
  have spelled := expr_of_awaited _ waited
  rw [split]
  unfold concludeComplete foldAll at concluded
  generalize fold (fun _ => false) operand frames = folded at *
  obtain ⟨whole, below⟩ := folded
  cases below with
  | nil =>
    cases concluded
    cases outerOpened
    exact spelled
  | cons frame frames => cases frame <;> cases concluded

/-- **Soundness**: a formula that ends in a tree spells that tree. -/
theorem derives_of_conclude {state : State} {tokens : List Token} {length : Nat} {tree : Expr}
    (reads : state.Reads tokens) (concluded : conclude length state = .ok tree) :
    Derives (.expr tree) tokens := by
  obtain ⟨phase, frames, nodes⟩ := state
  cases phase with
  | operand => cases concluded
  | afterName name span =>
    obtain ⟨before, word, rfl, opened, isName, rfl, rfl⟩ := reads
    exact derives_of_concludeComplete opened (.name isName) concluded
  | afterCall function span => cases concluded
  | complete operand =>
    obtain ⟨before, inner, rfl, opened, derived⟩ := reads
    exact derives_of_concludeComplete opened derived concluded

/-! ### What has been read starts a sentence -/

/-- Open constructs around what they wait for are the start of a sentence: only closing parentheses
are missing. -/
theorem viable_of_opened {frames : List Frame} {before tokens : List Token} {tree : Expr}
    (opened : Opened frames before) (derived : Derives (awaited frames tree) tokens) :
    Viable (before ++ tokens) := by
  induction frames generalizing before tokens tree with
  | nil =>
    cases opened
    refine ⟨[], tree, ?_⟩
    rw [List.append_nil]
    exact derived
  | cons frame frames ih =>
    cases closes : frame.close? tree with
    | some whole =>
      obtain ⟨outer, inner, split, outerOpened, _, waited⟩ := opened.close derived closes
      rw [split]
      exact ih outerOpened waited
    | none =>
      let closing : Token := ⟨.rightParen, ")", 0⟩
      have closed : ∃ outer inner whole, before ++ tokens ++ [closing] = outer ++ inner ∧
          Opened frames outer ∧ Derives (.primary whole) inner := by
        cases opened with
        | binary => cases closes
        | sign => cases closes
        | @paren _ outer opening outerOpened isOpening =>
          exact ⟨outer, opening :: tokens ++ [closing], tree, by simp, outerOpened,
            .paren isOpening derived rfl⟩
        | @argument _ outer listedTokens name opening earlier outerOpened isName isOpening listed =>
          exact ⟨outer, name :: opening :: (listedTokens ++ tokens) ++ [closing],
            .call name.literal name.span (earlier ++ [tree]), by simp, outerOpened,
            .call isName isOpening (listed.arguments (.last derived)) rfl⟩
      obtain ⟨outer, inner, whole, split, outerOpened, primary⟩ := closed
      obtain ⟨rest, sentence, spelled⟩ :=
        ih outerOpened (awaited_of_unary frames primary.unary_of_primary)
      refine ⟨closing :: rest, sentence, ?_⟩
      rw [← split, List.append_assoc, List.singleton_append] at spelled
      exact spelled

/-- **What has been read is the start of a sentence.** -/
theorem viable_of_reads {state : State} {tokens : List Token} (reads : state.Reads tokens) :
    Viable tokens := by
  obtain ⟨phase, frames, nodes⟩ := state
  cases phase with
  | operand =>
    have number : Derives (.primary (.literal 0)) [⟨.number 0, "0", 0⟩] := .number rfl
    exact (viable_of_opened reads (awaited_of_unary frames number.unary_of_primary)).of_append
  | afterName name span =>
    obtain ⟨before, word, rfl, opened, isName, rfl, rfl⟩ := reads
    exact viable_of_opened opened (awaited_of_unary frames (Derives.name isName).unary_of_primary)
  | afterCall function span =>
    obtain ⟨before, word, opening, rfl, opened, isName, rfl, rfl, isOpening⟩ := reads
    let closing : Token := ⟨.rightParen, ")", 0⟩
    have call : Derives (.primary (.call word.literal word.span [])) [word, opening, closing] :=
      .emptyCall isName isOpening rfl
    have viable := viable_of_opened opened (awaited_of_unary frames call.unary_of_primary)
    rw [show [word, opening, closing] = [word, opening] ++ [closing] from rfl,
      ← List.append_assoc] at viable
    exact viable.of_append
  | complete operand =>
    obtain ⟨before, inner, rfl, opened, derived⟩ := reads
    exact viable_of_opened opened (awaited_of_unary frames derived.unary_of_primary)

end ColumnCalc.Parser
