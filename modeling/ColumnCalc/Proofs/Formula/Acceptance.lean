/-
**The automaton reads every sentence.**

The converse of `Reading`: whatever the grammar derives is read without an error, and to the tree that
was derived. After the tokens of a phrase the automaton has not built the phrase's tree yet, since
it cannot know that the phrase has ended; signs and operators of the phrase still lie on the stack.
`Reached` says that they make no difference: every later token that does not continue the phrase
folds them to the phrase's tree.

* `readsPhrase_of_derives` — reading the tokens of a phrase where it is awaited reaches the phrase. One
  case per rule of the grammar, each a step lemma of the automaton.
* `conclude_of_derives` — the tokens of a sentence are read, and end in its tree.
* `derives_unique` — hence the grammar is unambiguous.
-/

import ColumnCalc.Proofs.Formula.Reading

namespace ColumnCalc.Parser

open Grammar (Phrase Derives sumSigns productSigns prefixSigns)

/-- The complete operand behind which a state stands; a name is one as long as no parenthesis
makes it a call. -/
def State.operand? (state : State) : Option Expr :=
  match state.phase with
  | .operand => none
  | .afterName name span => some (.name name span)
  | .afterCall _ _ => none
  | .complete operand => some operand

/-- **A phrase has been read** on top of some frames, `nodes` being counted before it: for whatever
token ends it at its level, the state is as if the phrase's tree were complete on these frames. -/
def Reached (level : Level) (tree : Expr) (frames : List Frame) (nodes : Nat) (state : State) :
    Prop :=
  state.nodes = nodes + tree.nodeCount ∧ ∃ operand, state.operand? = some operand ∧
    ∀ keeps : Frame → Bool, (∀ frame, keeps frame = true → frame.goesOn level = true) →
      fold keeps operand state.frames = fold keeps tree frames

/-! ### Steps behind a phrase -/

/-- A frame that goes on at a level goes on at every tighter one. -/
theorem Frame.goesOn_product {frame : Frame} (goesOn : frame.goesOn .sum = true) :
    frame.goesOn .product = true := by
  cases frame with
  | binary op lhs => cases op <;> cases goesOn
  | sign op => cases goesOn
  | paren => rfl
  | argument function span earlier => rfl

theorem Frame.goesOn_power (frame : Frame) : frame.goesOn .power = true := by
  cases frame with
  | binary op lhs => cases op <;> rfl
  | sign op => rfl
  | paren => rfl
  | argument function span earlier => rfl

theorem admits_power (frames : List Frame) : Admits frames .power :=
  fun frame _ => frame.goesOn_power

theorem Reached.product_of_power {tree : Expr} {frames : List Frame} {nodes : Nat} {state : State}
    (reached : Reached .power tree frames nodes state) :
    Reached .product tree frames nodes state := by
  obtain ⟨counted, operand, isOperand, folds⟩ := reached
  exact ⟨counted, operand, isOperand, fun keeps _ => folds keeps fun frame _ => frame.goesOn_power⟩

theorem Reached.sum_of_product {tree : Expr} {frames : List Frame} {nodes : Nat} {state : State}
    (reached : Reached .product tree frames nodes state) :
    Reached .sum tree frames nodes state := by
  obtain ⟨counted, operand, isOperand, folds⟩ := reached
  exact ⟨counted, operand, isOperand, fun keeps weaker =>
    folds keeps fun frame kept => Frame.goesOn_product (weaker frame kept)⟩

/-- A complete operand has been read at every level. -/
theorem reached_complete {operand : Expr} {frames : List Frame} {nodes before : Nat}
    (counted : nodes = before + operand.nodeCount) (level : Level) :
    Reached level operand frames before ⟨.complete operand, frames, nodes⟩ :=
  ⟨counted, operand, rfl, fun _ _ => rfl⟩

/-- **A frame that ends with its operand** is read together with it. -/
theorem Reached.closed {level outer : Level} {operand tree : Expr} {frame : Frame}
    {frames : List Frame} {nodes before : Nat} {state : State}
    (reached : Reached level operand (frame :: frames) nodes state)
    (closes : frame.close? operand = some tree) (ends : frame.goesOn outer = false)
    (looser : ∀ other : Frame, other.goesOn outer = true → other.goesOn level = true)
    (counted : nodes + operand.nodeCount = before + tree.nodeCount) :
    Reached outer tree frames before state := by
  obtain ⟨total, complete, isOperand, folds⟩ := reached
  refine ⟨total.trans counted, complete, isOperand, fun keeps weaker => ?_⟩
  have notKept : keeps frame = false := by
    rw [Bool.eq_false_iff]
    intro kept
    rw [weaker frame kept] at ends
    cases ends
  rw [folds keeps fun other kept => looser other (weaker other kept), fold_closed notKept closes]

/-- Folding stops at frames that go on. -/
theorem fold_admits {level : Level} {frames : List Frame} (admits : Admits frames level)
    (operand : Expr) : fold (·.goesOn level) operand frames = (operand, frames) := by
  cases frames with
  | nil => rfl
  | cons frame frames => exact fold_kept (admits frame rfl) operand frames

/-- Behind a complete operand every token but an opening parenthesis is read alike, whether the
operand is a name or not. -/
theorem advance_operand {state : State} {operand : Expr} {token : Token}
    (isOperand : state.operand? = some operand) (noCall : token.kind ≠ .leftParen) :
    advance state (.ok token) = readComplete operand state.frames state.nodes token := by
  obtain ⟨phase, frames, nodes⟩ := state
  cases phase with
  | operand => cases isOperand
  | afterName name span =>
    cases isOperand
    simp only [advance]
  | afterCall function span => cases isOperand
  | complete complete =>
    cases isOperand
    rfl

/-- **An operator behind its left operand** waits for the right one on frames that admit it. -/
theorem Reached.operator {op : BinaryOp} {token : Token} {lhs : Expr} {frames : List Frame}
    {nodes : Nat} {state : State} (reached : Reached (levelOf op) lhs frames nodes state)
    (admits : Admits frames (levelOf op)) (isSign : operator? token.kind = some op) :
    advance state (.ok token)
      = .ok ⟨.operand, .binary op lhs :: frames, nodes + lhs.nodeCount + 1⟩ := by
  obtain ⟨counted, operand, isOperand, folds⟩ := reached
  have noCall : token.kind ≠ .leftParen := by
    intro isOpening
    rw [isOpening] at isSign
    cases isSign
  rw [advance_operand isOperand noCall, readComplete_operator isSign, folds _ fun _ kept => kept,
    fold_admits admits, counted]

/-- A token that is no operator and starts nothing closes or continues what is open. -/
theorem Reached.closing {token : Token} {tree : Expr} {frames : List Frame} {nodes : Nat}
    {state : State} (reached : Reached .sum tree frames nodes state)
    (closes : token.kind = .rightParen ∨ token.kind = .comma) :
    advance state (.ok token)
      = readClosing tree frames (nodes + tree.nodeCount) token := by
  obtain ⟨counted, operand, isOperand, folds⟩ := reached
  have noCall : token.kind ≠ .leftParen := by
    rcases closes with same | same <;> rw [same] <;> exact nofun
  have complete : readComplete operand state.frames state.nodes token
      = readClosing operand state.frames state.nodes token := by
    rcases closes with same | same <;> simp only [readComplete, same] <;> rfl
  have same : foldAll operand state.frames = foldAll tree frames := folds _ fun _ never => by
    cases never
  rw [advance_operand isOperand noCall, complete]
  simp only [readClosing, same, counted]

/-! ### Reading phrases -/

/-- Reading the tokens on top of the frames reaches the tree. -/
def Completes (level : Level) (tree : Expr) (tokens : List Token) (frames : List Frame)
    (nodes : Nat) : Prop :=
  ∃ state, advanceAll ⟨.operand, frames, nodes⟩ tokens = .ok state ∧
    Reached level tree frames nodes state

theorem Completes.sum_of_product {tree : Expr} {tokens : List Token} {frames : List Frame}
    {nodes : Nat} (completes : Completes .product tree tokens frames nodes) :
    Completes .sum tree tokens frames nodes := by
  obtain ⟨state, run, reached⟩ := completes
  exact ⟨state, run, reached.sum_of_product⟩

theorem Completes.product_of_power {tree : Expr} {tokens : List Token} {frames : List Frame}
    {nodes : Nat} (completes : Completes .power tree tokens frames nodes) :
    Completes .product tree tokens frames nodes := by
  obtain ⟨state, run, reached⟩ := completes
  exact ⟨state, run, reached.product_of_power⟩

/-- An operator between its operands. -/
theorem Completes.binary {outer : Level} {op : BinaryOp} {sign : Token} {lhs rhs : Expr}
    {left right : List Token} {frames : List Frame} {nodes : Nat}
    (first : Completes (levelOf op) lhs left frames nodes) (admits : Admits frames (levelOf op))
    (isSign : operator? sign.kind = some op)
    (second : Completes .product rhs right (.binary op lhs :: frames) (nodes + lhs.nodeCount + 1))
    (ends : (Frame.binary op lhs).goesOn outer = false)
    (looser : ∀ other : Frame, other.goesOn outer = true → other.goesOn .product = true) :
    Completes outer (.binary op lhs rhs) (left ++ sign :: right) frames nodes := by
  obtain ⟨behind, run, reached⟩ := first
  obtain ⟨last, runOn, reachedOn⟩ := second
  refine ⟨last, ?_, reachedOn.closed rfl ends looser ?_⟩
  · rw [advanceAll_append, run]
    show advanceAll behind (sign :: right) = .ok last
    rw [advanceAll_cons, reached.operator admits isSign]
    exact runOn
  · rw [Expr.nodeCount]
    omega

/-- A sign in front of its operand. -/
theorem Completes.sign {op : UnaryOp} {sign : Token} {operand : Expr} {tokens : List Token}
    {frames : List Frame} {nodes : Nat} (isSign : sign? sign.kind = some op)
    (completes : Completes .product operand tokens (.sign op :: frames) (nodes + 1)) :
    Completes .product (.unary op operand) (sign :: tokens) frames nodes := by
  obtain ⟨state, run, reached⟩ := completes
  refine ⟨state, ?_, reached.closed rfl rfl (fun _ goesOn => goesOn) ?_⟩
  · obtain ⟨kind, literal, offset⟩ := sign
    cases kind <;> cases isSign <;> exact run
  · rw [Expr.nodeCount]
    omega

/-- A parenthesis around a formula. -/
theorem Completes.paren {opening closing : Token} {tree : Expr} {tokens : List Token}
    {frames : List Frame} {nodes : Nat} (isOpening : opening.kind = .leftParen)
    (completes : Completes .sum tree tokens (.paren :: frames) nodes)
    (isClosing : closing.kind = .rightParen) :
    Completes .power tree (opening :: tokens ++ [closing]) frames nodes := by
  obtain ⟨state, run, reached⟩ := completes
  refine ⟨⟨.complete tree, frames, nodes + tree.nodeCount⟩, ?_, reached_complete rfl .power⟩
  have opens : advance ⟨.operand, frames, nodes⟩ (.ok opening)
      = .ok ⟨.operand, .paren :: frames, nodes⟩ := by
    simp only [advance, readOperand, isOpening]
  have closes : advance state (.ok closing)
      = .ok ⟨.complete tree, frames, nodes + tree.nodeCount⟩ := by
    have stays : foldAll tree (.paren :: frames) = (tree, .paren :: frames) := rfl
    rw [reached.closing (.inl isClosing)]
    simp only [readClosing, stays, isClosing]
  rw [List.cons_append, advanceAll_cons, opens]
  show advanceAll _ (tokens ++ [closing]) = _
  rw [advanceAll_append, run]
  show advanceAll state [closing] = _
  rw [advanceAll_cons, closes]
  rfl

/-- The arguments of a call: all but the last lie in the innermost frame. -/
def CompletesArguments (trees : List Expr) (tokens : List Token) (function : String) (span : Span)
    (earlier : List Expr) (frames : List Frame) (nodes : Nat) : Prop :=
  ∃ init last, trees = init ++ [last] ∧
    ∃ state,
      advanceAll ⟨.operand, .argument function span earlier :: frames, nodes⟩ tokens = .ok state ∧
      Reached .sum last (.argument function span (earlier ++ init) :: frames)
        (nodes + Expr.nodeCounts init) state

/-- The last argument. -/
theorem Completes.last {tree : Expr} {tokens : List Token} {function : String} {span : Span}
    {earlier : List Expr} {frames : List Frame} {nodes : Nat}
    (completes : Completes .sum tree tokens (.argument function span earlier :: frames) nodes) :
    CompletesArguments [tree] tokens function span earlier frames nodes := by
  obtain ⟨state, run, reached⟩ := completes
  refine ⟨[], tree, rfl, state, run, ?_⟩
  rw [List.append_nil]
  exact reached

/-- An argument, a comma and further arguments. -/
theorem Completes.more {tree : Expr} {trees : List Expr} {first rest : List Token} {comma : Token}
    {function : String} {span : Span} {earlier : List Expr} {frames : List Frame} {nodes : Nat}
    (completes : Completes .sum tree first (.argument function span earlier :: frames) nodes)
    (isComma : comma.kind = .comma)
    (further : CompletesArguments trees rest function span (earlier ++ [tree]) frames
      (nodes + tree.nodeCount)) :
    CompletesArguments (tree :: trees) (first ++ comma :: rest) function span earlier frames
      nodes := by
  obtain ⟨state, run, reached⟩ := completes
  obtain ⟨init, last, rfl, final, runOn, reachedOn⟩ := further
  refine ⟨tree :: init, last, rfl, final, ?_, ?_⟩
  · have stays : foldAll tree (.argument function span earlier :: frames)
        = (tree, .argument function span earlier :: frames) := rfl
    have separates : advance state (.ok comma)
        = .ok ⟨.operand, .argument function span (earlier ++ [tree]) :: frames,
          nodes + tree.nodeCount⟩ := by
      rw [reached.closing (.inr isComma)]
      simp only [readClosing, stays, isComma]
    rw [advanceAll_append, run]
    show advanceAll state (comma :: rest) = _
    rw [advanceAll_cons, separates]
    exact runOn
  · rw [Expr.nodeCounts, ← Nat.add_assoc]
    rw [List.append_assoc, List.singleton_append] at reachedOn
    exact reachedOn

/-- The opening of a call whose argument list is not empty. -/
theorem advanceAll_call {name opening first : Token} {rest : List Token} {frames : List Frame}
    {nodes : Nat} (isName : name.kind = .name) (isOpening : opening.kind = .leftParen)
    (notEmpty : first.kind ≠ .rightParen) :
    advanceAll ⟨.operand, frames, nodes⟩ (name :: opening :: first :: rest)
      = advanceAll ⟨.operand, .argument name.literal name.span [] :: frames, nodes + 1⟩
        (first :: rest) := by
  have reads : advance ⟨.operand, frames, nodes⟩ (.ok name)
      = .ok ⟨.afterName name.literal name.span, frames, nodes + 1⟩ := by
    simp only [advance, readOperand, isName]
  have opens : advance ⟨.afterName name.literal name.span, frames, nodes + 1⟩ (.ok opening)
      = .ok ⟨.afterCall name.literal name.span, frames, nodes + 1⟩ := by
    simp only [advance, isOpening]
  have starts : advance ⟨.afterCall name.literal name.span, frames, nodes + 1⟩ (.ok first)
      = advance ⟨.operand, .argument name.literal name.span [] :: frames, nodes + 1⟩
        (.ok first) := by
    simp only [advance]
  rw [advanceAll_cons, reads]
  show advanceAll _ (opening :: first :: rest) = _
  rw [advanceAll_cons, opens]
  show advanceAll _ (first :: rest) = _
  rw [advanceAll_cons, advanceAll_cons, starts]

theorem nodeCounts_append (first rest : List Expr) :
    Expr.nodeCounts (first ++ rest) = Expr.nodeCounts first + Expr.nodeCounts rest := by
  induction first with
  | nil => simp [Expr.nodeCounts]
  | cons tree trees ih =>
    rw [List.cons_append, Expr.nodeCounts, Expr.nodeCounts, ih, Nat.add_assoc]

/-- A call with arguments. -/
theorem CompletesArguments.call {name opening closing : Token} {trees : List Expr}
    {tokens : List Token} {frames : List Frame} {nodes : Nat} (isName : name.kind = .name)
    (isOpening : opening.kind = .leftParen)
    (starts : ∃ first rest, tokens = first :: rest ∧ first.kind ≠ .rightParen)
    (completes : CompletesArguments trees tokens name.literal name.span [] frames (nodes + 1))
    (isClosing : closing.kind = .rightParen) :
    Completes .power (.call name.literal name.span trees)
      (name :: opening :: tokens ++ [closing]) frames nodes := by
  obtain ⟨init, last, rfl, state, run, reached⟩ := completes
  obtain ⟨first, rest, rfl, notEmpty⟩ := starts
  rw [List.nil_append] at reached
  refine ⟨⟨.complete (.call name.literal name.span (init ++ [last])), frames,
    nodes + 1 + Expr.nodeCounts init + last.nodeCount⟩, ?_, reached_complete ?_ .power⟩
  · have stays : foldAll last (.argument name.literal name.span init :: frames)
        = (last, .argument name.literal name.span init :: frames) := rfl
    have closes : advance state (.ok closing)
        = .ok ⟨.complete (.call name.literal name.span (init ++ [last])), frames,
          nodes + 1 + Expr.nodeCounts init + last.nodeCount⟩ := by
      rw [reached.closing (.inl isClosing)]
      simp only [readClosing, stays, isClosing]
    rw [List.cons_append, List.cons_append, List.cons_append,
      advanceAll_call isName isOpening notEmpty, ← List.cons_append, advanceAll_append, run]
    show advanceAll state [closing] = _
    rw [advanceAll_cons, closes]
    rfl
  · rw [Expr.nodeCount, nodeCounts_append, Expr.nodeCounts, Expr.nodeCounts]
    omega

/-- **Where a phrase is awaited, reading its tokens reaches it.** Sums and products are awaited only
on frames that go on at their level. -/
def ReadsPhrase (phrase : Phrase) (tokens : List Token) : Prop :=
  ∀ (frames : List Frame) (nodes : Nat),
    match phrase with
    | .expr tree => Admits frames .sum → Completes .sum tree tokens frames nodes
    | .term tree => Admits frames .product → Completes .product tree tokens frames nodes
    | .unary tree => Completes .product tree tokens frames nodes
    | .power tree => Completes .product tree tokens frames nodes
    | .primary tree => Completes .power tree tokens frames nodes
    | .arguments trees => ∀ (function : String) (span : Span) (earlier : List Expr),
        CompletesArguments trees tokens function span earlier frames nodes

theorem operator_of_sumSigns {kind : TokenKind} {op : BinaryOp} (isSign : (kind, op) ∈ sumSigns) :
    operator? kind = some op ∧ levelOf op = .sum := by
  simp only [sumSigns, List.mem_cons, Prod.mk.injEq, List.not_mem_nil, or_false] at isSign
  rcases isSign with ⟨rfl, rfl⟩ | ⟨rfl, rfl⟩
  · exact ⟨rfl, rfl⟩
  · exact ⟨rfl, rfl⟩

theorem operator_of_productSigns {kind : TokenKind} {op : BinaryOp}
    (isSign : (kind, op) ∈ productSigns) : operator? kind = some op ∧ levelOf op = .product := by
  simp only [productSigns, List.mem_cons, Prod.mk.injEq, List.not_mem_nil, or_false] at isSign
  rcases isSign with ⟨rfl, rfl⟩ | ⟨rfl, rfl⟩
  · exact ⟨rfl, rfl⟩
  · exact ⟨rfl, rfl⟩

theorem sign_of_prefixSigns {kind : TokenKind} {op : UnaryOp} (isSign : (kind, op) ∈ prefixSigns) :
    sign? kind = some op := by
  simp only [prefixSigns, List.mem_cons, Prod.mk.injEq, List.not_mem_nil, or_false] at isSign
  rcases isSign with ⟨rfl, rfl⟩ | ⟨rfl, rfl⟩
  · rfl
  · rfl

/-- **The automaton reads every phrase.** -/
theorem readsPhrase_of_derives {phrase : Phrase} {tokens : List Token}
    (derived : Derives phrase tokens) : ReadsPhrase phrase tokens := by
  induction derived with
  | ofTerm _ ih =>
    intro frames nodes admits
    exact (ih frames nodes fun frame first =>
      Frame.goesOn_product (admits frame first)).sum_of_product
  | @sum lhs rhs left right sign op _ isSign _ first second =>
    intro frames nodes admits
    obtain ⟨isOperator, isSum⟩ := operator_of_sumSigns isSign
    have ends : (Frame.binary op lhs).goesOn .sum = false := by
      simp only [Frame.goesOn, isSum]
      rfl
    have goesOn : (Frame.binary op lhs).goesOn .product = true := by
      simp only [Frame.goesOn, isSum]
      rfl
    refine Completes.binary ?_ ?_ isOperator (second _ _ ?_) ends fun _ => Frame.goesOn_product
    · rw [isSum]
      exact first frames nodes admits
    · rw [isSum]
      exact admits
    · intro frame isFirst
      cases isFirst
      exact goesOn
  | ofUnary _ ih => exact fun frames nodes _ => ih frames nodes
  | @product lhs rhs left right sign op _ isSign _ first second =>
    intro frames nodes admits
    obtain ⟨isOperator, isProduct⟩ := operator_of_productSigns isSign
    have ends : (Frame.binary op lhs).goesOn .product = false := by
      simp only [Frame.goesOn, isProduct]
      rfl
    refine Completes.binary ?_ ?_ isOperator (second _ _) ends fun _ goesOn => goesOn
    · rw [isProduct]
      exact first frames nodes admits
    · rw [isProduct]
      exact admits
  | sign isSign _ ih =>
    exact fun frames nodes => (ih _ _).sign (sign_of_prefixSigns isSign)
  | ofPower _ ih => exact ih
  | ofPrimary _ ih => exact fun frames nodes => (ih frames nodes).product_of_power
  | @power lhs rhs left right sign _ isSign _ first second =>
    intro frames nodes
    have isOperator : operator? sign.kind = some .pow := by rw [isSign]; rfl
    have base : Completes (levelOf .pow) lhs left frames nodes := first frames nodes
    exact base.binary (admits_power frames) isOperator (second _ _) rfl fun _ goesOn => goesOn
  | @number value token isNumber =>
    intro frames nodes
    refine ⟨⟨.complete (.literal value), frames, nodes + 1⟩, ?_, reached_complete rfl .power⟩
    rw [advanceAll_cons]
    simp only [advance, readOperand, isNumber]
    rfl
  | @name token isName =>
    intro frames nodes
    refine ⟨⟨.afterName token.literal token.span, frames, nodes + 1⟩, ?_, rfl, _, rfl,
      fun _ _ => rfl⟩
    rw [advanceAll_cons]
    simp only [advance, readOperand, isName]
    rfl
  | @emptyCall name opening closing isName isOpening isClosing =>
    intro frames nodes
    refine ⟨⟨.complete (.call name.literal name.span []), frames, nodes + 1⟩, ?_,
      reached_complete rfl .power⟩
    have reads : advance ⟨.operand, frames, nodes⟩ (.ok name)
        = .ok ⟨.afterName name.literal name.span, frames, nodes + 1⟩ := by
      simp only [advance, readOperand, isName]
    rw [advanceAll_cons, reads]
    show advanceAll _ [opening, closing] = _
    simp only [advanceAll_cons, advance, isOpening, isClosing]
    rfl
  | call isName isOpening arguments isClosing ih =>
    exact fun frames nodes =>
      (ih frames (nodes + 1) _ _ []).call isName isOpening arguments.starts isClosing
  | paren isOpening _ isClosing ih =>
    intro frames nodes
    refine (ih (.paren :: frames) nodes fun frame isFirst => ?_).paren isOpening isClosing
    cases isFirst
    rfl
  | last _ ih =>
    intro frames nodes function span earlier
    refine (ih (.argument function span earlier :: frames) nodes fun frame isFirst => ?_).last
    cases isFirst
    rfl
  | more _ isComma _ first further =>
    intro frames nodes function span earlier
    refine (first (.argument function span earlier :: frames) nodes fun frame isFirst => ?_).more
      isComma (further frames _ function span _)
    cases isFirst
    rfl

/-- **Completeness**: the tokens of a sentence are read, and end in its tree. -/
theorem conclude_of_derives {tree : Expr} {tokens : List Token}
    (derived : Derives (.expr tree) tokens) :
    ∃ state, advanceAll .start tokens = .ok state ∧ ∀ length, conclude length state = .ok tree := by
  obtain ⟨state, run, _, operand, isOperand, folds⟩ :=
    readsPhrase_of_derives derived [] 0 fun frame isFirst => by cases isFirst
  have closed : foldAll operand state.frames = (tree, []) := folds _ fun _ never => by cases never
  refine ⟨state, run, fun length => ?_⟩
  obtain ⟨phase, frames, nodes⟩ := state
  cases phase with
  | operand => cases isOperand
  | afterName name span =>
    cases isOperand
    simp only [conclude, concludeComplete, closed]
  | afterCall function span => cases isOperand
  | complete complete =>
    cases isOperand
    simp only [conclude, concludeComplete, closed]

/-- **The grammar is unambiguous.** -/
theorem derives_unique {first second : Expr} {tokens : List Token}
    (one : Derives (.expr first) tokens) (other : Derives (.expr second) tokens) :
    first = second := by
  obtain ⟨state, run, concluded⟩ := conclude_of_derives one
  obtain ⟨state', run', concluded'⟩ := conclude_of_derives other
  cases run.symm.trans run'
  cases (concluded 0).symm.trans (concluded' 0)
  rfl

end ColumnCalc.Parser
