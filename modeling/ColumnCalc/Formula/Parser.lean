/-
**From items to a tree.**

Formulas are parsed by an operator-precedence automaton: it reads one item at a time and keeps a
stack of *frames*, each a construct that waits for its next operand. What is read so far can always
be completed to a formula, so an item is refused exactly where no formula goes on with it. `+ -`
bind loosest, then `* /`, then signs, then `**`, which groups to the right and whose right operand
may carry a sign.

`advance` and `conclude` read formulas of any size. `feed` and `finish` do the same within limits: the
nesting of a formula is the number of open frames and one more, and nesting and nodes are checked
as they grow.
-/

import ColumnCalc.Formula.Expr
import ColumnCalc.Formula.Lexer

namespace ColumnCalc

/-- Bounds on how much work a single formula may describe. -/
structure Limits where
  /-- The greatest number of nodes of a tree. -/
  maxNodes : Nat := 256
  /-- The deepest nesting of operands. -/
  maxDepth : Nat := 64
  deriving DecidableEq, Repr, Inhabited

namespace Parser

/-- A construct that waits for an operand. -/
inductive Frame where
  /-- An operator behind its left operand. -/
  | binary (op : BinaryOp) (lhs : Expr)
  /-- A sign. -/
  | sign (op : UnaryOp)
  /-- An opening parenthesis. -/
  | paren
  /-- A call in whose argument list some arguments are complete. -/
  | argument (function : String) (span : Span) (earlier : List Expr)

/-- How tightly operators bind. -/
inductive Level where
  | sum
  | product
  | power
  deriving DecidableEq, Repr

def levelOf : BinaryOp → Level
  | .add | .sub => .sum
  | .mul | .div => .product
  | .pow => .power

/-- The operand that a frame waits for goes on at an operator of this level: inside parentheses at
every one, behind `+ -` at a tighter one, and behind `* /`, a sign or `**` only at `**`. -/
def Frame.goesOn : Frame → Level → Bool
  | .binary op _, level =>
    match levelOf op with
    | .sum => level != .sum
    | .product | .power => level == .power
  | .sign _, level => level == .power
  | .paren, _ => true
  | .argument .., _ => true

/-- Where the automaton stands. -/
inductive Phase where
  /-- An operand must follow. -/
  | operand
  /-- Behind a name, which a parenthesis would make a call. -/
  | afterName (name : String) (span : Span)
  /-- Behind the opening parenthesis of a call. -/
  | afterCall (function : String) (span : Span)
  /-- Behind a complete operand. -/
  | complete (operand : Expr)

/-- A formula read in part: the frames, the innermost first, and the nodes counted. -/
structure State where
  phase : Phase
  frames : List Frame
  nodes : Nat

/-- The operator that a token is. -/
def operator? : TokenKind → Option BinaryOp
  | .plus => some .add
  | .minus => some .sub
  | .star => some .mul
  | .slash => some .div
  | .starStar => some .pow
  | _ => none

/-- The sign that a token is in front of an operand. -/
def sign? : TokenKind → Option UnaryOp
  | .minus => some .neg
  | .plus => some .plus
  | _ => none

/-- A formula of which nothing is read. -/
def State.start : State :=
  ⟨.operand, [], 0⟩

/-- How deeply the operand that is read or awaited is nested. -/
def State.nesting (state : State) : Nat :=
  state.frames.length + 1

/-- What a frame that ends with its operand makes of it; parentheses and argument lists wait for a
token of their own. -/
def Frame.close? : Frame → Expr → Option Expr
  | .binary op lhs, operand => some (.binary op lhs operand)
  | .sign op, operand => some (.unary op operand)
  | .paren, _ => none
  | .argument .., _ => none

/-- Gives a complete operand to the frames that end with it, innermost first: all operators and
signs up to the first frame that `keeps`. -/
def fold (keeps : Frame → Bool) : Expr → List Frame → Expr × List Frame
  | operand, [] => (operand, [])
  | operand, frame :: frames =>
    match keeps frame, frame.close? operand with
    | false, some tree => fold keeps tree frames
    | _, _ => (operand, frame :: frames)

/-- Gives a complete operand to all operators and signs around it. -/
def foldAll (operand : Expr) (frames : List Frame) : Expr × List Frame :=
  fold (fun _ => false) operand frames

/-- The rejection of a token where something else is wanted. -/
def unexpected (token : Token) (expected : Expectation) : FormulaError :=
  token.rejection (.unexpectedToken token.literal expected)

/-- Reads a token that must start an operand. -/
def readOperand (frames : List Frame) (nodes : Nat) (token : Token) :
    Except FormulaError State :=
  match token.kind with
  | .number value => .ok ⟨.complete (.literal value), frames, nodes + 1⟩
  | .name => .ok ⟨.afterName token.literal token.span, frames, nodes + 1⟩
  | .leftParen => .ok ⟨.operand, .paren :: frames, nodes⟩
  | kind =>
    match sign? kind with
    | some op => .ok ⟨.operand, .sign op :: frames, nodes + 1⟩
    | none => .error (unexpected token .operand)

/-- Reads a token behind a complete operand that is neither an operator nor the start of something
outside the language: it must close or continue the innermost parenthesis or argument list. -/
def readClosing (operand : Expr) (frames : List Frame) (nodes : Nat) (token : Token) :
    Except FormulaError State :=
  match foldAll operand frames with
  | (operand, .paren :: frames) =>
    match token.kind with
    | .rightParen => .ok ⟨.complete operand, frames, nodes⟩
    | _ => .error (token.rejection (.missing .closingParen))
  | (operand, .argument function span earlier :: frames) =>
    match token.kind with
    | .comma => .ok ⟨.operand, .argument function span (earlier ++ [operand]) :: frames, nodes⟩
    | .rightParen =>
      .ok ⟨.complete (.call function span (earlier ++ [operand])), frames, nodes⟩
    | _ => .error (unexpected token .commaOrClosingParen)
  | _ => .error (unexpected token .operatorOrEnd)

/-- Reads a token behind a complete operand. -/
def readComplete (operand : Expr) (frames : List Frame) (nodes : Nat) (token : Token) :
    Except FormulaError State :=
  match token.kind.construct? with
  | some construct => .error (.disallowedConstruct construct token.span)
  | none =>
    match token.kind, operator? token.kind with
    | .leftParen, _ => .error (.disallowedConstruct .callOfNonName token.span)
    | _, some op =>
      let (operand, frames) := fold (·.goesOn (levelOf op)) operand frames
      .ok ⟨.operand, .binary op operand :: frames, nodes + 1⟩
    | _, none => readClosing operand frames nodes token

/-- Reads one item, however large the formula grows. -/
def advance (state : State) (item : Item) : Except FormulaError State :=
  match item with
  | .error error => .error error
  | .ok token =>
    match state.phase with
    | .operand => readOperand state.frames state.nodes token
    | .afterName name span =>
      match token.kind with
      | .leftParen => .ok { state with phase := .afterCall name span }
      | _ => readComplete (.name name span) state.frames state.nodes token
    | .afterCall function span =>
      match token.kind with
      | .rightParen => .ok { state with phase := .complete (.call function span []) }
      | _ => readOperand (.argument function span [] :: state.frames) state.nodes token
    | .complete operand => readComplete operand state.frames state.nodes token

/-- Ends a formula behind a complete operand. -/
def concludeComplete (length : Nat) (operand : Expr) (frames : List Frame) :
    Except FormulaError Expr :=
  match foldAll operand frames with
  | (operand, []) => .ok operand
  | (_, .argument .. :: _) => .error (endOfFormula length .argumentListEnd)
  | _ => .error (endOfFormula length .closingParen)

/-- Ends a formula of `length` bytes, however large it is. -/
def conclude (length : Nat) (state : State) : Except FormulaError Expr :=
  match state.phase with
  | .operand => .error (endOfFormula length .operand)
  | .afterName name span => concludeComplete length (.name name span) state.frames
  | .afterCall _ _ => .error (endOfFormula length .operand)
  | .complete operand => concludeComplete length operand state.frames

/-- A call whose argument list is not empty waits for its first argument before anything is known
about the item that starts it. -/
def State.opened (state : State) (item : Option Item) : State :=
  match state.phase, item with
  | .afterCall _ _, some (.ok ⟨.rightParen, _, _⟩) => state
  | .afterCall function span, _ =>
    { state with phase := .operand, frames := .argument function span [] :: state.frames }
  | _, _ => state

end Parser

/-- A formula read in part may not exceed the limits. -/
def Limits.allow (limits : Limits) (state : Parser.State) : Except FormulaError Unit :=
  if limits.maxNodes < state.nodes then .error (.tooComplex (.size limits.maxNodes))
  else if limits.maxDepth < state.nesting then .error (.tooComplex (.nesting limits.maxDepth))
  else .ok ()

namespace Parser

/-- Reads one item within limits. -/
def feed (limits : Limits) (state : State) (item : Item) : Except FormulaError State := do
  limits.allow (state.opened (some item))
  let state ← advance state item
  limits.allow state
  return state

/-- Ends a formula of `length` bytes within limits. -/
def finish (limits : Limits) (length : Nat) (state : State) : Except FormulaError Expr := do
  limits.allow (state.opened none)
  conclude length state

/-- The tree of a list of items that make up a formula of `length` bytes. -/
def parseItems (limits : Limits) (length : Nat) (items : List Item) : Except FormulaError Expr := do
  limits.allow .start
  let state ← items.foldlM (feed limits) .start
  finish limits length state

end Parser

/-- The tree of a formula, within limits. -/
def parse (limits : Limits) (formula : String) : Except FormulaError Expr :=
  Parser.parseItems limits formula.utf8ByteSize (itemsOf formula)

end ColumnCalc
