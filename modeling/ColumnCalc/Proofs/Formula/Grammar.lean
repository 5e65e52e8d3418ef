/-
**The grammar of formulas.**

```
expr      = term {(+|-) term}            grouping to the left
term      = unary {(*|/) unary}          grouping to the left
unary     = (+|-) unary | power
power     = primary [** unary]
primary   = number | name | name ( [arguments] ) | ( expr )
arguments = expr {, expr}
```

`Derives` relates what a symbol of this grammar stands for with the tokens that spell it. It says
nothing of how formulas are read: no stack, no binding power, no look-ahead. A tree's names carry the
spans of their tokens, and parentheses leave no node.

* `Viable` — the tokens start a sentence of the grammar.
* `Derives.starts` — no symbol is spelled by nothing, and none starts with a closing parenthesis.
-/

import ColumnCalc.Formula.Expr
import ColumnCalc.Formula.Token

namespace ColumnCalc.Grammar

/-- A symbol of the grammar, with what it stands for. -/
inductive Phrase where
  | expr (tree : Expr)
  | term (tree : Expr)
  | unary (tree : Expr)
  | power (tree : Expr)
  | primary (tree : Expr)
  | arguments (trees : List Expr)

/-- The tokens between the operands of a sum. -/
def sumSigns : List (TokenKind × BinaryOp) := [(.plus, .add), (.minus, .sub)]

/-- The tokens between the operands of a product. -/
def productSigns : List (TokenKind × BinaryOp) := [(.star, .mul), (.slash, .div)]

/-- The tokens in front of an operand. -/
def prefixSigns : List (TokenKind × UnaryOp) := [(.plus, .plus), (.minus, .neg)]

/-- **The grammar**: the tokens spell the phrase. -/
inductive Derives : Phrase → List Token → Prop
  -- expr = term {(+|-) term}
  | ofTerm {tree : Expr} {tokens : List Token} :
      Derives (.term tree) tokens → Derives (.expr tree) tokens
  | sum {lhs rhs : Expr} {left right : List Token} {sign : Token} {op : BinaryOp} :
      Derives (.expr lhs) left → (sign.kind, op) ∈ sumSigns → Derives (.term rhs) right →
      Derives (.expr (.binary op lhs rhs)) (left ++ sign :: right)
  -- term = unary {(*|/) unary}
  | ofUnary {tree : Expr} {tokens : List Token} :
      Derives (.unary tree) tokens → Derives (.term tree) tokens
  | product {lhs rhs : Expr} {left right : List Token} {sign : Token} {op : BinaryOp} :
      Derives (.term lhs) left → (sign.kind, op) ∈ productSigns → Derives (.unary rhs) right →
      Derives (.term (.binary op lhs rhs)) (left ++ sign :: right)
  -- unary = (+|-) unary | power
  | sign {operand : Expr} {tokens : List Token} {sign : Token} {op : UnaryOp} :
      (sign.kind, op) ∈ prefixSigns → Derives (.unary operand) tokens →
      Derives (.unary (.unary op operand)) (sign :: tokens)
  | ofPower {tree : Expr} {tokens : List Token} :
      Derives (.power tree) tokens → Derives (.unary tree) tokens
  -- power = primary [** unary]
  | ofPrimary {tree : Expr} {tokens : List Token} :
      Derives (.primary tree) tokens → Derives (.power tree) tokens
  | power {lhs rhs : Expr} {left right : List Token} {sign : Token} :
      Derives (.primary lhs) left → sign.kind = .starStar → Derives (.unary rhs) right →
      Derives (.power (.binary .pow lhs rhs)) (left ++ sign :: right)
  -- primary = number | name | name ( [arguments] ) | ( expr )
  | number {value : Float} {token : Token} :
      token.kind = .number value → Derives (.primary (.literal value)) [token]
  | name {token : Token} :
      token.kind = .name → Derives (.primary (.name token.literal token.span)) [token]
  | emptyCall {name opening closing : Token} :
      name.kind = .name → opening.kind = .leftParen → closing.kind = .rightParen →
      Derives (.primary (.call name.literal name.span [])) [name, opening, closing]
  | call {name opening closing : Token} {trees : List Expr} {tokens : List Token} :
      name.kind = .name → opening.kind = .leftParen → Derives (.arguments trees) tokens →
      closing.kind = .rightParen →
      Derives (.primary (.call name.literal name.span trees))
        (name :: opening :: tokens ++ [closing])
  | paren {opening closing : Token} {tree : Expr} {tokens : List Token} :
      opening.kind = .leftParen → Derives (.expr tree) tokens → closing.kind = .rightParen →
      Derives (.primary tree) (opening :: tokens ++ [closing])
  -- arguments = expr {, expr}
  | last {tree : Expr} {tokens : List Token} :
      Derives (.expr tree) tokens → Derives (.arguments [tree]) tokens
  | more {tree : Expr} {trees : List Expr} {first rest : List Token} {comma : Token} :
      Derives (.expr tree) first → comma.kind = .comma → Derives (.arguments trees) rest →
      Derives (.arguments (tree :: trees)) (first ++ comma :: rest)

/-- **The tokens start a sentence**: with some further tokens they spell a formula. -/
def Viable (tokens : List Token) : Prop :=
  ∃ (rest : List Token) (tree : Expr), Derives (.expr tree) (tokens ++ rest)

theorem Viable.of_append {tokens rest : List Token} (viable : Viable (tokens ++ rest)) :
    Viable tokens := by
  obtain ⟨further, tree, derived⟩ := viable
  exact ⟨rest ++ further, tree, by rwa [← List.append_assoc]⟩

/-- The tokens end with a complete operand: a number, a name, a call or a parenthesis. -/
def EndsInOperand (tokens : List Token) : Prop :=
  ∃ (before operand : List Token) (tree : Expr),
    tokens = before ++ operand ∧ Derives (.primary tree) operand

namespace Derives

/-! ### Symbols that include others -/

theorem unary_of_primary {tree : Expr} {tokens : List Token}
    (derived : Derives (.primary tree) tokens) : Derives (.unary tree) tokens :=
  .ofPower (.ofPrimary derived)

theorem term_of_power {tree : Expr} {tokens : List Token}
    (derived : Derives (.power tree) tokens) : Derives (.term tree) tokens :=
  .ofUnary (.ofPower derived)

theorem term_of_primary {tree : Expr} {tokens : List Token}
    (derived : Derives (.primary tree) tokens) : Derives (.term tree) tokens :=
  term_of_power (.ofPrimary derived)

theorem expr_of_unary {tree : Expr} {tokens : List Token}
    (derived : Derives (.unary tree) tokens) : Derives (.expr tree) tokens :=
  .ofTerm (.ofUnary derived)

theorem expr_of_primary {tree : Expr} {tokens : List Token}
    (derived : Derives (.primary tree) tokens) : Derives (.expr tree) tokens :=
  .ofTerm (term_of_primary derived)

/-! ### What a phrase starts with -/

/-- **A phrase has a first token**, and that is no closing parenthesis. -/
theorem starts {phrase : Phrase} {tokens : List Token} (derived : Derives phrase tokens) :
    ∃ first rest, tokens = first :: rest ∧ first.kind ≠ .rightParen := by
  induction derived with
  | ofTerm _ ih => exact ih
  | ofUnary _ ih => exact ih
  | ofPower _ ih => exact ih
  | ofPrimary _ ih => exact ih
  | last _ ih => exact ih
  | sum _ _ _ ih _ =>
    obtain ⟨first, rest, rfl, other⟩ := ih
    exact ⟨first, _, rfl, other⟩
  | product _ _ _ ih _ =>
    obtain ⟨first, rest, rfl, other⟩ := ih
    exact ⟨first, _, rfl, other⟩
  | power _ _ _ ih _ =>
    obtain ⟨first, rest, rfl, other⟩ := ih
    exact ⟨first, _, rfl, other⟩
  | more _ _ _ ih _ =>
    obtain ⟨first, rest, rfl, other⟩ := ih
    exact ⟨first, _, rfl, other⟩
  | sign prefixed _ _ =>
    refine ⟨_, _, rfl, fun same => ?_⟩
    simp [prefixSigns, same] at prefixed
  | number isNumber => exact ⟨_, _, rfl, by simp [isNumber]⟩
  | name isName => exact ⟨_, _, rfl, by simp [isName]⟩
  | emptyCall isName _ _ => exact ⟨_, _, rfl, by simp [isName]⟩
  | call isName _ _ _ _ => exact ⟨_, _, rfl, by simp [isName]⟩
  | paren isOpening _ _ _ => exact ⟨_, _, rfl, by simp [isOpening]⟩

end Derives

end ColumnCalc.Grammar
