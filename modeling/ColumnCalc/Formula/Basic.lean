/-
**Accepted formulas.**

A formula is accepted when it parses within the limits and calls permitted functions only. The
check runs once, when a `Formula` is made; nothing is checked again per row.
-/

import ColumnCalc.Formula.Evaluation
import ColumnCalc.Formula.Parser

namespace ColumnCalc

namespace Expr

mutual

/-- The first call, from left to right and outside in, of a function that is not permitted. -/
def forbiddenCall? : Expr → Option (String × Span)
  | literal _ => none
  | name _ _ => none
  | unary _ operand => forbiddenCall? operand
  | binary _ lhs rhs => (forbiddenCall? lhs).or (forbiddenCall? rhs)
  | call function span arguments =>
    if (Builtin.ofName? function).isNone then some (function, span)
    else forbiddenCallOfAll? arguments

/-- The first such call of several trees. -/
def forbiddenCallOfAll? : List Expr → Option (String × Span)
  | [] => none
  | first :: rest => (forbiddenCall? first).or (forbiddenCallOfAll? rest)

end

/-- A tree passes when it has no more nodes than allowed and calls permitted functions only. -/
def check (limits : Limits) (tree : Expr) : Except FormulaError Unit :=
  if limits.maxNodes < tree.nodeCount then
    .error (.tooComplex (.tree tree.nodeCount limits.maxNodes))
  else
    match tree.forbiddenCall? with
    | some (function, span) => .error (.disallowedFunction function span)
    | none => .ok ()

end Expr

/-- A formula's text together with its checked tree. -/
structure Formula where
  text : String
  tree : Expr
  deriving Repr

namespace Formula

/-- Parses and checks a text. -/
def accept (text : String) (limits : Limits := {}) : Except FormulaError Formula := do
  let tree ← parse limits text
  tree.check limits
  return { text, tree }

/-- The formula's value on one row. -/
def evaluate (formula : Formula) (context : Context) : Outcome :=
  formula.tree.evaluate context

end Formula

end ColumnCalc
