/-
**Formula trees.**

A tree holds numbers, names, signs, the five binary operators and calls, and nothing else.
`render` writes it in prefix form, `nodeCount` measures it, and `reads` lists the names it
reads, each at its first use.
-/

import ColumnCalc.Formula.Error
import ColumnCalc.Number.Shortest

namespace ColumnCalc

inductive BinaryOp where
  | add
  | sub
  | mul
  | div
  | pow
  deriving DecidableEq, Repr

def BinaryOp.symbol : BinaryOp → String
  | .add => "+"
  | .sub => "-"
  | .mul => "*"
  | .div => "/"
  | .pow => "**"

/-- A sign in front of an operand. -/
inductive UnaryOp where
  | neg
  | plus
  deriving DecidableEq, Repr

def UnaryOp.symbol : UnaryOp → String
  | .neg => "-"
  | .plus => "+"

/-- A formula's tree. Names and calls carry the span of their name. -/
inductive Expr where
  | literal (value : Float)
  | name (text : String) (span : Span)
  | unary (op : UnaryOp) (operand : Expr)
  | binary (op : BinaryOp) (lhs rhs : Expr)
  | call (function : String) (span : Span) (arguments : List Expr)
  deriving Repr, Inhabited

namespace Expr

mutual

/-- The number of nodes of a tree. -/
def nodeCount : Expr → Nat
  | literal _ => 1
  | name _ _ => 1
  | unary _ operand => 1 + nodeCount operand
  | binary _ lhs rhs => 1 + (nodeCount lhs + nodeCount rhs)
  | call _ _ arguments => 1 + nodeCounts arguments

/-- The number of nodes of several trees. -/
def nodeCounts : List Expr → Nat
  | [] => 0
  | first :: rest => nodeCount first + nodeCounts rest

end

mutual

/-- The names of a tree from left to right, with repetitions. -/
def names : Expr → List String
  | literal _ => []
  | name text _ => [text]
  | unary _ operand => names operand
  | binary _ lhs rhs => names lhs ++ names rhs
  | call _ _ arguments => namesOfAll arguments

/-- The names of several trees. -/
def namesOfAll : List Expr → List String
  | [] => []
  | first :: rest => names first ++ namesOfAll rest

end

/-- The names that a tree reads, each once, in the order of their first use. -/
def reads (tree : Expr) : List String :=
  tree.names.foldl (fun seen name => if seen.contains name then seen else seen ++ [name]) []

mutual

/-- The prefix form of a tree: `(* (+ a 1) 2)`, `(ROUND x 2)`. -/
def render : Expr → String
  | literal value => renderNumber value
  | name text _ => text
  | unary op operand => "(" ++ op.symbol ++ " " ++ render operand ++ ")"
  | binary op lhs rhs => "(" ++ op.symbol ++ " " ++ render lhs ++ " " ++ render rhs ++ ")"
  | call function _ arguments => "(" ++ function ++ renderAll arguments ++ ")"

/-- The prefix forms of several trees, each behind a space. -/
def renderAll : List Expr → String
  | [] => ""
  | first :: rest => " " ++ render first ++ renderAll rest

end

end Expr

end ColumnCalc
