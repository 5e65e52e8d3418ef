/-
**The value of a formula on one row.**

A context binds names to numbers. Operands are evaluated from left to right before what is done
with them, and the first failure is the answer. Every operator checks that its result is finite.
-/

import ColumnCalc.Dictionary
import ColumnCalc.Formula.Builtin

namespace ColumnCalc

/-- The numbers that a formula may refer to by name. -/
abbrev Context := Dictionary Float

namespace BinaryOp

/-- The operation itself, with the divisions by zero taken out. -/
def compute (op : BinaryOp) (lhs rhs : Float) : Outcome :=
  match op with
  | .add => .ok (lhs + rhs)
  | .sub => .ok (lhs - rhs)
  | .mul => .ok (lhs * rhs)
  | .div => if rhs == 0.0 then .error .divisionByZero else .ok (lhs / rhs)
  | .pow => if lhs == 0.0 && rhs < 0.0 then .error .divisionByZero else .ok (lhs.pow rhs)

/-- The operation; a result that is not finite is a failure. -/
def apply (op : BinaryOp) (lhs rhs : Float) : Outcome :=
  match op.compute lhs rhs with
  | .ok value => if value.isFinite then .ok value else .error (.overflow op)
  | .error error => .error error

end BinaryOp

def UnaryOp.apply : UnaryOp → Float → Float
  | .neg, value => -value
  | .plus, value => value

/-- Calls a function by name. -/
def callByName (function : String) (arguments : List Float) : Outcome :=
  match Builtin.ofName? function with
  | some builtin => builtin.apply arguments
  | none => .error (.invalidArguments function .notPermitted)

namespace Expr

mutual

/-- The value of a tree. A function outside the permitted ones fails here too, so that a tree needs
no check before it is evaluated. -/
def evaluate (context : Context) : Expr → Outcome
  | literal value => .ok value
  | name text _ =>
    match context.get? text with
    | some value => .ok value
    | none => .error (.unknownVariable text)
  | unary op operand => do
    let value ← evaluate context operand
    return op.apply value
  | binary op lhs rhs => do
    let left ← evaluate context lhs
    let right ← evaluate context rhs
    op.apply left right
  | call function _ arguments => do
    let values ← evaluateAll context arguments
    callByName function values

/-- The values of several trees, up to the first failure. -/
def evaluateAll (context : Context) : List Expr → Except EvalError (List Float)
  | [] => .ok []
  | first :: rest => do
    let value ← evaluate context first
    let values ← evaluateAll context rest
    return value :: values

end

end Expr

end ColumnCalc
