/-
**The functions that formulas may call.**

There are three: `ROUND`, `MAX` and `MIN`. They are found by their exact names, and nothing else
can be called.
-/

import ColumnCalc.Formula.Expr
import ColumnCalc.Number.Decimals

namespace ColumnCalc

/-- What is wrong with a call's arguments. -/
inductive ArgumentFault where
  | roundCount (given : Nat)
  | placesNotWhole (places : Float)
  | noArguments
  | notPermitted
  deriving Repr, BEq

def ArgumentFault.reason : ArgumentFault → String
  | .roundCount given => "expected 1 or 2 arguments, got " ++ toString given
  | .placesNotWhole places => "ndigits must be a whole number, got " ++ renderNumber places
  | .noArguments => "requires at least one argument"
  | .notPermitted => "not a permitted function"

/-- The cause for which a single row has no value. -/
inductive EvalError where
  | unknownVariable (name : String)
  | divisionByZero
  | invalidArguments (function : String) (fault : ArgumentFault)
  | overflow (op : BinaryOp)
  deriving Repr, BEq

namespace EvalError

def message : EvalError → String
  | .unknownVariable name => "unknown variable `" ++ name ++ "`"
  | .divisionByZero => "division by zero"
  | .invalidArguments function fault =>
    "invalid arguments to " ++ function ++ ": " ++ fault.reason
  | .overflow op => "result of `" ++ op.symbol ++ "` is not a finite number"

def code : EvalError → String
  | .unknownVariable _ => "formula::unknown_variable"
  | .divisionByZero => "formula::division_by_zero"
  | .invalidArguments .. => "formula::invalid_arguments"
  | .overflow _ => "formula::overflow"

/-- Advice on how to mend the row. -/
def help? : EvalError → Option String
  | .unknownVariable _ => some "only columns holding a number in this row can be referenced"
  | _ => none

end EvalError

/-- What one row gives. -/
abbrev Outcome := Except EvalError Float

/-- A function that formulas may call. -/
inductive Builtin where
  | round
  | max
  | min
  deriving DecidableEq, Repr

namespace Builtin

def name : Builtin → String
  | .round => "ROUND"
  | .max => "MAX"
  | .min => "MIN"

/-- The function of a name; case counts. -/
def ofName? (text : String) : Option Builtin :=
  [round, max, min].find? fun builtin => builtin.name == text

/-- Every binary64 number is exact within this many decimals. -/
def exactPlaces : Nat := 1074

/-- The greatest count of places, on either side of the point; greater ones are taken for it. -/
def greatestPlaces : Nat := twoTo 31 - 1

/-- Rounds a finite number half to even: to decimals, or for negative `places` to a multiple of a
power of ten. A power past the range of finite numbers leaves a zero with the number's sign. -/
def roundAt (value : Float) (places : Int) : Float :=
  match places with
  | .ofNat count =>
    if exactPlaces < count then value else Decimals.roundToPlaces value count
  | .negSucc count =>
    let divisor := Decimals.powerOfTen (Nat.min greatestPlaces (count + 1))
    if divisor.isFinite then Decimals.roundToMultiple value divisor
    else
      match Binary64.decompose value with
      | .finite negative _ => Binary64.ofRank negative 0
      | _ => value

/-- `ROUND(value)` and `ROUND(value, places)`. -/
def applyRound (arguments : List Float) : Outcome :=
  let rounded (value places : Float) : Outcome :=
    if !Binary64.isWhole places then .error (.invalidArguments "ROUND" (.placesNotWhole places))
    else if !value.isFinite then .ok value
    else .ok (roundAt value (Binary64.truncate places))
  match arguments with
  | [value] => rounded value 0
  | [value, places] => rounded value places
  | _ => .error (.invalidArguments "ROUND" (.roundCount arguments.length))

/-- Of two numbers the first, if it is at least the second. -/
def greater (current number : Float) : Float :=
  if number ≤ current then current else number

/-- Of two numbers the first, if it is at most the second. -/
def less (current number : Float) : Float :=
  if current ≤ number then current else number

/-- `MAX(…)`: the greatest argument. -/
def applyMax : List Float → Outcome
  | [] => .error (.invalidArguments "MAX" .noArguments)
  | first :: rest => .ok (rest.foldl greater first)

/-- `MIN(…)`: the least argument. -/
def applyMin : List Float → Outcome
  | [] => .error (.invalidArguments "MIN" .noArguments)
  | first :: rest => .ok (rest.foldl less first)

/-- Applies a function to its arguments. -/
def apply : Builtin → List Float → Outcome
  | .round => applyRound
  | .max => applyMax
  | .min => applyMin

end Builtin

end ColumnCalc
