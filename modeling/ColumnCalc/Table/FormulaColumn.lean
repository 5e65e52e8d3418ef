/-
**Formulas over the rows of a table.**

A row's context binds the names of its number cells; of several columns of one name the first one
decides, whatever it holds. Applying a formula evaluates it on every row by itself and writes the
results to a column, a row without a value getting an empty cell.
-/

import ColumnCalc.Formula.Basic
import ColumnCalc.Table.Basic

namespace ColumnCalc

/-- The entries of a row whose name does not stand among `seen` or further left. -/
def firstEntries (seen : List String) : List (String × Cell) → List (String × Cell)
  | [] => []
  | (name, cell) :: rest =>
    if seen.contains name then firstEntries seen rest
    else (name, cell) :: firstEntries (name :: seen) rest

/-- The context of a row: the names whose first column holds a number. -/
def Context.ofRow (columns : List String) (cells : List Cell) : Context :=
  Dictionary.ofList <|
    (firstEntries [] (columns.zip cells)).filterMap fun (name, cell) =>
      cell.number?.map fun value => (name, value)

/-- A table with a formula's column written, and what happened on every row. -/
structure Applied where
  table : Table
  outcomes : List Outcome

namespace Applied

/-- The rows without a value, counted from one, and why they have none. -/
def failures (applied : Applied) : List (Nat × EvalError) :=
  (applied.outcomes.zipIdx 1).filterMap fun (outcome, row) =>
    match outcome with
    | .ok _ => none
    | .error error => some (row, error)

end Applied

/-- The cell that an outcome is written as. -/
def Cell.ofOutcome : Outcome → Cell
  | .ok value => .number value
  | .error _ => .empty

namespace Formula

/-- The formula's outcome on every row of a table. -/
def outcomes (formula : Formula) (table : Table) : List Outcome :=
  table.rows.map fun row => formula.evaluate (Context.ofRow table.columns row)

/-- Evaluates the formula on every row and writes the results to a column. -/
def apply (formula : Formula) (table : Table) (column : String) : Applied :=
  let outcomes := formula.outcomes table
  { table := table.setColumn column (outcomes.map Cell.ofOutcome), outcomes }

end Formula

/-- Applies the formula of a text to a table. A text that is not accepted leaves it untouched. -/
def Table.applyToColumn (table : Table) (column text : String) (limits : Limits := {}) :
    Except FormulaError Applied := do
  let formula ← Formula.accept text limits
  return formula.apply table column

end ColumnCalc
