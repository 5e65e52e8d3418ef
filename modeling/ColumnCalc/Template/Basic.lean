/-
**Templates.**

A template bundles a header mapping with formulas for columns. Applying it accepts every formula
before any is evaluated; then the columns are written one after another in ascending order of their
names, so a formula sees what the ones in front of it have written.
-/

import ColumnCalc.Header.Mapping
import ColumnCalc.Table.FormulaColumn

namespace ColumnCalc

/-- A header mapping and column formulas under a name. -/
structure Template where
  name : String
  headerMapping : HeaderMapping
  /-- Column → text of its formula. -/
  formulas : Dictionary String
  deriving DecidableEq, Repr

/-- A table with a template's columns written, and what happened on every row of each. -/
structure AppliedTemplate where
  table : Table
  outcomes : List (String × List Outcome)

namespace AppliedTemplate

/-- The rows without a value, counted from one, with their columns and why they have none. -/
def failures (applied : AppliedTemplate) : List (Nat × String × EvalError) :=
  applied.outcomes.flatMap fun (column, outcomes) =>
    (outcomes.zipIdx 1).filterMap fun (outcome, row) =>
      match outcome with
      | .ok _ => none
      | .error error => some (row, column, error)

/-- Writes one more column. -/
def add (applied : AppliedTemplate) (column : String) (formula : Formula) : AppliedTemplate :=
  let next := formula.apply applied.table column
  { table := next.table, outcomes := applied.outcomes ++ [(column, next.outcomes)] }

end AppliedTemplate

namespace Template

/-- The formulas of a template by column, all of them accepted. -/
def accept (template : Template) (limits : Limits := {}) :
    Except FormulaError (List (String × Formula)) :=
  template.formulas.entries.mapM fun (column, text) => do
    return (column, ← Formula.accept text limits)

/-- Applies a template to a table. -/
def apply (template : Template) (table : Table) (limits : Limits := {}) :
    Except FormulaError AppliedTemplate := do
  let formulas ← template.accept limits
  return formulas.foldl (fun applied (column, formula) => applied.add column formula) ⟨table, []⟩

/-- The mapping under which a table is written: the template's, or a suggested one if that has no
entries. -/
def mappingFor (template : Template) (table : Table) : HeaderMapping :=
  if template.headerMapping.isEmpty then mapHeaders table.columns else template.headerMapping

end Template

end ColumnCalc
