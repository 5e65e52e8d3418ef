/-
**Every table that can be reached is rectangular.**

A table is made and changed in nine ways (`Edit`). An edit is run on the table at hand, and what
it has changed before it fails stays changed (`Editing`). A row is pushed into the table at hand,
so its width has to be checked first; all other ways make a new table, which takes the place of
the one at hand when it is complete.

* `run_failed` — an edit that fails has changed nothing.
* `rectangular_made` — each edit makes a rectangular table out of a rectangular one.
* `rectangular_after` — hence every table after a sequence of edits is rectangular.
* `reachable_rectangular` — all of it, and that no reader meets a row of a wrong width.
-/

import ColumnCalc.Proofs.Table.Reading
import ColumnCalc.Proofs.Table.RowByRow
import ColumnCalc.Template.Basic

namespace ColumnCalc

/-- Why an edit fails. -/
inductive EditError where
  | ofTable (error : TableError)
  | ofFormula (error : FormulaError)

/-- **The ways in which a table is made or changed.** -/
inductive Edit where
  /-- A table without rows. -/
  | new (columns : List String)
  /-- A table of empty cells. -/
  | blank (columns : List String) (rows : Nat)
  | pushRow (cells : List Cell)
  | withColumn (column : String) (cells : List Cell)
  | readCsv (bytes : Text.Bytes)
  | readXlsx (bytes : Text.Bytes)
  /-- A formula that has been accepted, or any other one. -/
  | apply (formula : Formula) (column : String)
  /-- The text of a formula. -/
  | applyText (column text : String) (limits : Limits)
  | applyTemplate (template : Template) (limits : Limits)

/-- A computation on the table at hand. A failure keeps what was changed before it. -/
abbrev Editing := ExceptT EditError (StateM Table)

namespace Edit

/-- The table that an edit makes of a table. -/
def made (table : Table) : Edit → Except EditError Table
  | .new columns => .ok (.ofColumns columns)
  | .blank columns rows => .ok (.blank columns rows)
  | .pushRow cells => (table.pushRow cells).mapError .ofTable
  | .withColumn column cells => (table.withColumn column cells).mapError .ofTable
  | .readCsv bytes => (Table.ofCsv bytes).mapError .ofTable
  | .readXlsx bytes => (Table.ofXlsx bytes).mapError .ofTable
  | .apply formula column => .ok (formula.apply table column).table
  | .applyText column text limits =>
    ((table.applyToColumn column text limits).map Applied.table).mapError .ofFormula
  | .applyTemplate template limits =>
    ((template.apply table limits).map AppliedTemplate.table).mapError .ofFormula

/-- Adds a row to the table at hand, after its width has been checked. -/
def push (cells : List Cell) : Editing Unit := do
  let table ← get
  let row ← MonadExcept.ofExcept ((table.checkedRow (table.size + 1) cells).mapError .ofTable)
  modify fun table => { table with rows := table.rows ++ [row] }

/-- Puts the table that an edit makes in the place of the table at hand. -/
def replace (edit : Edit) : Editing Unit := do
  set (← MonadExcept.ofExcept (edit.made (← get)))

/-- Performs an edit on the table at hand. -/
def perform : Edit → Editing Unit
  | .pushRow cells => push cells
  | edit => edit.replace

/-- Runs an edit on a table: how it ends, and the table after it. -/
def run (edit : Edit) (table : Table) : Except EditError Unit × Table :=
  (ExceptT.run edit.perform).run table

/-- The table after a sequence of edits, failed ones among them. -/
def after (table : Table) (edits : List Edit) : Table :=
  edits.foldl (fun table edit => (edit.run table).2) table

/-! ### One edit -/

theorem replace_of_made {edit : Edit} {table next : Table} (isMade : edit.made table = .ok next) :
    (ExceptT.run edit.replace).run table = (.ok (), next) := by
  show (ExceptT.run (MonadExcept.ofExcept (edit.made table) >>= set : Editing Unit)).run table = _
  rw [isMade]
  rfl

theorem replace_of_failed {edit : Edit} {table : Table} {error : EditError}
    (fails : edit.made table = .error error) :
    (ExceptT.run edit.replace).run table = (.error error, table) := by
  show (ExceptT.run (MonadExcept.ofExcept (edit.made table) >>= set : Editing Unit)).run table = _
  rw [fails]
  rfl

/-- Pushing a row in place comes to the same as making the table with the row. -/
theorem run_push (cells : List Cell) (table : Table) :
    (ExceptT.run (push cells)).run table = (ExceptT.run (replace (.pushRow cells))).run table := by
  have pushed : (ExceptT.run (push cells)).run table = (ExceptT.run (MonadExcept.ofExcept
      ((table.checkedRow (table.size + 1) cells).mapError .ofTable) >>= fun row =>
        modify fun table => { table with rows := table.rows ++ [row] } : Editing Unit)).run
          table := rfl
  have replaced : (ExceptT.run (replace (.pushRow cells))).run table = (ExceptT.run
      (MonadExcept.ofExcept ((table.pushRow cells).mapError .ofTable) >>= set : Editing Unit)).run
        table := rfl
  rw [pushed, replaced, Table.pushRow]
  cases table.checkedRow (table.size + 1) cells with
  | error error => rfl
  | ok row => rfl

theorem run_eq_replace (edit : Edit) (table : Table) :
    edit.run table = (ExceptT.run edit.replace).run table := by
  cases edit with
  | pushRow cells => exact run_push cells table
  | _ => rfl

theorem run_of_made {edit : Edit} {table next : Table} (isMade : edit.made table = .ok next) :
    edit.run table = (.ok (), next) := by
  rw [run_eq_replace, replace_of_made isMade]

theorem run_of_failed {edit : Edit} {table : Table} {error : EditError}
    (fails : edit.made table = .error error) : edit.run table = (.error error, table) := by
  rw [run_eq_replace, replace_of_failed fails]

/-- **An edit that fails has changed nothing.** -/
theorem run_failed {edit : Edit} {table last : Table} {error : EditError}
    (failed : edit.run table = (.error error, last)) : last = table := by
  cases isMade : edit.made table with
  | ok next =>
    rw [run_of_made isMade] at failed
    cases failed
  | error cause =>
    rw [run_of_failed isMade] at failed
    cases failed
    rfl

theorem rectangular_withColumn {table grown : Table} {column : String} {cells : List Cell}
    (rectangular : table.Rectangular) (written : table.withColumn column cells = .ok grown) :
    grown.Rectangular := by
  unfold Table.withColumn at written
  split at written
  · rename_i complete
    cases written
    exact Table.rectangular_setColumn rectangular column complete
  · cases written

/-- A template writes one column after another. -/
theorem rectangular_applyTemplate {template : Template} {table : Table} {limits : Limits}
    {applied : AppliedTemplate} (rectangular : table.Rectangular)
    (written : template.apply table limits = .ok applied) : applied.table.Rectangular := by
  obtain ⟨formulas, _, made⟩ := bind_eq_ok.1 written
  cases made
  refine List.foldlRecOn (motive := fun applied : AppliedTemplate => applied.table.Rectangular)
    formulas _ rectangular ?_
  intro applied kept formula _
  exact Formula.rectangular_apply kept _ _

/-- **Each edit makes a rectangular table out of a rectangular one.** -/
theorem rectangular_made {edit : Edit} {table next : Table} (rectangular : table.Rectangular)
    (isMade : edit.made table = .ok next) : next.Rectangular := by
  cases edit with
  | new columns =>
    cases isMade
    exact Table.rectangular_ofColumns columns
  | blank columns rows =>
    cases isMade
    exact Table.rectangular_blank columns rows
  | pushRow cells => exact Table.rectangular_pushRow rectangular (mapError_eq_ok.1 isMade)
  | withColumn column cells => exact rectangular_withColumn rectangular (mapError_eq_ok.1 isMade)
  | readCsv bytes => exact Table.rectangular_ofCsv (mapError_eq_ok.1 isMade)
  | readXlsx bytes => exact Table.rectangular_ofXlsx (mapError_eq_ok.1 isMade)
  | apply formula column =>
    cases isMade
    exact formula.rectangular_apply rectangular column
  | applyText column text limits =>
    obtain ⟨applied, written, rfl⟩ := map_eq_ok.1 (mapError_eq_ok.1 isMade)
    obtain ⟨formula, _, made⟩ := bind_eq_ok.1 written
    cases made
    exact formula.rectangular_apply rectangular column
  | applyTemplate template limits =>
    obtain ⟨applied, written, rfl⟩ := map_eq_ok.1 (mapError_eq_ok.1 isMade)
    exact rectangular_applyTemplate rectangular written

/-- One edit, whether it fails or not. -/
theorem rectangular_run {table : Table} (rectangular : table.Rectangular) (edit : Edit) :
    (edit.run table).2.Rectangular := by
  cases isMade : edit.made table with
  | ok next =>
    rw [run_of_made isMade]
    exact rectangular_made rectangular isMade
  | error error =>
    rw [run_of_failed isMade]
    exact rectangular

/-! ### Sequences of edits -/

/-- **Every sequence of edits keeps a table rectangular.** -/
theorem rectangular_after {table : Table} (rectangular : table.Rectangular) (edits : List Edit) :
    (after table edits).Rectangular := by
  induction edits generalizing table with
  | nil => exact rectangular
  | cons edit edits ih => exact ih (rectangular_run rectangular edit)

end Edit

/-- In a rectangular table the cell of a column that is found is there. -/
theorem Table.inside_of_columnIndex? {table : Table} (rectangular : table.Rectangular)
    {column : String} {index : Nat} (found : table.columnIndex? column = some index)
    {row : List Cell} (member : row ∈ table.rows) : index < row.length := by
  rw [rectangular row member]
  exact (List.findIdx?_eq_some_iff_findIdx_eq.1 found).1

/-- **Every table that can be reached is rectangular.** After any sequence of edits of the empty
table every row has one cell per column, so the cell of any column that is found is there. An edit
that fails leaves the table exactly as it was. And no reader ever fails because of a row's width.
-/
theorem reachable_rectangular :
    (∀ edits : List Edit, (Edit.after .empty edits).Rectangular ∧
      ∀ column index, (Edit.after .empty edits).columnIndex? column = some index →
        ∀ row ∈ (Edit.after .empty edits).rows, index < row.length) ∧
    (∀ (edit : Edit) (table last : Table) (error : EditError),
      edit.run table = (.error error, last) → last = table) ∧
    ∀ (bytes : Text.Bytes) (row expected actual : Nat),
      Table.ofCsv bytes ≠ .error (.rowWidth row expected actual) ∧
      Table.ofXlsx bytes ≠ .error (.rowWidth row expected actual) := by
  refine ⟨fun edits => ?_, fun _ _ _ _ failed => Edit.run_failed failed, fun bytes row _ _ => ?_⟩
  · have rectangular := Edit.rectangular_after (Table.rectangular_ofColumns []) edits
    exact ⟨rectangular,
      fun _ _ found _ member => Table.inside_of_columnIndex? rectangular found member⟩
  · exact ⟨fun failed => Table.ofCsv_failsWith bytes _ failed,
      fun failed => Table.ofXlsx_failsWith bytes _ failed⟩

/-- A row that is too short is refused, and the row that was there before it stays. -/
theorem reachable_rectangular_push :
    let table := Edit.after .empty
      [.new ["a", "b"], .pushRow [.empty, .text "x"], .pushRow [.empty]]
    table.Rectangular ∧ table = ⟨["a", "b"], [[.empty, .text "x"]]⟩ :=
  ⟨(reachable_rectangular.1 _).1, rfl⟩

end ColumnCalc
