/-
**Tables.**

A table has named columns and ordered rows. Names may repeat; the first column of a name is the one
that the name refers to. A table is `Rectangular` when every row has one cell per column, and the
operations here keep it so.
-/

import ColumnCalc.Table.Cell
import ColumnCalc.Dictionary

namespace ColumnCalc

/-- The fields of a new source table, unless others are asked for. -/
def sourceFields : List String :=
  ["Model", "SKU", "Price", "Weight (lbs)", "Voltage", "Power HP"]

/-- Why a table cannot be read or changed. -/
inductive TableError where
  /-- The file cannot be opened. -/
  | unopened (path : String)
  | csvFieldCount (record line byte found expected : Nat)
  | csvEncoding (record line field byte index : Nat)
  | archive
  | markup
  | missingPart (name : String)
  | noSheets
  | sharedStringIndex (text : String)
  | rowWidth (row expected actual : Nat)
  | columnLength (column : String) (expected actual : Nat)
  deriving DecidableEq, Repr

def TableError.message : TableError → String
  | .unopened path => "failed to open `" ++ path ++ "`"
  | .csvFieldCount record line byte found expected =>
    "CSV error: record " ++ toString record ++ " (line: " ++ toString line ++ ", byte: "
      ++ toString byte ++ "): found record with " ++ toString found
      ++ " fields, but the previous record has " ++ toString expected ++ " fields"
  | .csvEncoding record line field byte index =>
    "CSV parse error: record " ++ toString record ++ " (line " ++ toString line ++ ", field: "
      ++ toString field ++ ", byte: " ++ toString byte ++ "): invalid utf-8: invalid UTF-8 in field "
      ++ toString field ++ " near byte index " ++ toString index
  | .archive => "not a readable xlsx archive"
  | .markup => "malformed xlsx content"
  | .missingPart name => "the xlsx archive has no `" ++ name ++ "`"
  | .noSheets => "invalid xlsx: the workbook has no sheets"
  | .sharedStringIndex text => "invalid xlsx: bad shared string index `" ++ text ++ "`"
  | .rowWidth row expected actual =>
    "row " ++ toString row ++ " has " ++ toString actual ++ " cells but the table has "
      ++ toString expected ++ " columns"
  | .columnLength column expected actual =>
    "column `" ++ column ++ "` would get " ++ toString actual ++ " cells for "
      ++ toString expected ++ " rows"

/-- Named columns and ordered rows. -/
structure Table where
  columns : List String
  rows : List (List Cell)
  deriving Repr, BEq, Inhabited

namespace Table

/-- Every row has one cell per column. -/
def Rectangular (table : Table) : Prop :=
  ∀ row ∈ table.rows, row.length = table.columns.length

instance (table : Table) : Decidable table.Rectangular :=
  inferInstanceAs (Decidable (∀ row ∈ table.rows, row.length = table.columns.length))

/-- A table without rows. -/
def ofColumns (columns : List String) : Table :=
  ⟨columns, []⟩

/-- The table without columns and rows. -/
def empty : Table := ofColumns []

/-- A table of empty cells. -/
def blank (columns : List String) (rows : Nat) : Table :=
  ⟨columns, List.replicate rows (List.replicate columns.length .empty)⟩

/-- The number of rows. -/
def size (table : Table) : Nat := table.rows.length

/-- The cells of the row of a number, counted from one: one cell per column. -/
def checkedRow (table : Table) (number : Nat) (cells : List Cell) :
    Except TableError (List Cell) :=
  if cells.length = table.columns.length then .ok cells
  else .error (.rowWidth number table.columns.length cells.length)

/-- Adds a row at the end. -/
def pushRow (table : Table) (cells : List Cell) : Except TableError Table := do
  let row ← table.checkedRow (table.size + 1) cells
  return { table with rows := table.rows ++ [row] }

/-- The row that a source gives as the row of a number. -/
def rowOf {α : Type} (table : Table) (cellsOf : α → Except TableError (List Cell))
    (source : α × Nat) : Except TableError (List Cell) := do
  table.checkedRow source.2 (← cellsOf source.1)

/-- Adds a row for each source, up to the first one that gives none. This is pushing the rows one by
one (`pushEach_cons`), all at once. -/
def pushEach {α : Type} (table : Table) (cellsOf : α → Except TableError (List Cell))
    (sources : List α) : Except TableError Table := do
  let rows ← (sources.zipIdx (table.size + 1)).mapM (table.rowOf cellsOf)
  return { table with rows := table.rows ++ rows }

/-- The place of the first column of a name. -/
def columnIndex? (table : Table) (column : String) : Option Nat :=
  table.columns.findIdx? (· == column)

/-- The cells of the first column of a name. -/
def column? (table : Table) (column : String) : Option (List Cell) :=
  (table.columnIndex? column).map fun index => table.rows.map (·.getD index .empty)

/-- The cell of a row in the first column of a name. -/
def cellOf? (columns : List String) (row : List Cell) (column : String) : Option Cell :=
  (columns.findIdx? (· == column)).map (row.getD · .empty)

/-- Gives the rows a cell each, in turn; rows behind the last cell stay as they are. -/
def writeCells (write : List Cell → Cell → List Cell) (rows : List (List Cell))
    (cells : List Cell) : List (List Cell) :=
  rows.zipWith write cells ++ rows.drop cells.length

/-- Writes a column, with one cell per row: in the place of the first column of its name, or as the
last column if there is none. -/
def setColumn (table : Table) (column : String) (cells : List Cell) : Table :=
  match table.columnIndex? column with
  | some index => { table with rows := writeCells (·.set index ·) table.rows cells }
  | none =>
    { columns := table.columns ++ [column], rows := writeCells (· ++ [·]) table.rows cells }

/-- The table with a column written, if there is one cell per row. -/
def withColumn (table : Table) (column : String) (cells : List Cell) : Except TableError Table :=
  if cells.length = table.size then .ok (table.setColumn column cells)
  else .error (.columnLength column table.size cells.length)

theorem rectangular_ofColumns (columns : List String) : (ofColumns columns).Rectangular := by
  simp [Rectangular, ofColumns]

theorem rectangular_blank (columns : List String) (rows : Nat) :
    (blank columns rows).Rectangular := by
  intro row member
  simp [blank, List.eq_of_mem_replicate member]

/-- A row is added exactly when it has one cell per column. -/
theorem pushRow_eq_ok_iff {table grown : Table} {cells : List Cell} :
    table.pushRow cells = .ok grown ↔ cells.length = table.columns.length ∧
      { table with rows := table.rows ++ [cells] } = grown := by
  simp only [pushRow, checkedRow]
  split
  · rename_i fits
    simp [fits, bind, Except.bind, pure, Except.pure]
  · rename_i differs
    simp [differs, bind, Except.bind]

/-- A row that is added keeps the table rectangular. -/
theorem rectangular_pushRow {table grown : Table} {cells : List Cell}
    (rectangular : table.Rectangular) (pushed : table.pushRow cells = .ok grown) :
    grown.Rectangular := by
  obtain ⟨fits, rfl⟩ := pushRow_eq_ok_iff.1 pushed
  intro row member
  rcases List.mem_append.1 member with old | new
  · exact rectangular row old
  · cases List.mem_singleton.1 new
    exact fits

@[simp] theorem pushEach_nil {α : Type} (table : Table)
    (cellsOf : α → Except TableError (List Cell)) : table.pushEach cellsOf [] = .ok table := by
  simp [pushEach, pure, Except.pure, bind, Except.bind]

/-- The first source gives the first row. -/
theorem pushEach_cons {α : Type} (table : Table) (cellsOf : α → Except TableError (List Cell))
    (source : α) (sources : List α) :
    table.pushEach cellsOf (source :: sources)
      = cellsOf source >>= fun cells =>
          table.pushRow cells >>= fun grown => grown.pushEach cellsOf sources := by
  have rowwise : (cellsOf source >>= fun cells =>
        table.pushRow cells >>= fun grown => grown.pushEach cellsOf sources)
      = table.rowOf cellsOf (source, table.size + 1) >>= fun row =>
          { table with rows := table.rows ++ [row] }.pushEach cellsOf sources := by
    simp only [rowOf, pushRow, bind_assoc, pure_bind]
  rw [rowwise, pushEach, List.zipIdx_cons, List.mapM_cons]
  cases table.rowOf cellsOf (source, table.size + 1) with
  | error error => rfl
  | ok row =>
    have counted : { table with rows := table.rows ++ [row] }.size = table.size + 1 := by
      simp [size]
    show ((sources.zipIdx (table.size + 1 + 1)).mapM (table.rowOf cellsOf)
      >>= fun rows => pure (row :: rows)) >>= _ = pushEach _ cellsOf sources
    rw [pushEach, counted]
    simp only [bind_assoc, pure_bind, List.append_assoc, List.singleton_append]
    rfl

end Table

end ColumnCalc
