/-
**A column is read and written like a field.**

What is written is read back, what is read is written back without a change, and of two writes to a
column only the second one stays. This holds of every rectangular table, also of one in which names
repeat: reading, replacing and appending all mean the first column of the name.

* `putAt_putAt`, `setColumn_setColumn` — of two writes at one place the second one stays.
* `cellsAt_setColumn` — what stands at the other places stays, whatever is named there.
* `Table.Writes`, `writes_setColumn` — what a write does to a table.
* `withColumn_lawful` — the laws, and the error of a write that does not fit.
-/

import ColumnCalc.Proofs.Table.Columns

namespace ColumnCalc

/-- **Of two writes at one place the second one stays.** -/
theorem putAt_putAt {α : Type} {index : Nat} {values : List α} (inside : index ≤ values.length)
    (value other : α) : putAt index other (putAt index value values) = putAt index other values := by
  have grown : index ≤ (putAt index value values).length := by
    rw [length_putAt]
    split <;> omega
  refine List.ext_getElem? fun place => ?_
  rw [getElem?_putAt grown, getElem?_putAt inside, getElem?_putAt inside]
  by_cases same : place = index
  · rw [if_pos same, if_pos same]
  · rw [if_neg same, if_neg same, if_neg same]

namespace Table

/-- The cells at a place of every row, whatever is named there; none where a row is too short. -/
def cellsAt (table : Table) (place : Nat) : List (Option Cell) :=
  table.rows.map (·[place]?)

/-- A column is found where it was written. -/
theorem placeOf_setColumn (table : Table) (column : String) (cells : List Cell) :
    (table.setColumn column cells).placeOf column = table.placeOf column :=
  placeOf_of_columnIndex? (by rw [columnIndex?_setColumn, if_pos rfl])

/-- **Of two writes to a column the second one stays.** -/
theorem setColumn_setColumn {table : Table} (rectangular : table.Rectangular) (column : String)
    {cells others : List Cell} (complete : cells.length = table.size)
    (othersComplete : others.length = table.size) :
    (table.setColumn column cells).setColumn column others = table.setColumn column others := by
  have afterFirst := rectangular_setColumn rectangular column complete
  have completeLater := othersComplete.trans (size_setColumn table column complete).symm
  ext1
  · rw [columns_setColumn, placeOf_setColumn, columns_setColumn, columns_setColumn,
      putAt_putAt (table.placeOf_le column)]
  · refine List.ext_getElem? fun index => ?_
    rw [getElem?_setColumn afterFirst column completeLater, placeOf_setColumn,
      getElem?_setColumn rectangular column complete,
      getElem?_setColumn rectangular column othersComplete]
    cases isRow : table.rows[index]? with
    | none => rfl
    | some row =>
      obtain ⟨cell, isCell⟩ := exists_cell complete isRow
      obtain ⟨other, isOther⟩ := exists_cell othersComplete isRow
      have inside := placeOf_le_row rectangular (List.mem_of_getElem? isRow) column
      rw [isCell, isOther]
      exact congrArg some (putAt_putAt inside cell other)

/-- **What stands at another place stays**, also where a name is repeated. -/
theorem cellsAt_setColumn {table : Table} (rectangular : table.Rectangular) (column : String)
    {cells : List Cell} (complete : cells.length = table.size) {place : Nat}
    (elsewhere : place ≠ table.placeOf column) :
    (table.setColumn column cells).cellsAt place = table.cellsAt place := by
  refine List.ext_getElem? fun index => ?_
  rw [cellsAt, cellsAt, List.getElem?_map, List.getElem?_map,
    getElem?_setColumn rectangular column complete]
  cases isRow : table.rows[index]? with
  | none => rfl
  | some row =>
    obtain ⟨cell, isCell⟩ := exists_cell complete isRow
    have inside := placeOf_le_row rectangular (List.mem_of_getElem? isRow) column
    rw [isCell, Option.bind_some, Option.map_some, Option.map_some, Option.map_some,
      getElem?_putAt inside, if_neg elsewhere]

/-- A column that is there has its cells. -/
theorem exists_column? {table : Table} {column : String} (present : column ∈ table.columns) :
    ∃ cells, table.column? column = some cells := by
  rw [column?, columnIndex?_of_mem present]
  exact ⟨_, rfl⟩

/-- There is one cell for each row. -/
theorem length_column? {table : Table} {column : String} {cells : List Cell}
    (isColumn : table.column? column = some cells) : cells.length = table.size := by
  obtain ⟨place, -, rfl⟩ := Option.map_eq_some_iff.1 isColumn
  exact List.length_map _

/-- **What a write does**: the column has the cells, at its place or behind all others, and nothing
else has changed. -/
structure Writes (table : Table) (column : String) (cells : List Cell) (written : Table) : Prop where
  rectangular : written.Rectangular
  size : written.size = table.size
  columns : written.columns
    = if column ∈ table.columns then table.columns else table.columns ++ [column]
  cells : written.column? column = some cells
  others : ∀ name, name ≠ column → written.column? name = table.column? name
  places : ∀ place, place < table.columns.length → table.columnIndex? column ≠ some place →
    written.cellsAt place = table.cellsAt place

theorem writes_setColumn {table : Table} (rectangular : table.Rectangular) (column : String)
    {cells : List Cell} (complete : cells.length = table.size) :
    table.Writes column cells (table.setColumn column cells) where
  rectangular := rectangular_setColumn rectangular column complete
  size := size_setColumn table column complete
  columns := by
    by_cases present : column ∈ table.columns
    · rw [columns_setColumn_of_mem present, if_pos present]
    · rw [columns_setColumn, placeOf_of_not_mem present, putAt, if_neg (Nat.lt_irrefl _),
        if_neg present]
  cells := by rw [column?_setColumn rectangular column complete, if_pos rfl]
  others name different := by
    rw [column?_setColumn rectangular column complete, if_neg different]
  places place inside elsewhere := by
    refine cellsAt_setColumn rectangular column complete fun same => ?_
    by_cases present : column ∈ table.columns
    · exact elsewhere (same ▸ columnIndex?_of_mem present)
    · -- A new column comes behind every place that was there.
      rw [placeOf_of_not_mem present] at same
      omega

theorem withColumn_of_complete {table : Table} (column : String) {cells : List Cell}
    (complete : cells.length = table.size) :
    table.withColumn column cells = .ok (table.setColumn column cells) :=
  if_pos complete

theorem withColumn_of_incomplete {table : Table} (column : String) {cells : List Cell}
    (incomplete : cells.length ≠ table.size) :
    table.withColumn column cells = .error (.columnLength column table.size cells.length) :=
  if_neg incomplete

/-- A column can be written again, with the result that it would have had at first. -/
theorem withColumn_setColumn {table : Table} (rectangular : table.Rectangular) (column : String)
    {cells : List Cell} (complete : cells.length = table.size) (others : List Cell) :
    (table.setColumn column cells).withColumn column others = table.withColumn column others := by
  have sameSize := size_setColumn table column complete
  by_cases othersComplete : others.length = table.size
  · rw [withColumn_of_complete column (othersComplete.trans sameSize.symm),
      withColumn_of_complete column othersComplete,
      setColumn_setColumn rectangular column complete othersComplete]
  · rw [withColumn_of_incomplete column fun same => othersComplete (same.trans sameSize),
      withColumn_of_incomplete column othersComplete, sameSize]

/-- **Columns obey the laws of a lens.** With one cell for each row a column is written; it has the
cells then, in the place of the first column of its name or behind all columns, and no other column
and no other place has changed. Writing it once more leaves what the second write alone would have
left, whatever is written. A column that is read and written back leaves the table as it is. With
any other number of cells nothing is written, and the error states both numbers. -/
theorem withColumn_lawful {table : Table} (rectangular : table.Rectangular) (column : String) :
    (∀ cells : List Cell, cells.length = table.size →
      ∃ written, table.withColumn column cells = .ok written ∧ table.Writes column cells written ∧
        ∀ others, written.withColumn column others = table.withColumn column others) ∧
    (column ∈ table.columns → ∃ cells, table.column? column = some cells ∧
      table.withColumn column cells = .ok table) ∧
    ∀ cells : List Cell, cells.length ≠ table.size →
      table.withColumn column cells = .error (.columnLength column table.size cells.length) := by
  refine ⟨fun cells complete => ?_, fun present => ?_, fun cells => withColumn_of_incomplete column⟩
  · exact ⟨_, withColumn_of_complete column complete, writes_setColumn rectangular column complete,
      withColumn_setColumn rectangular column complete⟩
  · obtain ⟨cells, isColumn⟩ := exists_column? present
    refine ⟨cells, isColumn, ?_⟩
    rw [withColumn_of_complete column (length_column? isColumn),
      setColumn_column? rectangular isColumn]

/-- The first of two columns of a name is written and the second one stays as it is; two cells for
one row are too many. -/
theorem withColumn_lawful_repeated :
    let table : Table := ⟨["a", "n", "a"], [[.number 1, .number 2, .text "x"]]⟩
    table.Rectangular ∧
    (∃ written, table.withColumn "a" [.empty] = .ok written ∧ table.Writes "a" [.empty] written ∧
      ∀ others, written.withColumn "a" others = table.withColumn "a" others) ∧
    table.withColumn "a" [.empty, .empty] = .error (.columnLength "a" 1 2) := by
  intro table
  have rectangular : table.Rectangular := by decide
  have lawful := withColumn_lawful rectangular "a"
  exact ⟨rectangular, lawful.1 [.empty] rfl, lawful.2.2 [.empty, .empty] (by decide)⟩

end Table

end ColumnCalc
