/-
**Writing a column.**

A column is written at its *place*: that of the first column of its name, or behind the last
column. On a rectangular table with one cell per row, every row and the names are changed in the
same way (`putAt`), so a write is described by a look-up in one list.

* `getElem?_putAt` — a write is seen at its place and nowhere else.
* `setColumn_eq` — a column is put at its place in the names and in every row.
* `rectangular_setColumn` — the table stays rectangular.
* `column?_setColumn`, `setColumn_column?`, `setColumn_comm` — what is written is read back and
  nothing else changes, what is read is written back without a change, and two columns can be
  written in either order unless both are new.
-/

import ColumnCalc.Table.Basic
import Mathlib.Data.List.Basic

namespace ColumnCalc

/-! ### One value in a list -/

section Put

variable {α : Type}

/-- The list with a value put at an index, which may be the one behind its end. -/
def putAt (index : Nat) (value : α) (values : List α) : List α :=
  if index < values.length then values.set index value else values ++ [value]

theorem length_putAt (index : Nat) (value : α) (values : List α) :
    (putAt index value values).length
      = if index < values.length then values.length else values.length + 1 := by
  unfold putAt
  split
  · exact List.length_set
  · exact List.length_append

/-- **A write is seen at its place and nowhere else.** -/
theorem getElem?_putAt {index : Nat} {values : List α} (inside : index ≤ values.length) (value : α)
    (other : Nat) :
    (putAt index value values)[other]? = if other = index then some value else values[other]? := by
  unfold putAt
  split
  · rename_i before
    rw [List.getElem?_set]
    by_cases same : index = other
    · rw [if_pos same, if_pos same.symm, if_pos before]
    · rw [if_neg same, if_neg fun equal => same equal.symm]
  · rename_i notBefore
    have behind : index = values.length := by omega
    subst behind
    rw [List.getElem?_append]
    rcases Nat.lt_trichotomy other values.length with less | same | more
    · rw [if_pos less, if_neg (Nat.ne_of_lt less)]
    · simp [same]
    · rw [if_neg (Nat.lt_asymm more), if_neg (Nat.ne_of_gt more),
        List.getElem?_eq_none (Nat.le_of_lt more), List.getElem?_eq_none]
      rw [List.length_singleton]
      omega

/-- Writing what is there changes nothing. -/
theorem putAt_of_getElem? {index : Nat} {value : α} {values : List α}
    (there : values[index]? = some value) : putAt index value values = values := by
  have inside : index < values.length := (List.getElem?_eq_some_iff.1 there).1
  refine List.ext_getElem? fun other => ?_
  rw [getElem?_putAt (Nat.le_of_lt inside)]
  split
  · rename_i same
    rw [same, there]
  · rfl

/-- Two writes at different places, the first of them inside the list, can be done in either
order. -/
theorem putAt_comm {index other : Nat} {values : List α} (inside : index < values.length)
    (otherInside : other ≤ values.length) (distinct : index ≠ other) (value otherValue : α) :
    putAt other otherValue (putAt index value values)
      = putAt index value (putAt other otherValue values) := by
  have firstGrown : other ≤ (putAt index value values).length := by
    rw [length_putAt]
    split <;> omega
  have secondGrown : index ≤ (putAt other otherValue values).length := by
    rw [length_putAt]
    split <;> omega
  refine List.ext_getElem? fun place => ?_
  rw [getElem?_putAt firstGrown, getElem?_putAt (Nat.le_of_lt inside), getElem?_putAt secondGrown,
    getElem?_putAt otherInside]
  by_cases first : place = index
  · rw [if_neg fun same => distinct (first.symm.trans same), if_pos first, if_pos first]
  · rw [if_neg first, if_neg first]

theorem getD_putAt {index : Nat} {values : List α} (inside : index ≤ values.length)
    (value : α) (other : Nat) (default : α) :
    (putAt index value values).getD other default
      = if other = index then value else values.getD other default := by
  rw [List.getD_eq_getElem?_getD, getElem?_putAt inside, List.getD_eq_getElem?_getD]
  split <;> rfl

end Put

attribute [ext] Table

namespace Table

/-! ### The place of a column -/

/-- Where a column is written. -/
def placeOf (table : Table) (column : String) : Nat :=
  table.columns.idxOf column

theorem placeOf_le (table : Table) (column : String) :
    table.placeOf column ≤ table.columns.length :=
  List.idxOf_le_length

/-- A column's place is in every row or right behind it. -/
theorem placeOf_le_row {table : Table} (rectangular : table.Rectangular) {row : List Cell}
    (member : row ∈ table.rows) (column : String) : table.placeOf column ≤ row.length := by
  rw [rectangular row member]
  exact table.placeOf_le column

theorem columnIndex?_of_mem {table : Table} {column : String} (present : column ∈ table.columns) :
    table.columnIndex? column = some (table.placeOf column) :=
  List.findIdx?_eq_some_iff_findIdx_eq.2 ⟨List.idxOf_lt_length_of_mem present, rfl⟩

theorem columnIndex?_of_not_mem {table : Table} {column : String}
    (absent : column ∉ table.columns) : table.columnIndex? column = none := by
  refine List.findIdx?_eq_none_iff.2 fun name member => ?_
  rw [beq_eq_false_iff_ne]
  exact fun same => absent (same ▸ member)

theorem getElem?_placeOf {table : Table} {column : String} (present : column ∈ table.columns) :
    table.columns[table.placeOf column]? = some column :=
  List.getElem?_idxOf present

theorem placeOf_of_not_mem {table : Table} {column : String} (absent : column ∉ table.columns) :
    table.placeOf column = table.columns.length :=
  List.idxOf_eq_length absent

/-- **The place is that of the first column of the name**: none in front of it has the name. -/
theorem getElem?_of_lt_placeOf {table : Table} {column : String} {earlier : Nat}
    (before : earlier < table.placeOf column) : table.columns[earlier]? ≠ some column := by
  intro found
  obtain ⟨_, same⟩ := List.getElem?_eq_some_iff.1 found
  have differs := List.not_of_lt_findIdx before
  rw [beq_eq_false_iff_ne] at differs
  exact differs same

/-! ### The table that is written -/

theorem writeCells_eq {write : List Cell → Cell → List Cell} {rows : List (List Cell)}
    {cells : List Cell} (complete : cells.length = rows.length) :
    writeCells write rows cells = rows.zipWith write cells := by
  rw [writeCells, complete, List.drop_length, List.append_nil]

/-- Rows are changed alike if they are changed alike one by one. -/
theorem zipWith_congr_left {write other : List Cell → Cell → List Cell} {rows : List (List Cell)}
    (same : ∀ row ∈ rows, write row = other row) (cells : List Cell) :
    rows.zipWith write cells = rows.zipWith other cells := by
  induction rows generalizing cells with
  | nil => rfl
  | cons row rows ih =>
    cases cells with
    | nil => rfl
    | cons cell cells =>
      rw [List.zipWith_cons_cons, List.zipWith_cons_cons, same row (.head _),
        ih (fun row member => same row (.tail _ member)) cells]

/-- **A column is put at its place** in the names and in every row. -/
theorem setColumn_eq {table : Table} (rectangular : table.Rectangular) (column : String)
    {cells : List Cell} (complete : cells.length = table.size) :
    table.setColumn column cells
      = { columns := putAt (table.placeOf column) column table.columns
          rows := table.rows.zipWith (fun row cell => putAt (table.placeOf column) cell row)
            cells } := by
  unfold setColumn
  by_cases present : column ∈ table.columns
  · have before : table.placeOf column < table.columns.length :=
      List.idxOf_lt_length_of_mem present
    have kept := putAt_of_getElem? (getElem?_placeOf present)
    rw [columnIndex?_of_mem present, kept]
    simp only [writeCells_eq complete]
    congr 1
    refine zipWith_congr_left (fun row member => funext fun cell => ?_) cells
    rw [putAt, rectangular row member, if_pos before]
  · have behind := placeOf_of_not_mem present
    rw [columnIndex?_of_not_mem present, behind]
    simp only [writeCells_eq complete]
    congr 1
    · rw [putAt, if_neg (Nat.lt_irrefl _)]
    · refine zipWith_congr_left (fun row member => funext fun cell => ?_) cells
      rw [putAt, rectangular row member, if_neg (Nat.lt_irrefl _)]

/-- Writing a column keeps the number of rows, whatever the rows hold. -/
theorem size_setColumn (table : Table) (column : String) {cells : List Cell}
    (complete : cells.length = table.size) : (table.setColumn column cells).size = table.size := by
  unfold setColumn
  split <;>
    simp only [size, writeCells_eq complete, List.length_zipWith] at complete ⊢ <;>
    omega

/-- Every row gets its cell, and nothing but its cell. -/
theorem getElem?_setColumn {table : Table} (rectangular : table.Rectangular) (column : String)
    {cells : List Cell} (complete : cells.length = table.size) (index : Nat) :
    (table.setColumn column cells).rows[index]?
      = table.rows[index]?.bind fun row =>
          cells[index]?.map fun cell => putAt (table.placeOf column) cell row := by
  rw [setColumn_eq rectangular column complete, List.getElem?_zipWith]
  cases table.rows[index]? with
  | none => rfl
  | some row => cases cells[index]? <;> rfl

/-- **A column that is written keeps the table rectangular.** -/
theorem rectangular_setColumn {table : Table} (rectangular : table.Rectangular) (column : String)
    {cells : List Cell} (complete : cells.length = table.size) :
    (table.setColumn column cells).Rectangular := by
  intro written member
  obtain ⟨index, _, found⟩ := List.mem_iff_getElem.1 member
  have isFound := List.getElem?_eq_some_iff.2 ⟨_, found⟩
  rw [getElem?_setColumn rectangular column complete] at isFound
  obtain ⟨row, isRow, made⟩ := Option.bind_eq_some_iff.1 isFound
  obtain ⟨cell, _, rfl⟩ := Option.map_eq_some_iff.1 made
  rw [setColumn_eq rectangular column complete, length_putAt, length_putAt,
    rectangular row (List.mem_of_getElem? isRow)]

/-! ### Names and cells after a write -/

theorem placeOf_of_columnIndex? {table : Table} {column : String} {index : Nat}
    (found : table.columnIndex? column = some index) : table.placeOf column = index :=
  (List.findIdx?_eq_some_iff_findIdx_eq.1 found).2

theorem columnIndex?_eq_some_iff {table : Table} {column : String} {index : Nat} :
    table.columnIndex? column = some index ↔
      column ∈ table.columns ∧ table.placeOf column = index := by
  constructor
  · intro found
    have place := placeOf_of_columnIndex? found
    refine ⟨?_, place⟩
    by_contra absent
    rw [columnIndex?_of_not_mem absent] at found
    cases found
  · rintro ⟨present, rfl⟩
    exact columnIndex?_of_mem present

/-- Different names of a table have different places. -/
theorem placeOf_ne {table : Table} {column other : String} (present : other ∈ table.columns)
    (distinct : other ≠ column) : table.placeOf other ≠ table.placeOf column := by
  intro same
  have found := getElem?_placeOf present
  by_cases known : column ∈ table.columns
  · rw [same, getElem?_placeOf known] at found
    exact distinct (Option.some.inj found).symm
  · rw [same, placeOf_of_not_mem known, List.getElem?_eq_none (Nat.le_refl _)] at found
    cases found

/-- The names of the table that is written, whatever its cells. -/
theorem columns_setColumn (table : Table) (column : String) (cells : List Cell) :
    (table.setColumn column cells).columns
      = putAt (table.placeOf column) column table.columns := by
  unfold setColumn
  by_cases present : column ∈ table.columns
  · rw [columnIndex?_of_mem present, putAt_of_getElem? (getElem?_placeOf present)]
  · rw [columnIndex?_of_not_mem present, placeOf_of_not_mem present, putAt,
      if_neg (Nat.lt_irrefl _)]

theorem columns_setColumn_of_mem {table : Table} {column : String}
    (present : column ∈ table.columns) (cells : List Cell) :
    (table.setColumn column cells).columns = table.columns := by
  rw [columns_setColumn, putAt_of_getElem? (getElem?_placeOf present)]

/-- **A write moves no column**: its own name is found at its place, any other where it was. -/
theorem columnIndex?_setColumn (table : Table) (column : String) (cells : List Cell)
    (name : String) :
    (table.setColumn column cells).columnIndex? name
      = if name = column then some (table.placeOf column) else table.columnIndex? name := by
  by_cases present : column ∈ table.columns
  · rw [columnIndex?, columns_setColumn_of_mem present, ← columnIndex?]
    split
    · rename_i same
      rw [same, columnIndex?_of_mem present]
    · rfl
  · have behind := placeOf_of_not_mem present
    rw [columnIndex?, columns_setColumn, behind, putAt, if_neg (Nat.lt_irrefl _),
      List.findIdx?_append, ← columnIndex?]
    split
    · rename_i same
      rw [same, columnIndex?_of_not_mem present]
      simp [List.findIdx?_cons]
    · rename_i different
      have missed : (column == name) = false := by
        rw [beq_eq_false_iff_ne]
        exact fun same => different same.symm
      simp [List.findIdx?_cons, missed]

/-- **The cell of a row that is written**: the new one in the column, the old one in any other. -/
theorem cellOf?_setColumn {table : Table} {row : List Cell}
    (width : row.length = table.columns.length) (column : String) (cells : List Cell) (cell : Cell)
    (name : String) :
    cellOf? (table.setColumn column cells).columns (putAt (table.placeOf column) cell row) name
      = if name = column then some cell else cellOf? table.columns row name := by
  have inside : table.placeOf column ≤ row.length := by
    rw [width]
    exact table.placeOf_le column
  show ((table.setColumn column cells).columnIndex? name).map _ = _
  rw [columnIndex?_setColumn]
  split
  · rw [Option.map_some, getD_putAt inside, if_pos rfl]
  · rename_i different
    show _ = (table.columnIndex? name).map _
    cases found : table.columnIndex? name with
    | none => rfl
    | some index =>
      obtain ⟨present, rfl⟩ := columnIndex?_eq_some_iff.1 found
      rw [Option.map_some, Option.map_some, getD_putAt inside,
        if_neg (placeOf_ne present different)]

/-! ### Reading and writing columns -/

/-- Every row that is written has a cell, and every cell a row. -/
theorem exists_cell {table : Table} {cells : List Cell} (complete : cells.length = table.size)
    {index : Nat} {row : List Cell} (isRow : table.rows[index]? = some row) :
    ∃ cell, cells[index]? = some cell := by
  obtain ⟨inside, _⟩ := List.getElem?_eq_some_iff.1 isRow
  have insideCells : index < cells.length := by
    rw [complete]
    exact inside
  exact ⟨_, List.getElem?_eq_getElem insideCells⟩

/-- **What is written is read back, and no other column changes.** -/
theorem column?_setColumn {table : Table} (rectangular : table.Rectangular) (column : String)
    {cells : List Cell} (complete : cells.length = table.size) (name : String) :
    (table.setColumn column cells).column? name
      = if name = column then some cells else table.column? name := by
  rw [column?, columnIndex?_setColumn]
  by_cases same : name = column
  · rw [if_pos same, if_pos same, Option.map_some, Option.some.injEq]
    refine List.ext_getElem? fun index => ?_
    rw [List.getElem?_map, getElem?_setColumn rectangular column complete]
    cases isRow : table.rows[index]? with
    | none =>
      have behind := List.getElem?_eq_none_iff.1 isRow
      exact (List.getElem?_eq_none (by rw [complete]; exact behind)).symm
    | some row =>
      obtain ⟨cell, isCell⟩ := exists_cell complete isRow
      have inside := placeOf_le_row rectangular (List.mem_of_getElem? isRow) column
      rw [isCell, Option.bind_some, Option.map_some, Option.map_some, getD_putAt inside,
        if_pos rfl]
  · rw [if_neg same, if_neg same, column?]
    cases found : table.columnIndex? name with
    | none => rfl
    | some place =>
      obtain ⟨present, rfl⟩ := columnIndex?_eq_some_iff.1 found
      rw [Option.map_some, Option.map_some, Option.some.injEq]
      refine List.ext_getElem? fun index => ?_
      rw [List.getElem?_map, List.getElem?_map, getElem?_setColumn rectangular column complete]
      cases isRow : table.rows[index]? with
      | none => rfl
      | some row =>
        obtain ⟨cell, isCell⟩ := exists_cell complete isRow
        have inside := placeOf_le_row rectangular (List.mem_of_getElem? isRow) column
        rw [isCell, Option.bind_some, Option.map_some, Option.map_some, getD_putAt inside,
          if_neg (placeOf_ne present same), Option.map_some]

/-- **What is read is written back without a change.** -/
theorem setColumn_column? {table : Table} (rectangular : table.Rectangular) {column : String}
    {cells : List Cell} (isColumn : table.column? column = some cells) :
    table.setColumn column cells = table := by
  obtain ⟨place, found, rfl⟩ := Option.map_eq_some_iff.1 isColumn
  obtain ⟨present, rfl⟩ := columnIndex?_eq_some_iff.1 found
  rw [setColumn_eq rectangular column (List.length_map _), putAt_of_getElem? (getElem?_placeOf present)]
  congr 1
  refine List.ext_getElem? fun index => ?_
  rw [List.getElem?_zipWith, List.getElem?_map]
  cases isRow : table.rows[index]? with
  | none => rfl
  | some row =>
    have inside : table.placeOf column < row.length := by
      rw [rectangular row (List.mem_of_getElem? isRow)]
      exact List.idxOf_lt_length_of_mem present
    refine congrArg some (putAt_of_getElem? ?_)
    show row[table.placeOf column]? = some (row.getD (table.placeOf column) .empty)
    rw [List.getD_eq_getElem?_getD, List.getElem?_eq_getElem inside, Option.getD_some]

/-- **Two columns are written in either order**, if one of them is there already. -/
theorem setColumn_comm {table : Table} (rectangular : table.Rectangular) {column other : String}
    (present : column ∈ table.columns) (distinct : other ≠ column) {cells otherCells : List Cell}
    (complete : cells.length = table.size) (otherComplete : otherCells.length = table.size) :
    (table.setColumn column cells).setColumn other otherCells
      = (table.setColumn other otherCells).setColumn column cells := by
  have afterColumn := rectangular_setColumn rectangular column complete
  have afterOther := rectangular_setColumn rectangular other otherComplete
  have completeLater := otherComplete.trans (size_setColumn table column complete).symm
  have completeLaterToo := complete.trans (size_setColumn table other otherComplete).symm
  -- The column that is there keeps its place, and leaves the other one its place.
  have otherPlace : (table.setColumn column cells).placeOf other = table.placeOf other := by
    rw [placeOf, columns_setColumn_of_mem present, ← placeOf]
  have columnFound : (table.setColumn other otherCells).columnIndex? column
      = some (table.placeOf column) := by
    rw [columnIndex?_setColumn, if_neg distinct.symm, columnIndex?_of_mem present]
  have columnPlace := placeOf_of_columnIndex? columnFound
  ext1
  · rw [columns_setColumn, otherPlace, columns_setColumn_of_mem present,
      columns_setColumn_of_mem (columnIndex?_eq_some_iff.1 columnFound).1, columns_setColumn]
  · refine List.ext_getElem? fun index => ?_
    rw [getElem?_setColumn afterColumn other completeLater,
      getElem?_setColumn rectangular column complete,
      getElem?_setColumn afterOther column completeLaterToo,
      getElem?_setColumn rectangular other otherComplete, otherPlace, columnPlace]
    cases isRow : table.rows[index]? with
    | none => rfl
    | some row =>
      obtain ⟨cell, isCell⟩ := exists_cell complete isRow
      obtain ⟨otherCell, isOtherCell⟩ := exists_cell otherComplete isRow
      have member := List.mem_of_getElem? isRow
      have before : table.placeOf column < row.length := by
        rw [rectangular row member]
        exact List.idxOf_lt_length_of_mem present
      rw [isCell, isOtherCell]
      exact congrArg some (putAt_comm before (placeOf_le_row rectangular member other)
        (placeOf_ne present distinct.symm) cell otherCell)

end Table

end ColumnCalc
