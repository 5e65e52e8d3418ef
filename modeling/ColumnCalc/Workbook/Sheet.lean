/-
**Sheets.**

A sheet holds the cells of a worksheet that are not blank, each at its position. Laid out as a table
its first used row names the columns, every later row down to the last used one is a row of the
table, and a column without a name is called by its number. Main statement: `cell?_place` describes
the placing of a cell through the look-up.
-/

import Std.Data.TreeMap
import ColumnCalc.Table.Basic
import ColumnCalc.Workbook.Position

namespace ColumnCalc.Workbook

/-- Cells by row and column; a row that is there holds at least one cell. -/
structure Sheet where
  rows : Std.TreeMap UInt32 (Std.TreeMap UInt32 Cell)

namespace Sheet

/-- The sheet without cells. -/
def empty : Sheet := ⟨∅⟩

/-- The cell at a position. -/
def cell? (sheet : Sheet) (position : Position) : Option Cell :=
  sheet.rows[position.row]? >>= fun row => row[position.column]?

/-- Puts a cell in its place; a blank cell leaves the sheet as it is. -/
def place (sheet : Sheet) (position : Position) (cell : Cell) : Sheet :=
  if cell.isBlank then sheet
  else
    let row := (sheet.rows.getD position.row ∅).insert position.column cell
    ⟨sheet.rows.insert position.row row⟩

/-- A cell that is placed is seen at its own position and nowhere else. -/
theorem cell?_place (sheet : Sheet) (position other : Position) {cell : Cell}
    (content : cell.isBlank = false) :
    (sheet.place position cell).cell? other =
      if other = position then some cell else sheet.cell? other := by
  obtain ⟨row, column⟩ := position
  obtain ⟨otherRow, otherColumn⟩ := other
  simp only [place, content, cell?, Bool.false_eq_true, if_false, Position.mk.injEq,
    Std.TreeMap.getElem?_insert, Std.LawfulEqCmp.compare_eq_iff_eq]
  by_cases sameRow : row = otherRow
  · subst sameRow
    simp only [if_true, Option.bind_eq_bind, Option.bind_some, Std.TreeMap.getElem?_insert,
      Std.LawfulEqCmp.compare_eq_iff_eq, true_and, Std.TreeMap.getD_eq_getD_getElem?]
    by_cases sameColumn : column = otherColumn
    · simp [sameColumn]
    · have different : otherColumn ≠ column := fun same => sameColumn same.symm
      cases sheet.rows[row]? <;> simp [sameColumn, different]
  · have different : otherRow ≠ row := fun same => sameRow same.symm
    simp [sameRow, different]

/-- How many columns there are up to the last used one. -/
def width (sheet : Sheet) : Nat :=
  (sheet.rows.values.filterMap fun row => row.maxKey?.map fun last => (last + 1).toNat).foldl max 0

/-- The name of a column: what the row of names holds there, or a name made of the number. -/
def columnName (sheet : Sheet) (row : UInt32) (column : Nat) : String :=
  match sheet.cell? ⟨row, UInt32.ofNat column⟩ with
  | some cell => cell.render
  | none => "Unnamed: " ++ toString column

/-- A row of so many cells, with an empty cell wherever the sheet has none. -/
def tableRow (sheet : Sheet) (width row : Nat) : List Cell :=
  (List.range width).map fun column =>
    (sheet.cell? ⟨UInt32.ofNat row, UInt32.ofNat column⟩).getD .empty

/-- The table that a sheet is. -/
def toTable (sheet : Sheet) : Except TableError Table :=
  match sheet.rows.minKey?, sheet.rows.maxKey? with
  | some first, some last =>
    let width := sheet.width
    let start := (first + 1).toNat
    (Table.ofColumns ((List.range width).map (sheet.columnName first))).pushEach
      (fun row => .ok (sheet.tableRow width row)) (List.range' start (last.toNat + 1 - start))
  | _, _ => .ok .empty

/-- A row of the table is as wide as it is asked to be. -/
@[simp] theorem length_tableRow (sheet : Sheet) (width row : Nat) :
    (sheet.tableRow width row).length = width := by
  simp [tableRow]

end Sheet

end ColumnCalc.Workbook
