/-
**How a sheet is laid out.**

Everything about a sheet is said through the look-up: which row is the first, how wide it is, and
which table it becomes. This needs that a row which is there holds a cell (`Compact`), as rows do
that cells are placed in.

* `minKey?_eq_some_iff`, `maxKey?_eq_some_iff` — the first and the last row are the first and the
  last used ones.
* `width_le_iff` — the width is the least bound on the columns in use.
* `toTable_eq` — the table, cell by cell.
-/

import ColumnCalc.Proofs.Table.Reading

namespace ColumnCalc.Workbook

/-- The first sheet is read from its part, with the shared strings. -/
theorem firstSheet_of_part {archive : Archive} {part : String} {bytes : Text.Bytes}
    (isPart : firstSheetPart archive = .ok part) (found : archive.part? part = some bytes) :
    firstSheet archive = stringsOf archive >>= fun strings => worksheet strings (.ofBytes bytes) := by
  have document : requiredPart archive part = .ok (.ofBytes bytes) := by
    rw [requiredPart, found]
  rw [firstSheet, isPart]
  refine bind_congr fun strings => ?_
  show requiredPart archive part >>= _ = _
  rw [document]
  rfl

namespace Sheet

variable {sheet : Sheet}

/-- The values of a map stand with their keys in its list. -/
theorem mem_values_iff {α : Type} {rows : Std.TreeMap UInt32 α} {row : α} :
    row ∈ rows.values ↔ ∃ key : UInt32, rows[key]? = some row := by
  have listed : rows.values = rows.toList.map Prod.snd := by
    show rows.foldr (fun _ value values => value :: values) [] = _
    rw [Std.TreeMap.foldr_eq_foldr_toList]
    induction rows.toList with
    | nil => rfl
    | cons pair pairs ih => rw [List.foldr_cons, List.map_cons, ih]
  simp only [listed, List.mem_map, Prod.exists, exists_eq_right,
    Std.TreeMap.mem_toList_iff_getElem?_eq_some]

theorem cell?_eq_some_iff {row column : UInt32} {cell : Cell} :
    sheet.cell? ⟨row, column⟩ = some cell ↔
      ∃ cells, sheet.rows[row]? = some cells ∧ cells[column]? = some cell := by
  simp only [cell?, Option.bind_eq_bind, Option.bind_eq_some_iff]

@[simp] theorem cell?_empty (position : Position) : empty.cell? position = none := by
  simp [cell?, empty]

/-! ### Rows that are there -/

/-- A row is there only if it holds a cell. -/
def Compact (sheet : Sheet) : Prop :=
  ∀ (row : UInt32) (cells : Std.TreeMap UInt32 Cell), sheet.rows[row]? = some cells →
    ∃ (column : UInt32) (cell : Cell), cells[column]? = some cell

theorem compact_empty : empty.Compact := by
  intro row cells found
  simp [empty] at found

/-- A blank cell leaves the sheet as it is. -/
theorem place_blank {cell : Cell} (blank : cell.isBlank = true) (position : Position) :
    sheet.place position cell = sheet := by
  rw [place, if_pos blank]

/-- Placing a cell, blank or not, changes nothing elsewhere. -/
theorem cell?_place_of_ne {position other : Position} (elsewhere : other ≠ position)
    (cell : Cell) : (sheet.place position cell).cell? other = sheet.cell? other := by
  cases content : cell.isBlank with
  | true => rw [place_blank content]
  | false => rw [cell?_place _ _ _ content, if_neg elsewhere]

theorem Compact.place (compact : sheet.Compact) (position : Position) (cell : Cell) :
    (sheet.place position cell).Compact := by
  cases content : cell.isBlank with
  | true => rwa [place_blank content]
  | false =>
    intro row cells found
    simp only [Sheet.place, content, Bool.false_eq_true, if_false, Std.TreeMap.getElem?_insert,
      Std.LawfulEqCmp.compare_eq_iff_eq] at found
    split at found
    · refine ⟨position.column, cell, ?_⟩
      rw [← Option.some.inj found, Std.TreeMap.getElem?_insert_self]
    · exact compact row cells found

/-- A row is there exactly when it is used. -/
theorem Compact.mem_rows_iff (compact : sheet.Compact) {row : UInt32} :
    row ∈ sheet.rows ↔ ∃ column cell, sheet.cell? ⟨row, column⟩ = some cell := by
  simp only [cell?_eq_some_iff, Std.TreeMap.mem_iff_isSome_getElem?, Option.isSome_iff_exists]
  constructor
  · rintro ⟨cells, found⟩
    obtain ⟨column, cell, inRow⟩ := compact row cells found
    exact ⟨column, cell, cells, found, inRow⟩
  · rintro ⟨_, _, cells, found, _⟩
    exact ⟨cells, found⟩

/-- A sheet with a cell has a first row. -/
theorem Compact.exists_minKey? (compact : sheet.Compact) {position : Position} {cell : Cell}
    (found : sheet.cell? position = some cell) : ∃ first, sheet.rows.minKey? = some first := by
  cases none? : sheet.rows.minKey? with
  | some first => exact ⟨first, rfl⟩
  | none =>
    rw [Std.TreeMap.minKey?_eq_none_iff, Std.TreeMap.isEmpty_iff_forall_not_mem] at none?
    exact absurd (compact.mem_rows_iff.2 ⟨position.column, cell, found⟩) (none? position.row)

/-- **The first row is the first used one.** -/
theorem Compact.minKey?_eq_some_iff (compact : sheet.Compact) {first : UInt32} :
    sheet.rows.minKey? = some first ↔
      (∃ column cell, sheet.cell? ⟨first, column⟩ = some cell) ∧
      ∀ position cell, sheet.cell? position = some cell → first ≤ position.row := by
  rw [Std.TreeMap.minKey?_eq_some_iff_mem_and_forall, compact.mem_rows_iff]
  refine and_congr_right fun _ => ⟨fun least position cell found => ?_, fun least row used => ?_⟩
  · have used : position.row ∈ sheet.rows := compact.mem_rows_iff.2 ⟨position.column, cell, found⟩
    exact Std.isLE_compare.1 (least position.row used)
  · obtain ⟨column, cell, found⟩ := compact.mem_rows_iff.1 used
    exact Std.isLE_compare.2 (least ⟨row, column⟩ cell found)

/-- **The last row is the last used one.** -/
theorem Compact.maxKey?_eq_some_iff (compact : sheet.Compact) {last : UInt32} :
    sheet.rows.maxKey? = some last ↔
      (∃ column cell, sheet.cell? ⟨last, column⟩ = some cell) ∧
      ∀ position cell, sheet.cell? position = some cell → position.row ≤ last := by
  rw [Std.TreeMap.maxKey?_eq_some_iff_mem_and_forall, compact.mem_rows_iff]
  refine and_congr_right fun _ => ⟨fun greatest position cell found => ?_, fun greatest row used => ?_⟩
  · have used : position.row ∈ sheet.rows := compact.mem_rows_iff.2 ⟨position.column, cell, found⟩
    exact Std.isLE_compare.1 (greatest position.row used)
  · obtain ⟨column, cell, found⟩ := compact.mem_rows_iff.1 used
    exact Std.isLE_compare.2 (greatest ⟨row, column⟩ cell found)

/-! ### The table -/

theorem foldl_max_le_iff {sizes : List Nat} {start bound : Nat} :
    sizes.foldl max start ≤ bound ↔ start ≤ bound ∧ ∀ size ∈ sizes, size ≤ bound := by
  induction sizes generalizing start with
  | nil => simp
  | cons size sizes ih => rw [List.foldl_cons, ih, Nat.max_le, List.forall_mem_cons, and_assoc]

/-- In a map with a key there is a last one, which is no less. -/
theorem exists_maxKey? {α : Type} {cells : Std.TreeMap UInt32 α} {column : UInt32} {cell : α}
    (found : cells[column]? = some cell) :
    ∃ last cell', cells.maxKey? = some last ∧ cells[last]? = some cell' ∧ column ≤ last := by
  have member : column ∈ cells := Std.TreeMap.mem_iff_isSome_getElem?.2 (by rw [found]; rfl)
  cases isLast : cells.maxKey? with
  | none =>
    rw [Std.TreeMap.maxKey?_eq_none_iff, Std.TreeMap.isEmpty_iff_forall_not_mem] at isLast
    exact absurd member (isLast column)
  | some last =>
    obtain ⟨isKey, greatest⟩ := Std.TreeMap.maxKey?_eq_some_iff_mem_and_forall.1 isLast
    obtain ⟨cell', foundLast⟩ :=
      Option.isSome_iff_exists.1 (Std.TreeMap.mem_iff_isSome_getElem?.1 isKey)
    exact ⟨last, cell', rfl, foundLast, Std.isLE_compare.1 (greatest column member)⟩

/-- **The width is the least bound on the columns in use**, if there is a column behind each. -/
theorem width_le_iff
    (exact : ∀ position cell, sheet.cell? position = some cell →
      position.column.toNat + 1 < positionBound) {bound : Nat} :
    sheet.width ≤ bound ↔
      ∀ position cell, sheet.cell? position = some cell → position.column.toNat + 1 ≤ bound := by
  have behind : ∀ {row column cell}, sheet.cell? ⟨row, column⟩ = some cell →
      (column + 1).toNat = column.toNat + 1 := by
    intro row column cell found
    rw [UInt32.toNat_add]
    exact Nat.mod_eq_of_lt (exact ⟨row, column⟩ cell found)
  rw [width, foldl_max_le_iff]
  simp only [Nat.zero_le, true_and, List.mem_filterMap, Option.map_eq_some_iff,
    forall_exists_index, and_imp, mem_values_iff]
  constructor
  · rintro bounded ⟨row, column⟩ cell found
    obtain ⟨cells, isRow, inRow⟩ := cell?_eq_some_iff.1 found
    obtain ⟨last, cell', isLast, foundLast, above⟩ := exists_maxKey? inRow
    have small := bounded _ cells row isRow last isLast rfl
    rw [behind (cell?_eq_some_iff.2 ⟨cells, isRow, foundLast⟩)] at small
    exact Nat.le_trans (Nat.succ_le_succ above) small
  · rintro bounded _ cells row isRow last isLast rfl
    obtain ⟨isColumn, _⟩ := Std.TreeMap.maxKey?_eq_some_iff_mem_and_forall.1 isLast
    obtain ⟨cell, foundLast⟩ :=
      Option.isSome_iff_exists.1 (Std.TreeMap.mem_iff_isSome_getElem?.1 isColumn)
    have found := cell?_eq_some_iff.2 ⟨cells, isRow, foundLast⟩
    rw [behind found]
    exact bounded ⟨row, last⟩ cell found

/-- A sheet without cells is the table without columns and rows. -/
theorem Compact.toTable_of_unused (compact : sheet.Compact)
    (unused : ∀ position, sheet.cell? position = none) : sheet.toTable = .ok .empty := by
  have noRow : sheet.rows.minKey? = none := by
    rw [Std.TreeMap.minKey?_eq_none_iff, Std.TreeMap.isEmpty_iff_forall_not_mem]
    intro row used
    obtain ⟨column, cell, found⟩ := compact.mem_rows_iff.1 used
    rw [unused] at found
    cases found
  rw [toTable, noRow]

/-- **The table of a sheet**: the first used row names the columns and all rows behind it, up to the
last used one, are rows. -/
theorem toTable_eq {first last : UInt32} (isFirst : sheet.rows.minKey? = some first)
    (isLast : sheet.rows.maxKey? = some last) :
    sheet.toTable = .ok
      { columns := (List.range sheet.width).map (sheet.columnName first)
        rows := (List.range' (first + 1).toNat (last.toNat + 1 - (first + 1).toNat)).map
          (sheet.tableRow sheet.width) } := by
  rw [toTable, isFirst, isLast]
  have fits : ∀ row ∈ List.range' (first + 1).toNat (last.toNat + 1 - (first + 1).toNat),
      ∀ cells, Except.ok (sheet.tableRow sheet.width row) = (Except.ok cells : Except TableError _) →
        cells.length = ((List.range sheet.width).map (sheet.columnName first)).length := by
    rintro row _ _ ⟨⟩
    rw [length_tableRow, List.length_map, List.length_range]
  have all : ∀ rows : List Nat,
      rows.mapM (fun row => (Except.ok (sheet.tableRow sheet.width row) : Except TableError _))
        = .ok (rows.map (sheet.tableRow sheet.width)) := fun rows => List.mapM_pure
  show (Table.ofColumns _).pushEach _ _ = _
  rw [Table.pushEach_of_fits fits, all]
  rfl

end Sheet

end ColumnCalc.Workbook
