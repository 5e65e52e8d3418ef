/-
**A formula is applied row by row.**

Applying a formula writes one column. What it writes to a row is decided by that row and the names
of the columns: no other row counts, neither what it holds nor whether it is there. Everything
outside the written column is as before, and the failures are the rows without a value.

* `Written` — what the table holds after a formula was applied, by look-ups.
* `apply_written` — applying a formula gives such a table, whatever the formula.
* `mem_failures_iff`, `failures_ascending` — the list of failures.
* `apply_isolated` — all of it, and that equal rows of different tables fare alike.
-/

import ColumnCalc.Proofs.Table.Columns
import ColumnCalc.Table.FormulaColumn

namespace ColumnCalc

namespace Formula

/-- A formula has one outcome per row. -/
theorem length_outcomes (formula : Formula) (table : Table) :
    (formula.outcomes table).length = table.size :=
  List.length_map ..

theorem length_cells (formula : Formula) (table : Table) :
    ((formula.outcomes table).map Cell.ofOutcome).length = table.size := by
  rw [List.length_map, length_outcomes]

/-- A formula keeps a table rectangular. -/
theorem rectangular_apply {table : Table} (rectangular : table.Rectangular) (formula : Formula)
    (column : String) : (formula.apply table column).table.Rectangular :=
  Table.rectangular_setColumn rectangular column (length_cells formula table)

/-- **An outcome is the formula's value on its row**, with nothing but that row in sight. -/
theorem getElem?_outcomes (formula : Formula) (table : Table) (index : Nat) :
    (formula.outcomes table)[index]?
      = table.rows[index]?.map fun row => formula.evaluate (Context.ofRow table.columns row) :=
  List.getElem?_map ..

/-- **A row of the written table**: the row with its own outcome at the column's place. -/
theorem getElem?_apply {table : Table} (rectangular : table.Rectangular) (formula : Formula)
    (column : String) (index : Nat) :
    (formula.apply table column).table.rows[index]?
      = table.rows[index]?.map fun row =>
          putAt (table.placeOf column)
            (Cell.ofOutcome (formula.evaluate (Context.ofRow table.columns row))) row := by
  show (table.setColumn column _).rows[index]? = _
  rw [Table.getElem?_setColumn rectangular column (length_cells formula table),
    List.getElem?_map, getElem?_outcomes]
  cases table.rows[index]? <;> rfl

/-- **What is written to a table by a formula**, seen through look-ups. The column's place is
`place`. -/
structure Written (formula : Formula) (table : Table) (column : String) (place : Nat)
    (applied : Applied) : Prop where
  /-- The place holds the first column of the name, or lies behind all columns. -/
  place_first : (table.columns[place]? = some column ∨
      column ∉ table.columns ∧ place = table.columns.length) ∧
    ∀ earlier < place, table.columns[earlier]? ≠ some column
  /-- The column is at its place, and every other name where it was. -/
  names : ∀ index, applied.table.columns[index]?
    = if index = place then some column else table.columns[index]?
  /-- There are as many rows and outcomes as there were rows. -/
  sizes : applied.table.rows.length = table.rows.length ∧
    applied.outcomes.length = table.rows.length
  /-- A row's outcome is the value on that row alone. Its cell in the column is the value, or
  empty if there is none, and every other cell is as it was. -/
  rows : ∀ (index : Nat) (row : List Cell), table.rows[index]? = some row →
    applied.outcomes[index]? = some (formula.evaluate (Context.ofRow table.columns row)) ∧
    ∃ written, applied.table.rows[index]? = some written ∧
      (∀ value, formula.evaluate (Context.ofRow table.columns row) = .ok value →
        written[place]? = some (.number value)) ∧
      (∀ error, formula.evaluate (Context.ofRow table.columns row) = .error error →
        written[place]? = some .empty) ∧
      ∀ other ≠ place, written[other]? = row[other]?

/-- **Applying a formula writes its column**, and nothing else. -/
theorem apply_written {table : Table} (rectangular : table.Rectangular) (formula : Formula)
    (column : String) :
    Written formula table column (table.placeOf column) (formula.apply table column) where
  place_first := by
    refine ⟨?_, fun earlier before => Table.getElem?_of_lt_placeOf before⟩
    by_cases present : column ∈ table.columns
    · exact .inl (Table.getElem?_placeOf present)
    · exact .inr ⟨present, Table.placeOf_of_not_mem present⟩
  names index := by
    show (table.setColumn column _).columns[index]? = _
    rw [Table.setColumn_eq rectangular column (length_cells formula table)]
    exact getElem?_putAt (table.placeOf_le column) column index
  sizes := by
    refine ⟨?_, length_outcomes formula table⟩
    show (table.setColumn column _).rows.length = _
    rw [Table.setColumn_eq rectangular column (length_cells formula table), List.length_zipWith,
      length_cells]
    exact Nat.min_self _
  rows index row isRow := by
    have inside : table.placeOf column ≤ row.length := by
      rw [rectangular row (List.mem_of_getElem? isRow)]
      exact table.placeOf_le column
    have outcome : (formula.outcomes table)[index]?
        = some (formula.evaluate (Context.ofRow table.columns row)) := by
      rw [getElem?_outcomes, isRow]
      rfl
    have written : (formula.apply table column).table.rows[index]?
        = some (putAt (table.placeOf column)
            (Cell.ofOutcome (formula.evaluate (Context.ofRow table.columns row))) row) := by
      rw [getElem?_apply rectangular, isRow]
      rfl
    refine ⟨outcome, _, written, ?_, ?_, ?_⟩
    · intro value isValue
      rw [getElem?_putAt inside, if_pos rfl, isValue]
      rfl
    · intro error isError
      rw [getElem?_putAt inside, if_pos rfl, isError]
      rfl
    · intro other different
      rw [getElem?_putAt inside, if_neg different]

end Formula

namespace Applied

/-- **The failures are the rows without a value**, counted from one. -/
theorem mem_failures_iff (applied : Applied) (number : Nat) (error : EvalError) :
    (number, error) ∈ applied.failures ↔
      ∃ index, number = index + 1 ∧ applied.outcomes[index]? = some (.error error) := by
  unfold failures
  rw [List.mem_filterMap]
  constructor
  · rintro ⟨⟨outcome, row⟩, member, picked⟩
    cases outcome with
    | ok value => cases picked
    | error cause =>
      cases picked
      obtain ⟨fromOne, found⟩ := List.mk_mem_zipIdx_iff_le_and_getElem?_sub.1 member
      exact ⟨number - 1, by omega, found⟩
  · rintro ⟨index, rfl, found⟩
    refine ⟨(.error error, index + 1), ?_, rfl⟩
    exact List.mk_mem_zipIdx_iff_le_and_getElem?_sub.2 ⟨by omega, found⟩

/-- **The failures are in the order of the rows.** -/
theorem failures_ascending (applied : Applied) :
    applied.failures.Pairwise fun first second => first.1 < second.1 := by
  have numbers : (applied.outcomes.zipIdx 1).Pairwise fun first second => first.2 < second.2 := by
    rw [← List.pairwise_map (f := Prod.snd), List.zipIdx_map_snd]
    exact List.pairwise_lt_range'
  unfold failures
  rw [List.pairwise_filterMap]
  refine numbers.imp ?_
  rintro ⟨outcome, row⟩ ⟨later, behind⟩ before first isFirst second isSecond
  cases outcome with
  | ok value => cases isFirst
  | error error =>
    cases later with
    | ok value => cases isSecond
    | error cause =>
      cases isFirst
      cases isSecond
      exact before

end Applied

/-- **Rows are evaluated and written in isolation.** Applying a formula to a table writes the
column, one cell and one outcome per row, and nothing else. Of two tables with the same columns,
whatever else they hold, equal rows have equal outcomes and stay equal; and the failures are
exactly the rows without a value, counted from one and in order. -/
theorem apply_isolated (formula : Formula) {table : Table} (rectangular : table.Rectangular)
    (column : String) :
    (∃ place, Formula.Written formula table column place (formula.apply table column)) ∧
    (∀ other : Table, other.Rectangular → other.columns = table.columns →
      ∀ index index' : Nat, table.rows[index]? = other.rows[index']? →
        (formula.apply table column).outcomes[index]?
          = (formula.apply other column).outcomes[index']? ∧
        (formula.apply table column).table.rows[index]?
          = (formula.apply other column).table.rows[index']?) ∧
    (∀ number error, (number, error) ∈ (formula.apply table column).failures ↔
      ∃ index, number = index + 1 ∧
        (formula.apply table column).outcomes[index]? = some (.error error)) ∧
    (formula.apply table column).failures.Pairwise fun first second => first.1 < second.1 := by
  refine ⟨⟨_, Formula.apply_written rectangular formula column⟩, ?_, ?_, ?_⟩
  · intro other rectangularOther sameColumns index index' sameRow
    constructor
    · show (formula.outcomes table)[index]? = (formula.outcomes other)[index']?
      rw [Formula.getElem?_outcomes, Formula.getElem?_outcomes, sameRow, sameColumns]
    · rw [Formula.getElem?_apply rectangular, Formula.getElem?_apply rectangularOther, sameRow,
        Table.placeOf, Table.placeOf, sameColumns]
  · exact Applied.mem_failures_iff _
  · exact Applied.failures_ascending _

/-- Of two columns `a` the first one decides and is written; the row where it holds a text fails. -/
theorem apply_isolated_duplicate :
    let table : Table := ⟨["a", "b", "a"],
      [[.number 1, .empty, .number 2], [.text "x", .empty, .number 3]]⟩
    let formula : Formula := ⟨"a", .name "a" ⟨0, 1⟩⟩
    table.Rectangular ∧
    (∃ place, Formula.Written formula table "a" place (formula.apply table "a")) ∧
    (2, .unknownVariable "a") ∈ (formula.apply table "a").failures := by
  intro table formula
  have rectangular : table.Rectangular := by
    intro row member
    simp only [table, List.mem_cons, List.not_mem_nil, or_false] at member
    rcases member with rfl | rfl <;> rfl
  have isolated := apply_isolated formula rectangular "a"
  exact ⟨rectangular, isolated.1, (isolated.2.2.1 2 _).2 ⟨1, rfl, by with_unfolding_all rfl⟩⟩

end ColumnCalc
