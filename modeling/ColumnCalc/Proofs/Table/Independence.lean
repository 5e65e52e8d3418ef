/-
**Independent formulas commute.**

Two formulas are independent when neither reads the column that the other one writes. Then each has
the outcomes that it has on the table as it was, whichever is applied first, and both orders write
the same cells to the same columns. The tables differ only if both columns are new: each is then put
behind the last column, in the order of the writes.

* `outcomes_apply` — a formula does not notice another one whose column it does not read.
* `table_apply_apply` — the table after two formulas, written from the table before them.
* `independent_commute` — both orders against each other.
-/

import ColumnCalc.Proofs.Table.Contexts

namespace ColumnCalc

namespace Formula

variable {table : Table} {column : String}

/-- **A formula has the outcomes that it has without another one** whose column it does not read. -/
theorem outcomes_apply (rectangular : table.Rectangular) {formula : Formula}
    (unread : column ∉ formula.tree.reads) (other : Formula) :
    formula.outcomes (other.apply table column).table = formula.outcomes table :=
  outcomes_setColumn rectangular unread (other.length_cells table)

/-- The table after two formulas of which the second does not read the column of the first: both
write what they are on the table before them. -/
theorem table_apply_apply (rectangular : table.Rectangular) {formula : Formula}
    (unread : column ∉ formula.tree.reads) (other : Formula) (target : String) :
    (formula.apply (other.apply table column).table target).table
      = (table.setColumn column ((other.outcomes table).map Cell.ofOutcome)).setColumn target
          ((formula.outcomes table).map Cell.ofOutcome) := by
  show (other.apply table column).table.setColumn target
    ((formula.outcomes (other.apply table column).table).map Cell.ofOutcome) = _
  rw [outcomes_apply rectangular unread other]
  rfl

end Formula

/-- What two columns hold after both were written. -/
theorem Table.column?_setColumn_setColumn {table : Table} (rectangular : table.Rectangular)
    {column other : String} {cells otherCells : List Cell} (complete : cells.length = table.size)
    (otherComplete : otherCells.length = table.size) (name : String) :
    ((table.setColumn column cells).setColumn other otherCells).column? name
      = if name = other then some otherCells
        else if name = column then some cells else table.column? name := by
  have afterFirst := rectangular_setColumn rectangular column complete
  have completeLater := otherComplete.trans (table.size_setColumn column complete).symm
  rw [column?_setColumn afterFirst other completeLater,
    column?_setColumn rectangular column complete]

/-- **Independent formulas commute.** If neither of two formulas reads the column of the other one,
and the columns are different, then in both orders each formula has the same outcomes and every
column has the same cells; the tables are the same if one of the columns is there before. -/
theorem independent_commute {table : Table} (rectangular : table.Rectangular)
    (first second : Formula) {column other : String} (distinct : column ≠ other)
    (firstUnread : other ∉ first.tree.reads) (secondUnread : column ∉ second.tree.reads) :
    (first.apply table column).outcomes
        = (first.apply (second.apply table other).table column).outcomes ∧
    (second.apply (first.apply table column).table other).outcomes
        = (second.apply table other).outcomes ∧
    (∀ name, (second.apply (first.apply table column).table other).table.column? name
        = (first.apply (second.apply table other).table column).table.column? name) ∧
    (column ∈ table.columns ∨ other ∈ table.columns →
      (second.apply (first.apply table column).table other).table
        = (first.apply (second.apply table other).table column).table) := by
  have complete := first.length_cells table
  have otherComplete := second.length_cells table
  rw [Formula.table_apply_apply rectangular secondUnread first other,
    Formula.table_apply_apply rectangular firstUnread second column]
  refine ⟨(Formula.outcomes_apply rectangular firstUnread second).symm,
    Formula.outcomes_apply rectangular secondUnread first, fun name => ?_, ?_⟩
  · rw [Table.column?_setColumn_setColumn rectangular complete otherComplete,
      Table.column?_setColumn_setColumn rectangular otherComplete complete]
    by_cases isOther : name = other
    · rw [if_pos isOther, if_neg fun same => distinct (same.symm.trans isOther), if_pos isOther]
    · rw [if_neg isOther, if_neg isOther]
  · rintro (present | otherPresent)
    · exact Table.setColumn_comm rectangular present distinct.symm complete otherComplete
    · exact (Table.setColumn_comm rectangular otherPresent distinct otherComplete complete).symm

/-- `a` is there twice and reads itself, `b` is new: in both orders the first `a` is written and `b`
comes last. -/
theorem independent_commute_duplicate :
    let table : Table := ⟨["a", "n", "a"],
      [[.number 1, .number 2, .number 3], [.text "x", .number 4, .empty]]⟩
    let first : Formula := ⟨"a", .name "a" ⟨0, 1⟩⟩
    let second : Formula := ⟨"n", .name "n" ⟨0, 1⟩⟩
    (table.Rectangular ∧ "a" ≠ "b" ∧ "b" ∉ first.tree.reads ∧ "a" ∉ second.tree.reads ∧
      "a" ∈ table.columns) ∧
    (second.apply (first.apply table "a").table "b").table
      = (first.apply (second.apply table "b").table "a").table ∧
    (first.apply (second.apply table "b").table "a").table.columns = ["a", "n", "a", "b"] := by
  intro table first second
  have rectangular : table.Rectangular := by decide
  have firstUnread : "b" ∉ first.tree.reads := by decide +kernel
  have secondUnread : "a" ∉ second.tree.reads := by decide +kernel
  have commute := independent_commute rectangular first second (by decide) firstUnread secondUnread
  refine ⟨⟨rectangular, by decide, firstUnread, secondUnread, .head _⟩, commute.2.2.2 ?_, ?_⟩
  · exact .inl (.head _)
  · with_unfolding_all rfl

end ColumnCalc
