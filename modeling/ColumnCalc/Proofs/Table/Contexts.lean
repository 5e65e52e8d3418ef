/-
**What a formula sees of a row.**

A row's context binds a name to the number in the first column of that name, if there is a number
(`get?_ofRow`). So a column that a formula does not read can be written without any effect on its
outcomes.

* `get?_ofRow` — the context of a row is the look-up in the row.
* `context_of_row` — the same in terms of places, and how many names are bound.
* `get?_ofRow_setColumn` — writing a column changes what is bound to its name only.
* `outcomes_setColumn` — hence a formula that does not read the column has the same outcomes.
-/

import ColumnCalc.Proofs.Formula.Variables
import ColumnCalc.Proofs.Table.RowByRow
import Mathlib.Data.Set.Card

namespace ColumnCalc

/-! ### The context of a row -/

/-- What a row's entry binds, if it holds a number. -/
def binding? (entry : String × Cell) : Option (String × Float) :=
  entry.2.number?.map fun value => (entry.1, value)

/-- Of the entries of one name the first one decides, and it binds the name if it holds a number.
Names that were seen before are bound by none. -/
theorem lookup_bindings (seen : List String) (entries : List (String × Cell)) (name : String) :
    ((firstEntries seen entries).filterMap binding?).reverse.lookup name
      = if name ∈ seen then none else (entries.lookup name).bind Cell.number? := by
  induction entries generalizing seen with
  | nil => simp [firstEntries]
  | cons entry rest ih =>
    obtain ⟨key, cell⟩ := entry
    rw [firstEntries, Dictionary.lookup_entry]
    by_cases known : key ∈ seen
    · rw [if_pos (List.contains_iff_mem.2 known), ih]
      by_cases same : name = key
      · rw [same, if_pos known, if_pos known]
      · rw [if_neg same]
    · rw [if_neg (mt List.contains_iff_mem.1 known)]
      have further := ih (key :: seen)
      cases isNumber : cell.number? with
      | none =>
        rw [List.filterMap_cons_none (by simp [binding?, isNumber]), further]
        by_cases same : name = key
        · simp [same, isNumber]
        · simp [same]
      | some value =>
        rw [List.filterMap_cons_some (b := (key, value)) (by simp [binding?, isNumber]),
          List.reverse_cons, List.lookup_append, further, Dictionary.lookup_entry]
        by_cases same : name = key
        · simp [same, known, isNumber]
        · simp [same]

/-- A row's entry under a name is its cell in the first column of that name. -/
theorem lookup_zip {columns : List String} {row : List Cell} (width : row.length = columns.length)
    (name : String) : (columns.zip row).lookup name = Table.cellOf? columns row name := by
  induction columns generalizing row with
  | nil => rfl
  | cons column columns ih =>
    cases row with
    | nil => cases width
    | cons cell row =>
      have further := ih (Nat.succ.inj width)
      rw [List.zip_cons_cons, Dictionary.lookup_entry, further, Table.cellOf?, Table.cellOf?,
        List.findIdx?_cons]
      by_cases same : name = column
      · simp [same]
      · have missed : (column == name) = false := by
          rw [beq_eq_false_iff_ne]
          exact fun equal => same equal.symm
        rw [if_neg same, missed]
        cases columns.findIdx? (· == name) <;> rfl

/-- **The context of a row is the look-up in the row**: a name is bound to the number in the first
column of that name, and not bound if there is no such column or no number in it. -/
theorem get?_ofRow {columns : List String} {row : List Cell} (width : row.length = columns.length)
    (name : String) :
    (Context.ofRow columns row).get? name = (Table.cellOf? columns row name).bind Cell.number? := by
  have looked := lookup_bindings [] (columns.zip row) name
  rw [if_neg List.not_mem_nil, lookup_zip width] at looked
  rw [← looked]
  exact Dictionary.get?_ofList _ name

/-! ### First columns -/

/-- **The first column of a name** stands at a place. -/
structure FirstIn (columns : List String) (name : String) (index : Nat) : Prop where
  isNamed : columns[index]? = some name
  noneBefore : ∀ earlier < index, columns[earlier]? ≠ some name

theorem firstIn_iff {columns : List String} {name : String} {index : Nat} :
    FirstIn columns name index ↔ columns.findIdx? (· == name) = some index := by
  rw [List.findIdx?_eq_some_iff_getElem]
  constructor
  · rintro ⟨isNamed, noneBefore⟩
    obtain ⟨inside, same⟩ := List.getElem?_eq_some_iff.1 isNamed
    refine ⟨inside, beq_iff_eq.2 same, fun earlier before isSame => noneBefore earlier before ?_⟩
    rw [List.getElem?_eq_getElem (before.trans inside), beq_iff_eq.1 isSame]
  · rintro ⟨inside, same, noneBefore⟩
    refine ⟨by rw [List.getElem?_eq_getElem inside, beq_iff_eq.1 same], ?_⟩
    intro earlier before isNamed
    obtain ⟨_, isSame⟩ := List.getElem?_eq_some_iff.1 isNamed
    exact noneBefore earlier before (beq_iff_eq.2 isSame)

/-- The cell of a row under a name is the one in the first column of that name. -/
theorem cellOf?_eq_some_iff {columns : List String} {row : List Cell}
    (width : row.length = columns.length) {name : String} {cell : Cell} :
    Table.cellOf? columns row name = some cell ↔
      ∃ index, FirstIn columns name index ∧ row[index]? = some cell := by
  rw [Table.cellOf?, Option.map_eq_some_iff]
  refine exists_congr fun index => ?_
  rw [firstIn_iff]
  refine and_congr_right fun found => ?_
  obtain ⟨inColumns, _⟩ := List.getElem?_eq_some_iff.1 (firstIn_iff.2 found).isNamed
  have inRow : index < row.length := by rwa [width]
  rw [List.getD_eq_getElem?_getD, List.getElem?_eq_getElem inRow, Option.getD_some,
    Option.some.injEq]

/-- A dictionary has as many entries as there are keys under which it holds something. -/
theorem Dictionary.size_eq_ncard {α : Type} (dictionary : Dictionary α) :
    dictionary.size = {key | ∃ value, dictionary.get? key = some value}.ncard := by
  have distinct : dictionary.keys.Nodup := by
    refine List.pairwise_map.2 (dictionary.ascending.imp ?_)
    intro first second before same
    rw [same] at before
    exact String.lt_irrefl _ before
  have areKeys : {key | ∃ value, dictionary.get? key = some value}
      = (dictionary.keys.toFinset : Set String) := by
    ext key
    simp [Dictionary.keys, Dictionary.mem_entries_iff]
  rw [areKeys, Set.ncard_coe_finset, List.toFinset_card_of_nodup distinct, Dictionary.keys,
    List.length_map, Dictionary.size]

/-- **The context of a row of a table.** What it binds to a name is the number of the row under that
name. So the first column of a name decides: the name is bound to the number there and not bound if
there is a text or nothing, whatever the later columns of that name hold. As many names are bound as
there are names whose first column holds a number. -/
theorem context_of_row {table : Table} (rectangular : table.Rectangular) {row : List Cell}
    (isRow : row ∈ table.rows) :
    let context := Context.ofRow table.columns row
    (∀ name, context.get? name = (Table.cellOf? table.columns row name).bind Cell.number?) ∧
    (∀ name index cell, FirstIn table.columns name index → row[index]? = some cell →
      context.get? name = cell.number?) ∧
    context.size = {name | ∃ index value, FirstIn table.columns name index ∧
      row[index]? = some (.number value)}.ncard := by
  intro context
  have width := rectangular row isRow
  have isLookup (name : String) :
      context.get? name = (Table.cellOf? table.columns row name).bind Cell.number? :=
    get?_ofRow width name
  refine ⟨isLookup, fun name index cell isFirst isCell => ?_, ?_⟩
  · rw [isLookup, (cellOf?_eq_some_iff width).2 ⟨index, isFirst, isCell⟩]
    rfl
  · rw [Dictionary.size_eq_ncard]
    congr 1
    ext name
    simp only [Set.mem_ofPred_eq, isLookup, Option.bind_eq_some_iff, cellOf?_eq_some_iff width]
    constructor
    · rintro ⟨value, cell, ⟨index, isFirst, isCell⟩, isNumber⟩
      cases cell with
      | number other => exact ⟨index, other, isFirst, isCell⟩
      | text content => cases isNumber
      | empty => cases isNumber
    · rintro ⟨index, value, isFirst, isCell⟩
      exact ⟨value, .number value, ⟨index, isFirst, isCell⟩, rfl⟩

/-- Two columns `Price` and two columns `Cost`, of which the first holds a text: the first price is
bound, and no cost, so one name is bound. -/
theorem context_of_row_repeated :
    let table : Table :=
      ⟨["Price", "Price", "Cost", "Cost"], [[.number 1, .number 2, .text "n/a", .number 4]]⟩
    let context := Context.ofRow table.columns [.number 1, .number 2, .text "n/a", .number 4]
    table.Rectangular ∧ FirstIn table.columns "Cost" 2 ∧
    context.get? "Price" = some 1 ∧ context.get? "Cost" = none ∧
    context.size = 1 ∧ {name | ∃ index value, FirstIn table.columns name index ∧
      [Cell.number 1, .number 2, .text "n/a", .number 4][index]? = some (.number value)}.ncard = 1 := by
  intro table context
  have rectangular : table.Rectangular := by decide
  have isFirst : FirstIn table.columns "Cost" 2 := firstIn_iff.2 (by decide)
  have firstPrice : FirstIn table.columns "Price" 0 := firstIn_iff.2 (by decide)
  have isRow : [.number 1, .number 2, .text "n/a", .number 4] ∈ table.rows := .head _
  have bound := context_of_row rectangular isRow
  have one : context.size = 1 := rfl
  exact ⟨rectangular, isFirst, bound.2.1 "Price" 0 _ firstPrice rfl,
    bound.2.1 "Cost" 2 _ isFirst rfl, one, bound.2.2.symm.trans one⟩

/-! ### Columns that are not read -/

/-- **Writing a column changes what is bound to its name**, and nothing else. -/
theorem get?_ofRow_setColumn {table : Table} {row : List Cell}
    (width : row.length = table.columns.length) (column : String) (cells : List Cell) (cell : Cell)
    {name : String} (other : name ≠ column) :
    (Context.ofRow (table.setColumn column cells).columns
        (putAt (table.placeOf column) cell row)).get? name
      = (Context.ofRow table.columns row).get? name := by
  have widthAfter : (putAt (table.placeOf column) cell row).length
      = (table.setColumn column cells).columns.length := by
    rw [Table.columns_setColumn, length_putAt, length_putAt, width]
  rw [get?_ofRow widthAfter, get?_ofRow width, Table.cellOf?_setColumn width, if_neg other]

/-- **A formula that does not read a column has the same outcomes when it is written.** -/
theorem Formula.outcomes_setColumn {table : Table} (rectangular : table.Rectangular)
    {formula : Formula} {column : String} (unread : column ∉ formula.tree.reads)
    {cells : List Cell} (complete : cells.length = table.size) :
    formula.outcomes (table.setColumn column cells) = formula.outcomes table := by
  refine List.ext_getElem? fun index => ?_
  rw [getElem?_outcomes, getElem?_outcomes, Table.getElem?_setColumn rectangular column complete]
  cases isRow : table.rows[index]? with
  | none => rfl
  | some row =>
    obtain ⟨cell, isCell⟩ := Table.exists_cell complete isRow
    have width := rectangular row (List.mem_of_getElem? isRow)
    rw [isCell]
    refine congrArg some (Expr.evaluate_congr fun name isRead => ?_)
    exact get?_ofRow_setColumn width column cells cell fun same => unread (same ▸ isRead)

end ColumnCalc
