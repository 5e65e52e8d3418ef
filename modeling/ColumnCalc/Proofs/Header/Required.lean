/-
**Rows without a required value.**

An entry of a mapping asks for a value if its target is a required field. `missingFields` goes through
the rows, and in each row through these entries. Both come in ascending order, so what is reported is
in order as well, and nothing is reported twice.

* `Cell.isBlank_iff` — which cells count as no value.
* `mem_requiredColumns_iff`, `requiredColumns_ascending` — the entries that ask for a value.
* `mem_missingFields_iff` — a report stands for a row and an entry.
* `missingFields_exact` — the reports are the missing values, each once and in order.
-/

import ColumnCalc.Header.Mapping
import ColumnCalc.Proofs.Table.Contexts
import ColumnCalc.Proofs.Text.Utf8

namespace ColumnCalc

open Text.Utf8 (encode)

/-! ### Cells without a value -/

/-- **A cell without a value**: it is empty or its text is white space. -/
inductive Cell.Blank : Cell → Prop
  | empty : Blank .empty
  | spaces {content : String} (blank : ∀ c ∈ content.toList, Text.isBlank c = true) :
    Blank (.text content)

theorem Cell.isBlank_iff {cell : Cell} : cell.isBlank = true ↔ cell.Blank := by
  cases cell with
  | number value => exact ⟨nofun, nofun⟩
  | empty => exact ⟨fun _ => .empty, fun _ => rfl⟩
  | text content =>
    rw [Cell.isBlank, List.isEmpty_iff, Text.trim_eq_nil_iff, List.all_eq_true]
    exact ⟨.spaces, fun | .spaces blank => blank⟩

/-- **A row has no value in a column**: there is no column of that name, or the row's cell in the
first one is blank. -/
def Lacks (columns : List String) (row : List Cell) (column : String) : Prop :=
  column ∉ columns ∨
    ∃ index cell, FirstIn columns column index ∧ row[index]? = some cell ∧ cell.Blank

theorem cellOf?_eq_none_iff {columns : List String} {row : List Cell} {column : String} :
    Table.cellOf? columns row column = none ↔ column ∉ columns := by
  rw [Table.cellOf?, Option.map_eq_none_iff, List.findIdx?_eq_none_iff]
  simp only [beq_eq_false_iff_ne]
  exact ⟨fun others member => others column member rfl,
    fun absent name member same => absent (same ▸ member)⟩

theorem lacks_iff {columns : List String} {row : List Cell}
    (width : row.length = columns.length) {column : String} :
    Lacks columns row column ↔
      ∀ cell, Table.cellOf? columns row column = some cell → cell.isBlank = true := by
  cases isCell : Table.cellOf? columns row column with
  | none => exact iff_of_true (.inl (cellOf?_eq_none_iff.1 isCell)) nofun
  | some cell =>
    obtain ⟨index, isFirst, isAt⟩ := (cellOf?_eq_some_iff width).1 isCell
    constructor
    · rintro (absent | ⟨other, blank, isOther, isBlankAt, isBlank⟩) _ ⟨⟩
      · exact absurd (List.mem_of_getElem? isFirst.isNamed) absent
      · have same := (cellOf?_eq_some_iff width).2 ⟨other, isOther, isBlankAt⟩
        cases isCell.symm.trans same
        exact Cell.isBlank_iff.2 isBlank
    · exact fun blank => .inr ⟨index, cell, isFirst, isAt, Cell.isBlank_iff.1 (blank cell rfl)⟩

/-! ### Entries that ask for a value -/

/-- **An entry asks for a value** if its target is a required field. -/
theorem mem_requiredColumns_iff {mapping : HeaderMapping} {column field : String} :
    (column, field) ∈ requiredColumns mapping ↔
      mapping.get? column = some (some field) ∧ field ∈ requiredFields := by
  rw [← Dictionary.mem_entries_iff, requiredColumns, List.mem_filterMap]
  constructor
  · rintro ⟨⟨name, target⟩, member, picked⟩
    cases target with
    | none => cases picked
    | some other =>
      dsimp only at picked
      split at picked
      · rename_i isRequired
        cases picked
        exact ⟨member, List.contains_iff_mem.1 isRequired⟩
      · cases picked
  · rintro ⟨member, isRequired⟩
    exact ⟨_, member, if_pos (List.contains_iff_mem.2 isRequired)⟩

theorem requiredColumns_ascending (mapping : HeaderMapping) :
    (requiredColumns mapping).Pairwise fun first second => first.1 < second.1 := by
  rw [requiredColumns, List.pairwise_filterMap]
  refine mapping.ascending.imp ?_
  rintro ⟨column, target⟩ ⟨later, other⟩ before first isFirst second isSecond
  cases target with
  | none => cases isFirst
  | some field =>
    cases other with
    | none => cases isSecond
    | some otherField =>
      dsimp only at isFirst isSecond
      split at isFirst
      · split at isSecond
        · cases isFirst
          cases isSecond
          exact before
        · cases isSecond
      · cases isFirst

/-! ### Reports -/

/-- What is reported of a row for an entry that asks for a value. -/
def missingIn (columns : List String) (row : List Cell × Nat) (entry : String × String) :
    Option MissingField :=
  match Table.cellOf? columns row.1 entry.1 with
  | some cell => if cell.isBlank then some ⟨row.2, entry.2, entry.1⟩ else none
  | none => some ⟨row.2, entry.2, entry.1⟩

theorem missingFields_eq (table : Table) (mapping : HeaderMapping) :
    missingFields table mapping
      = (table.rows.zipIdx 1).flatMap fun row =>
          (requiredColumns mapping).filterMap (missingIn table.columns row) := rfl

/-- A report names its row and its entry. -/
theorem eq_of_missingIn {columns : List String} {row : List Cell × Nat} {entry : String × String}
    {missing : MissingField} (reported : missingIn columns row entry = some missing) :
    missing = ⟨row.2, entry.2, entry.1⟩ := by
  unfold missingIn at reported
  split at reported
  · split at reported
    · cases reported
      rfl
    · cases reported
  · cases reported
    rfl

theorem missingIn_eq_some_iff {columns : List String} {row : List Cell × Nat}
    (width : row.1.length = columns.length) {entry : String × String} {missing : MissingField} :
    missingIn columns row entry = some missing ↔
      Lacks columns row.1 entry.1 ∧ missing = ⟨row.2, entry.2, entry.1⟩ := by
  rw [lacks_iff width, missingIn]
  cases Table.cellOf? columns row.1 entry.1 with
  | none => exact ⟨fun reported => ⟨nofun, (Option.some.inj reported).symm⟩,
      fun ⟨_, same⟩ => congrArg some same.symm⟩
  | some cell =>
    dsimp only
    split
    · rename_i blank
      exact ⟨fun reported => ⟨fun _ same => Option.some.inj same ▸ blank,
        (Option.some.inj reported).symm⟩, fun ⟨_, same⟩ => congrArg some same.symm⟩
    · rename_i solid
      exact ⟨nofun, fun ⟨lacks, _⟩ => absurd (lacks cell rfl) solid⟩

/-- **A value is missing**: the row has no value in a column that the mapping sends to the field, and
the field is a required one. -/
structure IsMissing (table : Table) (mapping : HeaderMapping) (missing : MissingField) : Prop where
  /-- Rows are counted from one. -/
  lacks : ∃ index cells, missing.row = index + 1 ∧ table.rows[index]? = some cells ∧
    Lacks table.columns cells missing.column
  mapped : mapping.get? missing.column = some (some missing.field)
  required : missing.field ∈ requiredFields

/-- **What is reported is missing**, and the other way round. -/
theorem mem_missingFields_iff {table : Table} (rectangular : table.Rectangular)
    {mapping : HeaderMapping} {missing : MissingField} :
    missing ∈ missingFields table mapping ↔ IsMissing table mapping missing := by
  rw [missingFields_eq, List.mem_flatMap]
  constructor
  · rintro ⟨⟨cells, number⟩, isRow, reported⟩
    obtain ⟨⟨column, field⟩, isEntry, reported⟩ := List.mem_filterMap.1 reported
    obtain ⟨fromOne, found⟩ := List.mk_mem_zipIdx_iff_le_and_getElem?_sub.1 isRow
    have width := rectangular cells (List.mem_of_getElem? found)
    obtain ⟨lacks, rfl⟩ := (missingIn_eq_some_iff width).1 reported
    obtain ⟨mapped, required⟩ := mem_requiredColumns_iff.1 isEntry
    exact ⟨⟨number - 1, cells, by simp only; omega, found, lacks⟩, mapped, required⟩
  · rintro ⟨⟨index, cells, isNumber, found, lacks⟩, mapped, required⟩
    have width := rectangular cells (List.mem_of_getElem? found)
    refine ⟨(cells, index + 1),
      List.mk_mem_zipIdx_iff_le_and_getElem?_sub.2 ⟨by omega, found⟩, List.mem_filterMap.2
        ⟨_, mem_requiredColumns_iff.2 ⟨mapped, required⟩,
          (missingIn_eq_some_iff width).2 ⟨lacks, ?_⟩⟩⟩
    rw [← isNumber]

/-- **The order of reports**: by row, and within a row by column, in the order of bytes. -/
def MissingField.Before (first second : MissingField) : Prop :=
  first.row < second.row ∨
    first.row = second.row ∧ encode first.column.toList < encode second.column.toList

theorem MissingField.Before.ne {first second : MissingField} (before : first.Before second) :
    first ≠ second := by
  rintro rfl
  rcases before with less | ⟨_, less⟩
  · exact Nat.lt_irrefl _ less
  · exact List.lt_irrefl _ less

/-- **Reports are in order.** -/
theorem missingFields_ascending (table : Table) (mapping : HeaderMapping) :
    (missingFields table mapping).Pairwise MissingField.Before := by
  have numbers : (table.rows.zipIdx 1).Pairwise fun first second => first.2 < second.2 := by
    rw [← List.pairwise_map (f := Prod.snd), List.zipIdx_map_snd]
    exact List.pairwise_lt_range'
  rw [missingFields_eq, List.pairwise_flatMap]
  constructor
  · -- Within a row the entries decide.
    intro row _
    rw [List.pairwise_filterMap]
    refine (requiredColumns_ascending mapping).imp ?_
    intro entry later before first isFirst second isSecond
    cases eq_of_missingIn isFirst
    cases eq_of_missingIn isSecond
    exact .inr ⟨rfl, Text.Utf8.encode_lt (String.lt_iff.1 before)⟩
  · refine numbers.imp ?_
    intro row later before first isFirst second isSecond
    obtain ⟨_, _, isFirst⟩ := List.mem_filterMap.1 isFirst
    obtain ⟨_, _, isSecond⟩ := List.mem_filterMap.1 isSecond
    cases eq_of_missingIn isFirst
    cases eq_of_missingIn isSecond
    exact .inl before

/-- **Missing values are reported exactly.** There is one report for each row and each column that the
mapping sends to a required field if the row has no value there: no column has the name, or the cell
in the first column of the name is empty or white space. There are no other reports. They are in
ascending order of the rows, and within a row in the order of the bytes of the columns' names. -/
theorem missingFields_exact {table : Table} (rectangular : table.Rectangular)
    (mapping : HeaderMapping) :
    (∀ missing, IsMissing table mapping missing → (missingFields table mapping).count missing = 1) ∧
    (∀ missing ∈ missingFields table mapping, IsMissing table mapping missing) ∧
    (missingFields table mapping).Pairwise MissingField.Before := by
  have ordered := missingFields_ascending table mapping
  have distinct : (missingFields table mapping).Nodup := ordered.imp fun before => before.ne
  refine ⟨fun missing isMissing => ?_, fun missing => (mem_missingFields_iff rectangular).1, ordered⟩
  exact List.count_eq_one_of_mem distinct ((mem_missingFields_iff rectangular).2 isMissing)

/-- Two columns `name`, of which the second one does not count, and a column `label` that the table
does not have: the blank name of the first row is reported, and the absent label in both rows. -/
theorem missingFields_exact_repeated :
    let table : Table := ⟨["name", "cost", "name"],
      [[.text "\u3000 ", .number 0, .text "Lamp"], [.text "Desk", .empty, .empty]]⟩
    let mapping : HeaderMapping :=
      .ofList [("name", some "Title"), ("label", some "Title"), ("cost", some "Vendor")]
    table.Rectangular ∧
    missingFields table mapping
      = [⟨1, "Title", "label"⟩, ⟨1, "Title", "name"⟩, ⟨2, "Title", "label"⟩] ∧
    IsMissing table mapping ⟨1, "Title", "name"⟩ ∧
    (missingFields table mapping).count ⟨1, "Title", "name"⟩ = 1 := by
  intro table mapping
  have rectangular : table.Rectangular := by decide
  have reports : missingFields table mapping
      = [⟨1, "Title", "label"⟩, ⟨1, "Title", "name"⟩, ⟨2, "Title", "label"⟩] := by
    with_unfolding_all rfl
  have isFirst : FirstIn table.columns "name" 0 := firstIn_iff.2 (by decide)
  have isBlank : (Cell.text "\u3000 ").Blank := Cell.isBlank_iff.1 (by decide +kernel)
  have mapped : mapping.get? "name" = some (some "Title") := by with_unfolding_all rfl
  have isMissing : IsMissing table mapping ⟨1, "Title", "name"⟩ :=
    ⟨⟨0, _, rfl, rfl, .inr ⟨0, _, isFirst, rfl, isBlank⟩⟩, mapped, by decide⟩
  exact ⟨rectangular, reports, isMissing, (missingFields_exact rectangular mapping).1 _ isMissing⟩

end ColumnCalc
