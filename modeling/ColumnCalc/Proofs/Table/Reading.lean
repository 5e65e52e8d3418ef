/-
**Tables that are read.**

A reader names the columns first and then pushes one row after another. Each push checks the
number of cells, so what is read is rectangular; and the check never fails, since both readers
make rows as wide as the columns: a record with another number of fields is refused before it
becomes a row, and a sheet is laid out in one width.

* `pushEach_of_fits` — rows that fit are all added.
* `rectangular_ofCsv`, `rectangular_ofXlsx` — what is read is rectangular.
* `ofCsv_failsWith`, `ofXlsx_failsWith` — no reader fails because of a row's width (`FromFile`).
-/

import ColumnCalc.Csv.Table
import ColumnCalc.Proofs.Failure
import ColumnCalc.Workbook.Table

namespace ColumnCalc

/-- An error that a file gives rise to, and not the shape of a table. -/
def TableError.FromFile : TableError → Prop
  | .rowWidth .. => False
  | .columnLength .. => False
  | _ => True

namespace Table

/-! ### Pushing rows -/

section Push

variable {α : Type} {cellsOf : α → Except TableError (List Cell)}

theorem rectangular_pushEach {table grown : Table} {sources : List α}
    (rectangular : table.Rectangular) (pushed : table.pushEach cellsOf sources = .ok grown) :
    grown.Rectangular := by
  induction sources generalizing table with
  | nil =>
    rw [pushEach_nil] at pushed
    cases pushed
    exact rectangular
  | cons source sources ih =>
    rw [pushEach_cons] at pushed
    obtain ⟨cells, _, went⟩ := bind_eq_ok.1 pushed
    obtain ⟨next, added, further⟩ := bind_eq_ok.1 went
    exact ih (rectangular_pushRow rectangular added) further

/-- **Rows that fit are all added**, and nothing fails but the making of their cells. -/
theorem pushEach_of_fits {table : Table} {sources : List α}
    (fits : ∀ source ∈ sources, ∀ cells, cellsOf source = .ok cells →
      cells.length = table.columns.length) :
    table.pushEach cellsOf sources
      = sources.mapM cellsOf >>= fun rows => .ok { table with rows := table.rows ++ rows } := by
  induction sources generalizing table with
  | nil =>
    rw [pushEach_nil, List.mapM_nil]
    show _ = Except.ok { table with rows := table.rows ++ [] }
    rw [List.append_nil]
  | cons source sources ih =>
    rw [pushEach_cons, List.mapM_cons]
    cases made : cellsOf source with
    | error error => rfl
    | ok cells =>
      have added : table.pushRow cells = .ok { table with rows := table.rows ++ [cells] } :=
        pushRow_eq_ok_iff.2 ⟨fits source (.head _) cells made, rfl⟩
      show table.pushRow cells >>= _
        = (sources.mapM cellsOf >>= fun rows => .ok (cells :: rows)) >>= _
      rw [added]
      have further := @ih { table with rows := table.rows ++ [cells] } fun other member =>
        fits other (.tail _ member)
      refine Eq.trans further ?_
      simp only [bind_assoc, List.append_assoc, List.singleton_append]
      rfl

end Push

end Table

/-! ### Comma-separated text -/

namespace Csv

theorem texts_length {record : Record} {fields : List String} (read : texts record = .ok fields) :
    fields.length = record.fields.length := by
  unfold texts at read
  split at read
  · cases read
  · cases read
    exact List.length_map ..

/-- A record that becomes a row has the expected number of fields. -/
theorem cells_length {expected : Nat} {record : Record} {row : List Cell}
    (read : cells expected record = .ok row) : row.length = expected := by
  unfold cells at read
  split at read
  · rename_i fits
    obtain ⟨fields, isRead, made⟩ := bind_eq_ok.1 read
    cases made
    rw [List.length_map, texts_length isRead, fits]
  · cases read

theorem texts_failsWith (record : Record) : FailsWith TableError.FromFile (texts record) := by
  unfold texts
  split
  · exact .error trivial
  · exact .ok _

theorem cells_failsWith (expected : Nat) (record : Record) :
    FailsWith TableError.FromFile (cells expected record) := by
  unfold cells
  split
  · exact (texts_failsWith record).bind fun _ _ => .ok _
  · exact .error trivial

end Csv

namespace Table

/-- Reading comma-separated text, all rows at once. -/
theorem ofCsv_eq {bytes : Text.Bytes} {header : Csv.Record} {records : List Csv.Record}
    (split : Csv.readRecords bytes = header :: records) :
    ofCsv bytes = Csv.texts header >>= fun columns =>
      records.mapM (Csv.cells columns.length) >>= fun rows => .ok ⟨columns, rows⟩ := by
  unfold ofCsv
  rw [split]
  show (Csv.texts header >>= fun columns => _) = _
  congr 1
  funext columns
  exact pushEach_of_fits fun record _ cells made => Csv.cells_length made

/-- **What is read from comma-separated text is rectangular.** -/
theorem rectangular_ofCsv {bytes : Text.Bytes} {table : Table} (read : ofCsv bytes = .ok table) :
    table.Rectangular := by
  unfold ofCsv at read
  split at read
  · cases read
    exact rectangular_ofColumns []
  · obtain ⟨columns, _, pushed⟩ := bind_eq_ok.1 read
    exact rectangular_pushEach (rectangular_ofColumns columns) pushed

/-- **Comma-separated text never fails because of a row's width**: the field count is checked
first. -/
theorem ofCsv_failsWith (bytes : Text.Bytes) : FailsWith TableError.FromFile (ofCsv bytes) := by
  cases found : Csv.readRecords bytes with
  | nil =>
    unfold ofCsv
    rw [found]
    exact .ok _
  | cons header records =>
    rw [ofCsv_eq found]
    refine (Csv.texts_failsWith header).bind fun columns _ => ?_
    exact (FailsWith.mapM (Csv.cells_failsWith columns.length) records).bind fun _ _ => .ok _

end Table

/-! ### Workbooks -/

namespace Workbook

theorem textOf_failsWith (content : Text.Bytes) :
    FailsWith TableError.FromFile (textOf content) := by
  unfold textOf
  split
  · exact .ok _
  · exact .error trivial

theorem attributeText_failsWith (tag : Xml.Tag) (name : String) :
    FailsWith TableError.FromFile (attributeText tag name) := by
  unfold attributeText
  split
  · exact (textOf_failsWith _).map _
  · exact .ok _

section Events

variable {α : Type}

theorem foldEvents_failsWith {step : α → Xml.Event → Except TableError α}
    (fails : ∀ state event, FailsWith TableError.FromFile (step state event)) (start : α)
    (document : Xml.Document) : FailsWith TableError.FromFile (foldEvents step start document) := by
  refine (FailsWith.foldlM fails _ _).bind fun final _ => ?_
  split
  · exact .ok _
  · exact .error trivial

theorem findAmong_failsWith {answer : Xml.Event → Except TableError (Option α)}
    (fails : ∀ event, FailsWith TableError.FromFile (answer event)) (events : List Xml.Event) :
    FailsWith TableError.FromFile (findAmong answer events) := by
  induction events with
  | nil => exact .ok _
  | cons event rest ih =>
    refine (fails event).bind fun found _ => ?_
    cases found with
    | none => exact ih
    | some _ => exact .ok _

theorem findEvent_failsWith {answer : Xml.Event → Except TableError (Option α)}
    (fails : ∀ event, FailsWith TableError.FromFile (answer event)) (document : Xml.Document) :
    FailsWith TableError.FromFile (findEvent answer document) := by
  refine (findAmong_failsWith fails _).bind fun found _ => ?_
  cases found with
  | some _ => exact .ok _
  | none =>
    show FailsWith _ (if document.wellFormed then _ else _)
    split
    · exact .ok _
    · exact .error trivial

end Events

theorem requiredPart_failsWith (archive : Archive) (name : String) :
    FailsWith TableError.FromFile (requiredPart archive name) := by
  unfold requiredPart
  split
  · exact .ok _
  · exact .error trivial

/-! The parts of a workbook, each by its events. -/

theorem sheetRelationship_failsWith (event : Xml.Event) :
    FailsWith TableError.FromFile (sheetRelationship event) := by
  unfold sheetRelationship
  split
  · split
    · exact (attributeText_failsWith _ _).map _
    · exact .ok _
  · exact .ok _

theorem relationship_failsWith (id : String) (relationship : Relationship) (pair : Xml.Attribute) :
    FailsWith TableError.FromFile (relationship.step id pair) := by
  unfold Relationship.step
  split
  · exact (textOf_failsWith _).bind fun _ _ => .ok _
  · split
    · exact (textOf_failsWith _).bind fun _ _ => .ok _
    · exact .ok _

theorem relatedPart_failsWith (id : String) (event : Xml.Event) :
    FailsWith TableError.FromFile (relatedPart id event) := by
  unfold relatedPart
  split
  · split
    · exact (FailsWith.foldlM (relationship_failsWith id) _ _).bind fun _ _ => .ok _
    · exact .ok _
  · exact .ok _

theorem firstSheetPart_failsWith (archive : Archive) :
    FailsWith TableError.FromFile (firstSheetPart archive) := by
  refine (requiredPart_failsWith archive _).bind fun document _ => ?_
  refine (findEvent_failsWith sheetRelationship_failsWith document).bind fun found _ => ?_
  cases found.join with
  | none => exact .error trivial
  | some id =>
    cases archive.part? relationshipsPart with
    | none => exact .ok _
    | some content => exact (findEvent_failsWith (relatedPart_failsWith id) _).bind fun _ _ => .ok _

theorem stringReading_failsWith (reading : StringReading) (event : Xml.Event) :
    FailsWith TableError.FromFile (reading.step event) := by
  cases event with
  | start tag =>
    unfold StringReading.step
    simp only
    split <;> exact .ok _
  | single tag =>
    unfold StringReading.step
    simp only
    split <;> exact .ok _
  | close name =>
    unfold StringReading.step
    simp only
    split <;> exact .ok _
  | text content =>
    unfold StringReading.step
    simp only
    split
    · exact (textOf_failsWith _).bind fun _ _ => .ok _
    · exact .ok _
  | other => exact .ok _

theorem stringsOf_failsWith (archive : Archive) :
    FailsWith TableError.FromFile (stringsOf archive) := by
  unfold stringsOf
  split
  · exact (foldEvents_failsWith stringReading_failsWith _ _).bind fun _ _ => .ok _
  · exact .ok _

theorem readCell_failsWith (strings : Array String) (kind : CellKind) (value : Option String) :
    FailsWith TableError.FromFile (readCell strings kind value) := by
  unfold readCell
  split
  · exact .ok _
  · split
    · split
      · exact .ok _
      · exact .error trivial
    · split <;> exact .ok _
    · exact .ok _

theorem sheetReading_failsWith (strings : Array String) (reading : SheetReading)
    (event : Xml.Event) : FailsWith TableError.FromFile (reading.step strings event) := by
  cases event with
  | start tag =>
    show FailsWith _ (reading.start tag)
    unfold SheetReading.start
    split
    · refine FailsWith.bind ?_ fun _ _ => .ok _
      exact (attributeText_failsWith _ _).bind fun _ _ => .ok _
    · refine FailsWith.bind ?_ fun _ _ => ?_
      · exact (attributeText_failsWith _ _).bind fun _ _ => .ok _
      · exact (attributeText_failsWith _ _).bind fun _ _ => .ok _
    · exact .ok _
    · exact .ok _
  | single tag =>
    show FailsWith _ (reading.single tag)
    unfold SheetReading.single
    split
    · refine FailsWith.bind ?_ fun _ _ => .ok _
      exact (attributeText_failsWith _ _).bind fun _ _ => .ok _
    · exact .ok _
  | close name =>
    show FailsWith _ (reading.close strings name)
    unfold SheetReading.close
    split
    · exact .ok _
    · exact (readCell_failsWith strings _ _).bind fun _ _ => .ok _
    · exact .ok _
    · exact .ok _
  | text content =>
    unfold SheetReading.step
    simp only
    split
    · exact (textOf_failsWith _).bind fun _ _ => .ok _
    · exact .ok _
  | other => exact .ok _

theorem firstSheet_failsWith (archive : Archive) :
    FailsWith TableError.FromFile (firstSheet archive) := by
  refine (stringsOf_failsWith archive).bind fun strings _ => ?_
  refine (firstSheetPart_failsWith archive).bind fun part _ => ?_
  refine (requiredPart_failsWith archive part).bind fun document _ => ?_
  exact (foldEvents_failsWith (sheetReading_failsWith strings) _ _).bind fun _ _ => .ok _

namespace Sheet

/-- **A sheet is laid out as wide as its columns**, so every row fits. -/
theorem toTable_failsWith (sheet : Sheet) : FailsWith TableError.FromFile sheet.toTable := by
  unfold toTable
  split
  · rw [Table.pushEach_of_fits]
    · exact (FailsWith.mapM (fun _ => .ok _) _).bind fun _ _ => .ok _
    · intro row _ cells made
      cases made
      rw [length_tableRow, Table.ofColumns, List.length_map, List.length_range]
  · exact .ok _

theorem rectangular_toTable {sheet : Sheet} {table : Table} (laid : sheet.toTable = .ok table) :
    table.Rectangular := by
  unfold toTable at laid
  split at laid
  · exact Table.rectangular_pushEach (Table.rectangular_ofColumns _) laid
  · cases laid
    exact Table.rectangular_ofColumns []

end Sheet

end Workbook

namespace Table

/-- **What is read from a workbook is rectangular.** -/
theorem rectangular_ofXlsx {bytes : Text.Bytes} {table : Table} (read : ofXlsx bytes = .ok table) :
    table.Rectangular := by
  unfold ofXlsx at read
  split at read
  · obtain ⟨sheet, _, laid⟩ := bind_eq_ok.1 read
    exact Workbook.Sheet.rectangular_toTable laid
  · cases read

/-- **A workbook never fails because of a row's width**: a sheet is laid out in one width. -/
theorem ofXlsx_failsWith (bytes : Text.Bytes) : FailsWith TableError.FromFile (ofXlsx bytes) := by
  unfold ofXlsx
  split
  · exact (Workbook.firstSheet_failsWith _).bind fun sheet _ => sheet.toTable_failsWith
  · exact .error trivial

end Table

end ColumnCalc
