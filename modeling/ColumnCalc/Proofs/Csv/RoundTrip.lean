/-
**Tables written as comma-separated text and read back.**

What a table is written as is read as a table with the same rows, up to the detection of cells: a
cell comes back as what its text is detected to be. Detection is idempotent through the text of a
cell (`Cell.detect_render`), so a table that was read from comma-separated text comes back as it
is.

* `Csv.readRecords_written` — the records of a written file are those that were written.
* `Table.ofCsv_toCsv` — a written table is read back, its cells detected in their texts.
* `csv_round_trip` — both, and that a table that was read comes back as it is.
-/

import ColumnCalc.Proofs.Csv.Records
import ColumnCalc.Proofs.Table.Detection
import ColumnCalc.Proofs.Table.Reading

namespace ColumnCalc

open Text (Bytes)
open Text.Utf8 (encode text_encode decode_encode dropByteOrderMark_encode)

/-! ### Records -/

namespace Csv

/-- Of a written record only the first field, a quote or a comma can stand first. -/
theorem head_writeRecord {field : List Char} {more : List (List Char)} {mark : Char}
    (noQuote : mark ≠ '"') (noComma : mark ≠ ',') {rest : List Char}
    (starts : (writeRecord (field :: more) ++ rest).head? = some mark) :
    field.head? = some mark := by
  have line : ∃ behind, (behind = [] ∨ behind.head? = some ',') ∧
      [','].intercalate ((field :: more).map writeField) = writeField field ++ behind := by
    cases more with
    | nil => exact ⟨[], .inl rfl, by simp⟩
    | cons second more =>
      exact ⟨',' :: [','].intercalate ((second :: more).map writeField), .inr rfl,
        by simp [List.intercalate_cons_cons]⟩
  obtain ⟨behind, separated, isLine⟩ := line
  rw [writeRecord, isLine, writeField] at starts
  by_cases quotes : needsQuotes field = true
  · rw [if_pos quotes] at starts
    exact absurd (Option.some.inj starts).symm noQuote
  rw [if_neg quotes] at starts
  cases field with
  | cons c more => exact starts
  | nil =>
    -- Behind an empty first field stands a comma, or the line would be blank and is quoted.
    rcases separated with rfl | isComma
    · exact absurd (Option.some.inj starts).symm noQuote
    · cases behind with
      | nil => cases isComma
      | cons first rest =>
        cases isComma
        exact absurd (Option.some.inj starts).symm noComma

/-- **The records of a written file are those that were written.** -/
theorem readRecords_written {header : List (List Char)} {rows : List (List (List Char))}
    (named : header ≠ []) (wide : ∀ row ∈ rows, row ≠ [])
    (noMark : ∀ first ∈ header.head?, first.head? ≠ some '\uFEFF') :
    (readRecords (encode ((header :: rows).flatMap writeRecord))).map Record.fields
      = (header :: rows).map (·.map encode) := by
  obtain ⟨field, more, rfl⟩ := List.exists_cons_of_ne_nil named
  have unmarked : (((field :: more) :: rows).flatMap writeRecord).head? ≠ some '\uFEFF' := by
    rw [List.flatMap_cons]
    exact fun starts => noMark field rfl (head_writeRecord (by decide) (by decide) starts)
  unfold readRecords
  rw [dropByteOrderMark_encode unmarked]
  refine fields_readFrom (fun record member => ?_) _ _
  rcases List.mem_cons.1 member with rfl | isRow
  · exact named
  · exact wide record isRow

/-- The texts of a record whose fields are well-formed. -/
theorem texts_encoded {record : Record} {fields : List (List Char)}
    (same : record.fields = fields.map encode) :
    texts record = .ok (fields.map String.ofList) := by
  have noFault : encodingFault? record.fields = none := by
    unfold encodingFault?
    rw [List.findSome?_eq_none_iff]
    rintro ⟨bytes, index⟩ member
    have isField : bytes ∈ fields.map encode := same ▸ List.fst_mem_of_mem_zipIdx member
    obtain ⟨field, _, rfl⟩ := List.mem_map.1 isField
    show (if (Text.Utf8.text? (encode field)).isNone = true then _ else none) = none
    rw [text_encode]
    rfl
  unfold texts
  rw [noFault, same]
  simp [decode_encode]

theorem mapM_cells {expected : Nat} {records : List Record} {rows : List (List (List Char))}
    (same : records.map Record.fields = rows.map (·.map encode))
    (fits : ∀ row ∈ rows, row.length = expected) :
    records.mapM (cells expected)
      = .ok (rows.map (·.map fun field => Cell.detect (String.ofList field))) := by
  induction rows generalizing records with
  | nil =>
    cases records with
    | nil => rfl
    | cons _ _ => cases same
  | cons row rows ih =>
    cases records with
    | nil => cases same
    | cons record records =>
      rw [List.map_cons, List.map_cons, List.cons.injEq] at same
      obtain ⟨isRow, areRows⟩ := same
      have width : record.fields.length = expected := by
        rw [isRow, List.length_map, fits row (.head _)]
      have read : cells expected record
          = .ok (row.map fun field => Cell.detect (String.ofList field)) := by
        rw [cells, if_pos width, texts_encoded isRow]
        show Except.ok ((row.map String.ofList).map Cell.detect) = _
        rw [List.map_map]
        rfl
      rw [List.mapM_cons, read, ih areRows fun other member => fits other (.tail _ member)]
      rfl

/-- Every cell of a row was detected in a field. -/
theorem detected_of_cells {expected : Nat} {record : Record} {row : List Cell}
    (read : cells expected record = .ok row) {cell : Cell} (member : cell ∈ row) :
    ∃ field, cell = Cell.detect field := by
  unfold cells at read
  split at read
  · obtain ⟨fields, _, made⟩ := bind_eq_ok.1 read
    cases made
    obtain ⟨field, _, same⟩ := List.mem_map.1 member
    exact ⟨field, same.symm⟩
  · cases read

end Csv

/-! ### Tables -/

namespace Table

/-- **A written header and written rows are read as the table they make**, when every row is as
wide as the header and no byte order mark seems to stand in front. -/
theorem ofCsv_written {header : List (List Char)} {rows : List (List (List Char))}
    (named : header ≠ []) (fits : ∀ row ∈ rows, row.length = header.length)
    (noMark : ∀ first ∈ header.head?, first.head? ≠ some '\uFEFF') :
    ofCsv (encode ((header :: rows).flatMap Csv.writeRecord))
      = .ok ⟨header.map String.ofList,
          rows.map (·.map fun field => Cell.detect (String.ofList field))⟩ := by
  have wide : ∀ row ∈ rows, row ≠ [] := by
    rintro _ member rfl
    exact named (List.length_eq_zero_iff.1 (fits [] member).symm)
  obtain ⟨first, records, isSplit, isHeader, areRows⟩ :=
    List.map_eq_cons_iff.1 (Csv.readRecords_written named wide noMark)
  rw [ofCsv_eq isSplit, Csv.texts_encoded isHeader]
  show (records.mapM (Csv.cells (header.map String.ofList).length) >>= _) = _
  rw [Csv.mapM_cells areRows fun row member => by rw [fits row member, List.length_map]]
  rfl

/-- The names under which columns are written, one by one. -/
theorem writtenColumns_eq (table : Table) (rename : Option HeaderMapping) :
    table.writtenColumns rename = table.columns.map fun name =>
      match rename.bind (·.get? name) with
      | some (some target) => target
      | _ => name := by
  cases rename with
  | none => simp [writtenColumns]
  | some mapping =>
    refine List.map_congr_left fun name _ => ?_
    rw [HeaderMapping.rename, Option.bind_some]
    rcases mapping.get? name with _ | _ | target <;> rfl

/-- **A written table is read back**, its columns renamed and its cells detected in their texts. -/
theorem ofCsv_toCsv {table : Table} (rectangular : table.Rectangular) (named : table.columns ≠ [])
    (rename : Option HeaderMapping)
    (noMark : ∀ first ∈ (table.writtenColumns rename).head?, first.toList.head? ≠ some '\uFEFF') :
    ofCsv (encode (table.toCsv rename).toList)
      = .ok ⟨table.writtenColumns rename,
          table.rows.map (·.map fun cell => Cell.detect cell.render)⟩ := by
  have width : (table.writtenColumns rename).length = table.columns.length := by
    rw [writtenColumns_eq, List.length_map]
  have read := @ofCsv_written ((table.writtenColumns rename).map String.toList)
    (table.rows.map fun row => row.map fun cell => cell.render.toList) ?_ ?_ ?_
  · simpa [toCsv, Function.comp_def] using read
  · intro empty
    rw [List.map_eq_nil_iff, writtenColumns_eq, List.map_eq_nil_iff] at empty
    exact named empty
  · intro row member
    obtain ⟨cells, isRow, rfl⟩ := List.mem_map.1 member
    rw [List.length_map, List.length_map, width, rectangular cells isRow]
  · intro first isFirst
    rw [List.head?_map] at isFirst
    obtain ⟨name, isName, rfl⟩ := Option.map_eq_some_iff.1 isFirst
    exact noMark name isName

/-- The cells of a table that was read were detected. -/
theorem detected_of_ofCsv {bytes : Bytes} {table : Table} (read : ofCsv bytes = .ok table)
    {row : List Cell} (isRow : row ∈ table.rows) {cell : Cell} (member : cell ∈ row) :
    ∃ field, cell = Cell.detect field := by
  cases found : Csv.readRecords bytes with
  | nil =>
    unfold ofCsv at read
    rw [found] at read
    cases read
    cases isRow
  | cons header records =>
    rw [ofCsv_eq found] at read
    obtain ⟨columns, _, went⟩ := bind_eq_ok.1 read
    obtain ⟨rows, areRows, same⟩ := bind_eq_ok.1 went
    cases same
    obtain ⟨record, _, made⟩ := exists_of_mapM areRows isRow
    exact Csv.detected_of_cells made member

end Table

/-- **Writing and reading comma-separated text are inverse up to detection.** A table with one
cell per column in each row is written, its columns renamed by a mapping or not, and read back:
the columns have the names they are mapped to, or their own, and each cell is what its text is
detected to be. A table that was itself read comes back as it is. The one proviso is that the
first name written does not start with what would be taken for a byte order mark. -/
theorem csv_round_trip :
    (∀ (table : Table) (rename : Option HeaderMapping), table.Rectangular → table.columns ≠ [] →
      (∀ first ∈ (table.writtenColumns rename).head?, first.toList.head? ≠ some '\uFEFF') →
      Table.ofCsv (encode (table.toCsv rename).toList) = .ok
        { columns := table.columns.map fun name =>
            match rename.bind (·.get? name) with
            | some (some target) => target
            | _ => name
          rows := table.rows.map (·.map fun cell => Cell.detect cell.render) }) ∧
    (∀ (bytes : Bytes) (table : Table), Table.ofCsv bytes = .ok table → table.columns ≠ [] →
      (∀ first ∈ table.columns.head?, first.toList.head? ≠ some '\uFEFF') →
      Table.ofCsv (encode table.toCsv.toList) = .ok table) := by
  refine ⟨fun table rename rectangular named noMark => ?_, fun bytes table read named noMark => ?_⟩
  · rw [← Table.writtenColumns_eq]
    exact Table.ofCsv_toCsv rectangular named rename noMark
  · -- Every cell was detected once already, so detection changes none.
    refine (Table.ofCsv_toCsv (Table.rectangular_ofCsv read) named none noMark).trans ?_
    have kept : ∀ row ∈ table.rows, row.map (fun cell => Cell.detect cell.render) = row := by
      intro row isRow
      refine (List.map_congr_left fun cell member => ?_).trans (List.map_id row)
      obtain ⟨field, rfl⟩ := Table.detected_of_ofCsv read isRow member
      exact Cell.detect_render field
    have rows : table.rows.map (·.map fun cell => Cell.detect cell.render) = table.rows :=
      (List.map_congr_left kept).trans (List.map_id table.rows)
    rw [rows]
    rfl

/-- A column with an empty cell, which is a line of its own, a cell that needs quotes and one that
comes back as a number. -/
theorem csv_round_trip_quoted :
    let table : Table := ⟨["id"], [[.empty], [.text "a,\"b\"\r\n"], [.text " 7 "]]⟩
    let mapping : HeaderMapping := Dictionary.empty.insert "id" (some "Handle")
    let back : Table := ⟨["Handle"], table.rows.map (·.map fun cell => Cell.detect cell.render)⟩
    table.Rectangular ∧
    Table.ofCsv (encode (table.toCsv (some mapping)).toList) = .ok back ∧
    Table.ofCsv (encode back.toCsv.toList) = .ok back := by
  intro table mapping back
  have rectangular : table.Rectangular := by
    intro row member
    simp only [table, List.mem_cons, List.not_mem_nil, or_false] at member
    rcases member with rfl | rfl | rfl <;> rfl
  have written : table.writtenColumns (some mapping) = ["Handle"] := by
    simp [Table.writtenColumns, HeaderMapping.rename, table, mapping]
  have first := csv_round_trip.1 table (some mapping) rectangular (by simp [table]) (by
    rw [written]
    decide)
  rw [← Table.writtenColumns_eq, written] at first
  exact ⟨rectangular, first, csv_round_trip.2 _ back first (by simp [back]) (by decide)⟩

end ColumnCalc
