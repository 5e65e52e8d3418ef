/-
**Tables as comma-separated text.**

The first record names the columns and every later one is a row; all records have the same number
of fields. Reading detects each cell by itself. Writing may rename columns.
-/

import ColumnCalc.Csv.Record
import ColumnCalc.Header.Mapping

namespace ColumnCalc

open Text (Bytes)

namespace Csv

/-- The first field that is not well-formed UTF-8, and the length of its valid prefix. -/
def encodingFault? (fields : List Bytes) : Option (Nat × Nat) :=
  (fields.zipIdx).findSome? fun (field, index) =>
    if (Text.Utf8.text? field).isNone then some (index, Text.Utf8.validLength field) else none

/-- The texts of a record's fields. -/
def texts (record : Record) : Except TableError (List String) :=
  match encodingFault? record.fields with
  | some (field, index) =>
    let place := record.position
    .error (.csvEncoding place.record place.line field place.byte index)
  | none => .ok (record.fields.map fun field => String.ofList (Text.Utf8.decode field).1)

/-- The cells of a record that has to have so many fields. -/
def cells (expected : Nat) (record : Record) : Except TableError (List Cell) :=
  let place := record.position
  if record.fields.length = expected then do
    return (← texts record).map Cell.detect
  else
    .error (.csvFieldCount place.record place.line place.byte record.fields.length expected)

end Csv

namespace Table

/-- Reads a table from comma-separated text. -/
def ofCsv (bytes : Bytes) : Except TableError Table :=
  match Csv.readRecords bytes with
  | [] => .ok empty
  | header :: records => do
    let columns ← Csv.texts header
    (ofColumns columns).pushEach (Csv.cells columns.length) records

/-- The names under which the columns are written. -/
def writtenColumns (table : Table) (rename : Option HeaderMapping) : List String :=
  match rename with
  | some mapping => table.columns.map mapping.rename
  | none => table.columns

/-- Writes the table as comma-separated text, its columns renamed by a mapping. -/
def toCsv (table : Table) (rename : Option HeaderMapping := none) : String :=
  let header := (table.writtenColumns rename).map String.toList
  let rows := table.rows.map fun row => row.map fun cell => cell.render.toList
  String.ofList ((header :: rows).flatMap Csv.writeRecord)

end Table

end ColumnCalc
