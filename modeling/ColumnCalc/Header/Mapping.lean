/-
**Mapping headers to canonical names.**

A mapping gives for each header of a source the canonical header it stands for, or none.
`mapHeaders` suggests one, and `missingFields` finds the rows that lack a required field.
-/

import ColumnCalc.Header.Similarity
import ColumnCalc.Table.Basic

namespace ColumnCalc

/-- Source header → canonical header, or none. -/
abbrev HeaderMapping := Dictionary (Option String)

/-- The canonical headers of a product import. -/
def canonicalHeaders : List String :=
  ["Handle", "Title", "Body (HTML)", "Vendor", "Type", "Tags", "Variant SKU", "Variant Price",
    "Variant Requires Shipping", "Image Src", "Image Alt Text"]

/-- The least similarity at which a header is mapped. -/
def matchCutoff : Float := 0.6

/-- The canonical headers that the headers of a source come closest to. -/
def mapHeaders (headers : List String) : HeaderMapping :=
  Dictionary.ofList <|
    headers.map fun header => (header, closestMatch header canonicalHeaders matchCutoff)

/-- The name under which a column is written: the one it is mapped to, or its own. -/
def HeaderMapping.rename (mapping : HeaderMapping) (column : String) : String :=
  ((mapping.get? column).join).getD column

/-- The canonical fields that an import cannot do without. -/
def requiredFields : List String := ["Title", "Handle", "Variant Price"]

/-- A row without a value for a required field. -/
structure MissingField where
  /-- The row, counted from one. -/
  row : Nat
  field : String
  column : String
  deriving DecidableEq, Repr

def MissingField.message (missing : MissingField) : String :=
  "Row " ++ toString missing.row ++ ": Missing value for required field '" ++ missing.field
    ++ "' (source column: '" ++ missing.column ++ "')"

/-- The columns that a mapping sends to required fields, and these fields. -/
def requiredColumns (mapping : HeaderMapping) : List (String × String) :=
  mapping.entries.filterMap fun (column, target) =>
    match target with
    | some field => if requiredFields.contains field then some (column, field) else none
    | none => none

/-- Every row and column mapped to a required field where the column is absent or blank. -/
def missingFields (table : Table) (mapping : HeaderMapping) : List MissingField :=
  (table.rows.zipIdx 1).flatMap fun (cells, row) =>
    (requiredColumns mapping).filterMap fun (column, field) =>
      match Table.cellOf? table.columns cells column with
      | some cell => if cell.isBlank then some ⟨row, field, column⟩ else none
      | none => some ⟨row, field, column⟩

end ColumnCalc
