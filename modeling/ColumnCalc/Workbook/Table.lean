/-
**Tables out of workbooks.**

The table of a workbook is its first sheet. The workbook part names that sheet by a relationship and
the relationships say where its part is.
-/

import ColumnCalc.Archive.Format
import ColumnCalc.Workbook.SharedStrings
import ColumnCalc.Workbook.Worksheet

namespace ColumnCalc

namespace Workbook

/-- The part that lists the sheets. -/
def workbookPart : String := "xl/workbook.xml"

/-- The part that says where the sheets are. -/
def relationshipsPart : String := "xl/_rels/workbook.xml.rels"

/-- The part with the shared strings. -/
def sharedStringsPart : String := "xl/sharedStrings.xml"

/-- Where the first sheet is unless the relationships say otherwise. -/
def usualSheetPart : String := "xl/worksheets/sheet1.xml"

/-- A part that has to be there. -/
def requiredPart (archive : Archive) (name : String) : Except TableError Xml.Document :=
  match archive.part? name with
  | some content => .ok (.ofBytes content)
  | none => .error (.missingPart name)

/-- The tag that an event opens, a single tag included. -/
def openedTag? : Xml.Event → Option Xml.Tag
  | .start tag => some tag
  | .single tag => some tag
  | _ => none

/-- The relationship of a sheet's tag; the inner option is empty if it names none. -/
def sheetRelationship (event : Xml.Event) : Except TableError (Option (Option String)) :=
  match openedTag? event with
  | some tag =>
    if tag.name = Xml.ascii "sheet" then (attributeText tag "r:id").map some else .ok none
  | none => .ok none

/-- What a relationship's attributes say. -/
structure Relationship where
  /-- It is the one that is looked for. -/
  isWanted : Bool := false
  target : Option String := none

/-- Reads an attribute of a relationship. -/
def Relationship.step (id : String) (relationship : Relationship) (pair : Xml.Attribute) :
    Except TableError Relationship :=
  if pair.key = Xml.ascii "Id" then do
    return { relationship with isWanted := (← textOf pair.value) == id }
  else if pair.key = Xml.ascii "Target" then do
    return { relationship with target := some (← textOf pair.value) }
  else .ok relationship

/-- The part that a target names: an absolute path, or one relative to the workbook's directory. -/
def partOfTarget (target : String) : String :=
  match target.toList with
  | '/' :: rest => String.ofList rest
  | _ => "xl/" ++ target

/-- The part that an event relates an identifier to. -/
def relatedPart (id : String) (event : Xml.Event) : Except TableError (Option String) :=
  match openedTag? event with
  | some tag =>
    if tag.name = Xml.ascii "Relationship" then do
      let relationship ← tag.attributes.foldlM (Relationship.step id) {}
      return if relationship.isWanted then relationship.target.map partOfTarget else none
    else .ok none
  | none => .ok none

/-- The part of the first sheet. -/
def firstSheetPart (archive : Archive) : Except TableError String := do
  match (← findEvent sheetRelationship (← requiredPart archive workbookPart)).join with
  | none => throw .noSheets
  | some id =>
    match archive.part? relationshipsPart with
    | none => return usualSheetPart
    | some content => return (← findEvent (relatedPart id) (.ofBytes content)).getD usualSheetPart

/-- The shared strings; a workbook without any text has no part for them. -/
def stringsOf (archive : Archive) : Except TableError (Array String) :=
  match archive.part? sharedStringsPart with
  | some content => sharedStrings (.ofBytes content)
  | none => .ok #[]

/-- The first sheet of a workbook. -/
def firstSheet (archive : Archive) : Except TableError Sheet := do
  let strings ← stringsOf archive
  let part ← firstSheetPart archive
  worksheet strings (← requiredPart archive part)

end Workbook

namespace Table

/-- The table of a workbook. -/
def ofWorkbook (archive : Archive) : Except TableError Table :=
  Workbook.firstSheet archive >>= Workbook.Sheet.toTable

/-- Reads a table from the file of a workbook. -/
def ofXlsx (bytes : Text.Bytes) : Except TableError Table :=
  match Archive.ofBytes? bytes with
  | some archive => ofWorkbook archive
  | none => .error .archive

end Table

end ColumnCalc
