/-
**The parts of a workbook as markup.**

A part is read event by event. Its first fault, be it of the document or of a text that is used,
ends the reading; nothing behind it counts.
-/

import ColumnCalc.Table.Basic
import ColumnCalc.Xml.Document

namespace ColumnCalc.Workbook

open Text (Bytes)

/-- The text that a stretch of markup stands for. -/
def textOf (content : Bytes) : Except TableError String :=
  match Xml.text? content with
  | some text => .ok (String.ofList text)
  | none => .error .markup

/-- The text of a tag's attribute, if it is there. -/
def attributeText (tag : Xml.Tag) (name : String) : Except TableError (Option String) :=
  match tag.attributes.find? (·.key == Xml.ascii name) with
  | some found => (textOf found.value).map some
  | none => .ok none

/-- Folds over a document's events, up to its end. -/
def foldEvents {α : Type} (step : α → Xml.Event → Except TableError α) (start : α)
    (document : Xml.Document) : Except TableError α := do
  let final ← document.events.foldlM step start
  if document.wellFormed then return final else throw .markup

/-- The first answer that events give, if they give one. -/
def findAmong {α : Type} (answer : Xml.Event → Except TableError (Option α)) :
    List Xml.Event → Except TableError (Option α)
  | [] => .ok none
  | event :: rest => do
    match ← answer event with
    | some found => return some found
    | none => findAmong answer rest

/-- The first answer that a document's events give. Only without one is the document read to its
end. -/
def findEvent {α : Type} (answer : Xml.Event → Except TableError (Option α))
    (document : Xml.Document) : Except TableError (Option α) := do
  match ← findAmong answer document.events with
  | some found => return some found
  | none => if document.wellFormed then return none else throw .markup

end ColumnCalc.Workbook
