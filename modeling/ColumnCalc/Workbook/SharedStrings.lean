/-
**Shared strings.**

The texts of a workbook stand in one part, and cells refer to them by number. An item's text is that
of its text elements, one after another; phonetic runs, which repeat a text in another script, are
left out.
-/

import ColumnCalc.Workbook.Markup

namespace ColumnCalc.Workbook

/-- The elements that matter among the shared strings. -/
inductive StringElement where
  | item
  | text
  | phonetic
  | other
  deriving DecidableEq, Repr

def StringElement.ofName (name : Text.Bytes) : StringElement :=
  if name = Xml.ascii "si" then .item
  else if name = Xml.ascii "t" then .text
  else if name = Xml.ascii "rPh" then .phonetic
  else .other

/-- How far the shared strings are read. -/
structure StringReading where
  /-- The finished items. -/
  items : Array String := #[]
  /-- The text of the item that is being read. -/
  current : String := ""
  inText : Bool := false
  inPhonetic : Bool := false
  deriving Repr

/-- Reads one event of the shared strings. -/
def StringReading.step (reading : StringReading) (event : Xml.Event) :
    Except TableError StringReading :=
  match event with
  | .start tag =>
    match StringElement.ofName tag.name with
    | .item => .ok { reading with current := "" }
    | .text => .ok { reading with inText := true }
    | .phonetic => .ok { reading with inPhonetic := true }
    | .other => .ok reading
  | .single tag =>
    match StringElement.ofName tag.name with
    | .item => .ok { reading with items := reading.items.push "" }
    | _ => .ok reading
  | .close name =>
    match StringElement.ofName name with
    | .item => .ok { reading with items := reading.items.push reading.current, current := "" }
    | .text => .ok { reading with inText := false }
    | .phonetic => .ok { reading with inPhonetic := false }
    | .other => .ok reading
  | .text content =>
    if reading.inText && !reading.inPhonetic then do
      return { reading with current := reading.current ++ (← textOf content) }
    else .ok reading
  | .other => .ok reading

/-- The shared strings of a document, in order. -/
def sharedStrings (document : Xml.Document) : Except TableError (Array String) := do
  return (← foldEvents StringReading.step {} document).items

end ColumnCalc.Workbook
