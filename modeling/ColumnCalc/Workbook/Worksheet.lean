/-
**Worksheets.**

A worksheet lists rows and, within them, cells with their values. A row or a cell says where it is
or follows the one in front of it. A cell's kind says what its value means: the number of a shared
string, a number if it reads as one, or a text. Cells that are blank are left out.
-/

import ColumnCalc.Workbook.Markup
import ColumnCalc.Workbook.Sheet

namespace ColumnCalc.Workbook

/-- The elements that matter in a worksheet. -/
inductive SheetElement where
  | row
  | cell
  | value
  | other
  deriving DecidableEq, Repr

def SheetElement.ofName (name : Text.Bytes) : SheetElement :=
  if name = Xml.ascii "row" then .row
  else if name = Xml.ascii "c" then .cell
  else if name = Xml.ascii "v" then .value
  else if name = Xml.ascii "t" then .value
  else .other

/-- What a cell's value means. -/
inductive CellKind where
  /-- A number if it reads as one, otherwise a text. -/
  | general
  /-- The number of a shared string. -/
  | shared
  /-- A text, as are truth values and errors. -/
  | text
  deriving DecidableEq, Repr

def CellKind.ofName : Option String → CellKind
  | none => .general
  | some name => if name = "s" then .shared else if name = "n" then .general else .text

/-- The cell of a value; without one it is empty. -/
def readCell (strings : Array String) (kind : CellKind) (value : Option String) :
    Except TableError Cell :=
  match value with
  | none => .ok .empty
  | some value =>
    match kind with
    | .shared =>
      match readWhole? strings.size (Text.trim value.toList) >>= (strings[·]?) with
      | some text => .ok (.text text)
      | none => .error (.sharedStringIndex value)
    | .general =>
      match Cell.detect value with
      | .number number => .ok (.number number)
      | _ => .ok (.text value)
    | .text => .ok (.text value)

/-- How far a worksheet is read. -/
structure SheetReading where
  /-- Where the next cell stands unless it says otherwise. -/
  position : Position := ⟨0, 0⟩
  /-- The kind of the cell that is being read. -/
  kind : CellKind := .general
  /-- The value of the cell that is being read. -/
  value : Option String := none
  inValue : Bool := false
  sheet : Sheet := .empty

namespace SheetReading

/-- The row that a row's tag states, if it states one. -/
def statedRow (tag : Xml.Tag) : Except TableError (Option UInt32) := do
  return (← attributeText tag "r") >>= fun text =>
    (readWhole? positionBound text.toList).map fun number => UInt32.ofNat (number - 1)

/-- The position that a cell's tag states, if it states one. -/
def statedPosition (tag : Xml.Tag) : Except TableError (Option Position) := do
  return (← attributeText tag "r") >>= fun text => Position.ofReference? text.toList

/-- Moves on to the next column. -/
def nextColumn (position : Position) : Position :=
  { position with column := position.column + 1 }

/-- Reads the start of an element. -/
def start (reading : SheetReading) (tag : Xml.Tag) : Except TableError SheetReading :=
  match SheetElement.ofName tag.name with
  | .row => do
    let row := (← statedRow tag).getD reading.position.row
    return { reading with position := ⟨row, 0⟩ }
  | .cell => do
    let position := (← statedPosition tag).getD reading.position
    let kind := CellKind.ofName (← attributeText tag "t")
    return { reading with position, kind, value := none }
  | .value => .ok { reading with inValue := true }
  | .other => .ok reading

/-- Reads an element that is a single tag. A cell without content takes its column. -/
def single (reading : SheetReading) (tag : Xml.Tag) : Except TableError SheetReading :=
  match SheetElement.ofName tag.name with
  | .cell => do
    let column := ((← statedPosition tag).map Position.column).getD reading.position.column
    return { reading with position := nextColumn { reading.position with column } }
  | _ => .ok reading

/-- Reads the end of an element. -/
def close (strings : Array String) (reading : SheetReading) (name : Text.Bytes) :
    Except TableError SheetReading :=
  match SheetElement.ofName name with
  | .row =>
    .ok { reading with position := { reading.position with row := reading.position.row + 1 } }
  | .cell => do
    let cell ← readCell strings reading.kind reading.value
    return { reading with
      position := nextColumn reading.position
      value := none
      sheet := reading.sheet.place reading.position cell }
  | .value => .ok { reading with inValue := false }
  | .other => .ok reading

/-- Reads one event of a worksheet. -/
def step (strings : Array String) (reading : SheetReading) (event : Xml.Event) :
    Except TableError SheetReading :=
  match event with
  | .start tag => reading.start tag
  | .single tag => reading.single tag
  | .close name => reading.close strings name
  | .text content =>
    if reading.inValue then do
      return { reading with value := some (reading.value.getD "" ++ (← textOf content)) }
    else .ok reading
  | .other => .ok reading

end SheetReading

/-- The sheet of a worksheet whose cells refer to shared strings. -/
def worksheet (strings : Array String) (document : Xml.Document) : Except TableError Sheet := do
  return (← foldEvents (SheetReading.step strings) {} document).sheet

end ColumnCalc.Workbook
