/-
**Cells of a table.**

A cell holds a number, a text or nothing. `detect` finds out which one a raw field is; only finite
numbers are numbers.
-/

import ColumnCalc.Number.Shortest
import ColumnCalc.Text.Blank

namespace ColumnCalc

/-- One cell of a table. -/
inductive Cell where
  | number (value : Float)
  | text (content : String)
  | empty
  deriving Repr, BEq, Inhabited

namespace Cell

/-- The finite number that a text is. -/
def finiteNumber? (text : List Char) : Option Float :=
  (readNumber? text).filter Float.isFinite

/-- Reads a raw field: white space only is empty, a finite number (white space around it aside) is
a number, and anything else is kept as it stands. -/
def detect (field : String) : Cell :=
  match Text.trim field.toList with
  | [] => empty
  | trimmed =>
    match finiteNumber? trimmed with
    | some value => number value
    | none => text field

/-- The number that a formula may use. -/
def number? : Cell → Option Float
  | number value => some value
  | text _ => none
  | empty => none

/-- Nothing, or white space only. -/
def isBlank : Cell → Bool
  | number _ => false
  | text content => (Text.trim content.toList).isEmpty
  | empty => true

/-- The cell's text; an empty cell has none. -/
def render : Cell → String
  | number value => renderNumber value
  | text content => content
  | empty => ""

end Cell

end ColumnCalc
