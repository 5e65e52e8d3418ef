/-
**Positions of cells.**

A position counts rows and columns from zero. A reference such as `B3` names one: the letters are
the column in bijective base 26 and the digits are the row, both counted from one.
-/

import ColumnCalc.Number.Whole

namespace ColumnCalc.Workbook

/-- Where a cell stands; rows and columns are counted from zero in 32 bits. -/
structure Position where
  row : UInt32
  column : UInt32
  deriving DecidableEq, Repr

/-- How many rows and columns can be told apart. -/
def positionBound : Nat := twoTo 32

/-- A capital letter's value as a digit, one for A up to twenty-six for Z. -/
def letterValue (letter : Char) : Nat :=
  letter.toNat - 'A'.toNat + 1

/-- The value of letters in bijective base 26. -/
def lettersValue (letters : List Char) : Nat :=
  letters.foldl (fun value letter => 26 * value + letterValue letter) 0

/-- A capital letter of the Latin alphabet. -/
def isCapital (c : Char) : Bool :=
  'A' ≤ c && c ≤ 'Z'

/-- The column that letters name. -/
def column? (letters : List Char) : Option UInt32 :=
  if letters.isEmpty || !letters.all isCapital then none
  else if lettersValue letters < positionBound then
    some (UInt32.ofNat (lettersValue letters - 1))
  else none

/-- The row that digits name. -/
def row? (digits : List Char) : Option UInt32 :=
  match readWhole? positionBound digits with
  | some (row + 1) => some (UInt32.ofNat row)
  | _ => none

/-- The position that a reference names. -/
def Position.ofReference? (reference : List Char) : Option Position := do
  let column ← column? (reference.takeWhile (!·.isDigit))
  let row ← row? (reference.dropWhile (!·.isDigit))
  return { row, column }

end ColumnCalc.Workbook
