/-
**Which characters are letters or digits.**

A name starts with a letter and goes on with letters and digits, in the sense of the Unicode
character database. ASCII is decided without the tables: `isAlphabetic_of_ascii` and
`isAlphanumeric_of_ascii` say that there the classes are the familiar ones.
-/

import ColumnCalc.Text.LetterRanges

namespace ColumnCalc.Text

/-- The code point lies in one of the ranges. -/
def inRanges (ranges : List CodeRange) (code : Nat) : Bool :=
  ranges.any fun range => range.1 ≤ code && code ≤ range.2

/-- A letter: the Unicode property Alphabetic. -/
def isAlphabetic (c : Char) : Bool :=
  if c.toNat < 0x80 then c.isAlpha else inRanges alphabeticRanges c.toNat

/-- A digit of any script, a letter number or another number: the Unicode category N. -/
def isNumeric (c : Char) : Bool :=
  if c.toNat < 0x80 then c.isDigit else inRanges numericRanges c.toNat

/-- A letter or a number. -/
def isAlphanumeric (c : Char) : Bool :=
  isAlphabetic c || isNumeric c

theorem isAlphabetic_of_ascii {c : Char} (ascii : c.toNat < 0x80) :
    isAlphabetic c = c.isAlpha := by
  simp [isAlphabetic, ascii]

theorem isAlphanumeric_of_ascii {c : Char} (ascii : c.toNat < 0x80) :
    isAlphanumeric c = c.isAlphanum := by
  simp [isAlphanumeric, isAlphabetic, isNumeric, ascii, Char.isAlphanum]

end ColumnCalc.Text
