/-
**Archives.**

An archive holds parts under names; of several parts with one name the last one counts.
-/

import ColumnCalc.Text.Utf8

namespace ColumnCalc

open Text (Bytes)

/-- A file within an archive. -/
structure Part where
  name : Bytes
  content : Bytes
  deriving DecidableEq, Repr

/-- The parts of an archive, in order. -/
structure Archive where
  parts : List Part
  deriving DecidableEq, Repr

/-- The content of the part with a name. -/
def Archive.part? (archive : Archive) (name : String) : Option Bytes :=
  (archive.parts.reverse.find? (·.name == Text.Utf8.encode name.toList)).map Part.content

end ColumnCalc
