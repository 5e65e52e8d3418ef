/-
**Paths.**

A path is kept as it is written. Slashes divide it into names; `Path.child` puts one more name
behind it.
-/

namespace ColumnCalc

/-- A path as it is written. -/
structure Path where
  text : String
  deriving DecidableEq, Repr, Inhabited

namespace Path

/-- The pieces between slashes; there is one more of them than there are slashes. -/
def pieces : List Char → List (List Char)
  | [] => [[]]
  | c :: rest =>
    if c = '/' then [] :: pieces rest
    else
      match pieces rest with
      | [] => [[c]]
      | first :: more => (c :: first) :: more

/-- The names of a path, empty ones included. -/
def names (path : Path) : List String :=
  (pieces path.text.toList).map String.ofList

/-- What a name within a directory is reached by. -/
def child (path : Path) (name : String) : Path :=
  if path.text.isEmpty || path.text.toList.getLast? = some '/' then ⟨path.text ++ name⟩
  else ⟨path.text ++ "/" ++ name⟩

/-- The last name of a path, if it says something. -/
def lastName? (path : Path) : Option String :=
  ((path.names.filter fun name => name ≠ "" ∧ name ≠ ".").getLast?).filter (· ≠ "..")

/-- What follows the last dot of the last name, if something stands in front of the dot. -/
def fileType? (path : Path) : Option String := do
  let reversed := (← path.lastName?).toList.reverse
  let type := reversed.takeWhile (· ≠ '.')
  match reversed.dropWhile (· ≠ '.') with
  | _ :: _ :: _ => some (String.ofList type.reverse)
  | _ => none

/-- The path's file is a workbook by its name, in whichever case that is written. -/
def isWorkbook (path : Path) : Bool :=
  match path.fileType? with
  | some type => type.toList.map Char.toLower = "xlsx".toList
  | none => false

end Path

end ColumnCalc
