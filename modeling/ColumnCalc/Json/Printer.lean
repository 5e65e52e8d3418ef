/-
**JSON values, written.**

Every member and every item stands on a line of its own, two spaces deeper than what it is part of.
-/

import ColumnCalc.Json.Value

namespace ColumnCalc.Json

/-- The start of a new line at a depth. -/
def lineBreak (depth : Nat) : List Char :=
  '\n' :: List.replicate (2 * depth) ' '

mutual

/-- A value whose members or items stand at a depth. -/
def printAt (depth : Nat) : Json → List Char
  | null => "null".toList
  | bool true => "true".toList
  | bool false => "false".toList
  | number literal => literal.toList
  | string text => printText text
  | array [] => "[]".toList
  | array (first :: rest) =>
    '[' :: (lineBreak depth ++ printAt (depth + 1) first ++ printItems depth rest)
  | object [] => ['\x7b', '\x7d']
  | object ((key, value) :: rest) =>
    '\x7b' :: (lineBreak depth ++ printText key ++ ": ".toList ++ printAt (depth + 1) value
      ++ printMembers depth rest)

/-- The items behind the first one, and the end of their array. -/
def printItems (depth : Nat) : List Json → List Char
  | [] => lineBreak (depth - 1) ++ [']']
  | item :: rest => ',' :: (lineBreak depth ++ printAt (depth + 1) item ++ printItems depth rest)

/-- The members behind the first one, and the end of their object. -/
def printMembers (depth : Nat) : List (StringText × Json) → List Char
  | [] => lineBreak (depth - 1) ++ ['\x7d']
  | (key, value) :: rest =>
    ',' :: (lineBreak depth ++ printText key ++ ": ".toList ++ printAt (depth + 1) value
      ++ printMembers depth rest)

end

/-- A value as a text. -/
def print (value : Json) : List Char := printAt 1 value

end ColumnCalc.Json
