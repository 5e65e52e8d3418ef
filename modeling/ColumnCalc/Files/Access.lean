/-
**Access to files.**

Programs on files are written for any monad with `FileAccess`: the machine's file system and
`FileTree` alike.
-/

import ColumnCalc.Files.Path
import ColumnCalc.Text.Utf8

namespace ColumnCalc

/-- Why a file cannot be used. -/
inductive FileFault where
  /-- There is nothing at the path. -/
  | missing
  /-- There is something else in the way, or the path names nothing that can be. -/
  | refused
  deriving DecidableEq, Repr

/-- The operations on files that programs use. -/
class FileAccess (m : Type → Type) where
  /-- The content of a file. -/
  contentOf : Path → m (Except FileFault Text.Bytes)
  /-- Puts a content in the place of what a file held; makes the file if need be. -/
  writeContent : Path → Text.Bytes → m (Except FileFault Unit)
  /-- Makes a directory and those that it lies in; those that are there are left alone. -/
  makeDirectory : Path → m (Except FileFault Unit)
  /-- The names within a directory that are texts, in any order. -/
  namesIn : Path → m (Except FileFault (List String))

end ColumnCalc
