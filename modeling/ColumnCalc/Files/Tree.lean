/-
**Trees of files.**

A file tree says what is at each place below one directory, the working directory. Paths are read
from there: empty names and single dots stay where they are, two dots go one step up. Every step
needs a directory to start from.

Main statements: `find?_put` describes a change through the look-up, and the operations that only
look leave the tree as it is by their types.
-/

import ColumnCalc.Files.Access

namespace ColumnCalc

open Text (Bytes)

/-- What is at a place. -/
inductive Entry where
  | file (content : Bytes)
  | directory
  deriving DecidableEq, Repr

/-- A place below the working directory: the names on the way there, last first. -/
abbrev Place := List String

/-- Entries by place. -/
structure FileTree where
  entries : List (Place × Entry) := []
  deriving Repr

namespace FileTree

/-- The tree without entries. -/
def empty : FileTree := {}

/-- What is at a place; the working directory is always there. -/
def find? (tree : FileTree) (place : Place) : Option Entry :=
  if place = [] then some .directory else tree.entries.lookup place

/-- Entries with the one at a place set. -/
def putEntry (place : Place) (entry : Entry) : List (Place × Entry) → List (Place × Entry)
  | [] => [(place, entry)]
  | first :: rest =>
    if first.1 = place then (place, entry) :: rest else first :: putEntry place entry rest

/-- Sets what is at a place. -/
def put (tree : FileTree) (place : Place) (entry : Entry) : FileTree :=
  ⟨putEntry place entry tree.entries⟩

theorem lookup_putEntry (place other : Place) (entry : Entry) (entries : List (Place × Entry)) :
    (putEntry place entry entries).lookup other =
      if other = place then some entry else entries.lookup other := by
  induction entries with
  | nil =>
    by_cases same : other = place
    · simp [putEntry, same]
    · have missed : (other == place) = false := by simpa using same
      simp [putEntry, List.lookup_cons, same, missed]
  | cons first rest hypothesis =>
    obtain ⟨key, value⟩ := first
    simp only [putEntry]
    split
    · rename_i equal
      subst equal
      by_cases same : other = key
      · simp [same]
      · have missed : (other == key) = false := by simpa using same
        simp [List.lookup_cons, same, missed]
    · rename_i different
      by_cases same : other = key
      · subst same
        simp [different]
      · have missed : (other == key) = false := by simpa using same
        simp [List.lookup_cons, missed, hypothesis]

/-- A change is seen at its own place and nowhere else. -/
theorem find?_put (tree : FileTree) {place : Place} (other : Place) (entry : Entry)
    (below : place ≠ []) :
    (tree.put place entry).find? other = if other = place then some entry else tree.find? other := by
  by_cases root : other = []
  · have different : other ≠ place := fun same => below (same ▸ root)
    simp [find?, root, Ne.symm below]
  · simp [find?, put, root, lookup_putEntry]

/-- The most bytes that a name may have. -/
def nameBound : Nat := 255

/-- Goes one step from a directory. -/
def step (place : Place) (name : String) : Except FileFault Place :=
  if name = "" ∨ name = "." then .ok place
  else if name = ".." then
    match place with
    | [] => .error .missing
    | _ :: outer => .ok outer
  else if nameBound < name.utf8ByteSize then .error .refused
  else .ok (name :: place)

/-- Goes on from a place, name by name. -/
def walk (tree : FileTree) (place : Place) : List String → Except FileFault Place
  | [] => .ok place
  | name :: rest =>
    match tree.find? place with
    | some .directory => do tree.walk (← step place name) rest
    | some (.file _) => .error .refused
    | none => .error .missing

/-- The most bytes that a path may have. -/
def pathBound : Nat := 4095

/-- The names of a path from the working directory on. -/
def namesFrom (path : Path) : Except FileFault (List String) :=
  if path.text.toList.contains '\x00' || pathBound < path.text.utf8ByteSize then .error .refused
  else if path.text.isEmpty || path.text.toList.head? = some '/' then .error .missing
  else .ok path.names

/-- The place of a path, whether or not something is there. -/
def place (tree : FileTree) (path : Path) : Except FileFault Place := do
  tree.walk [] (← namesFrom path)

/-- The content of a file. -/
def contentOf (tree : FileTree) (path : Path) : Except FileFault Bytes := do
  match tree.find? (← tree.place path) with
  | some (.file content) => .ok content
  | some .directory => .error .refused
  | none => .error .missing

/-- Puts a content in the place of what a file held. -/
def writeContent (tree : FileTree) (path : Path) (content : Bytes) : Except FileFault FileTree := do
  let place ← tree.place path
  match tree.find? place with
  | some .directory => .error .refused
  | _ => .ok (tree.put place (.file content))

/-- Makes the directories on the way from a place on. What is made in front of a fault stays. -/
def makeFrom (tree : FileTree) (place : Place) : List String → FileTree × Except FileFault Unit
  | [] => (tree, .ok ())
  | name :: rest =>
    match step place name with
    | .error fault => (tree, .error fault)
    | .ok place =>
      match tree.find? place with
      | some .directory => tree.makeFrom place rest
      | some (.file _) => (tree, .error .refused)
      | none => (tree.put place .directory).makeFrom place rest

/-- Makes a directory and those that it lies in. -/
def makeDirectory (tree : FileTree) (path : Path) : FileTree × Except FileFault Unit :=
  if path.text.isEmpty then (tree, .ok ())
  else
    match namesFrom path with
    | .error fault => (tree, .error fault)
    | .ok names => tree.makeFrom [] names

/-- The names within a directory. -/
def namesIn (tree : FileTree) (path : Path) : Except FileFault (List String) := do
  let place ← tree.place path
  match tree.find? place with
  | some .directory =>
    .ok <| tree.entries.filterMap fun (inner, _) =>
      match inner with
      | name :: outer => if outer = place then some name else none
      | [] => none
  | some (.file _) => .error .refused
  | none => .error .missing

end FileTree

/-- Programs on files run on a tree. -/
instance : FileAccess (StateM FileTree) where
  contentOf path := do return (← get).contentOf path
  writeContent path content := do
    match (← get).writeContent path content with
    | .ok tree =>
      set tree
      return .ok ()
    | .error fault => return .error fault
  makeDirectory path := do
    let (tree, result) := (← get).makeDirectory path
    set tree
    return result
  namesIn path := do return (← get).namesIn path

end ColumnCalc
