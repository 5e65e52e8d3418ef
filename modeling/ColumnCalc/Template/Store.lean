/-
**Template stores.**

A store keeps templates as files of one directory, each under its name with `.json` behind it. A
name is valid if it is a name within a directory, so a template is never kept anywhere else.
-/

import ColumnCalc.Files.Access
import ColumnCalc.Template.Json

namespace ColumnCalc

/-- Why a template cannot be kept or given back. -/
inductive TemplateError where
  | notFound (name : String)
  | invalidName (name : String)
  /-- The file or the directory cannot be used. -/
  | inaccessible (path : Path)
  | malformed (path : Path)
  deriving DecidableEq, Repr

def TemplateError.message : TemplateError → String
  | .notFound name => "template `" ++ name ++ "` not found"
  | .invalidName name => "`" ++ name ++ "` is not a valid template name"
  | .inaccessible path => "failed to access `" ++ path.text ++ "`"
  | .malformed path => "`" ++ path.text ++ "` is not a valid template"

/-- Templates in a directory. -/
structure TemplateStore where
  directory : Path
  deriving DecidableEq, Repr

namespace TemplateStore

/-- A name that can stand within a directory and means nothing else there. -/
def isValidName (name : String) : Bool :=
  name ≠ "" && name ≠ "." && name ≠ ".." &&
    name.toList.all fun c => c ≠ '/' && c ≠ '\\' && c ≠ '\x00'

/-- What is put behind a name. -/
def suffix : List Char := ".json".toList

/-- The name of a template's file. -/
def fileName (name : String) : String :=
  String.ofList (name.toList ++ suffix)

/-- The template's name of a file. -/
def templateName? (fileName : String) : Option String :=
  let characters := fileName.toList
  if suffix.isSuffixOf characters then
    some (String.ofList (characters.take (characters.length - suffix.length)))
  else none

/-- A template's name is found again in the name of its file. -/
@[simp] theorem templateName_fileName (name : String) : templateName? (fileName name) = some name := by
  simp [templateName?, fileName, List.suffix_append]

/-- Where a template is kept. -/
def path (store : TemplateStore) (name : String) : Except TemplateError Path :=
  if isValidName name then .ok (store.directory.child (fileName name))
  else .error (.invalidName name)

variable {m : Type → Type} [Monad m] [FileAccess m]

/-- Keeps a template and tells where. -/
def save (store : TemplateStore) (template : Template) : m (Except TemplateError Path) := do
  match store.path template.name with
  | .error error => return .error error
  | .ok path =>
    match ← FileAccess.makeDirectory store.directory with
    | .error _ => return .error (.inaccessible store.directory)
    | .ok () =>
      match ← FileAccess.writeContent path (Text.Utf8.encode template.print) with
      | .error _ => return .error (.inaccessible path)
      | .ok () => return .ok path

/-- The template of a file's content. -/
def ofContent (path : Path) (content : Text.Bytes) : Except TemplateError Template :=
  match Text.Utf8.text? content with
  | none => .error (.inaccessible path)
  | some text =>
    match Template.read? text with
    | none => .error (.malformed path)
    | some template => .ok template

/-- Gives a template back. -/
def load (store : TemplateStore) (name : String) : m (Except TemplateError Template) := do
  match store.path name with
  | .error error => return .error error
  | .ok path =>
    match ← FileAccess.contentOf path with
    | .error .missing => return .error (.notFound name)
    | .error .refused => return .error (.inaccessible path)
    | .ok content => return ofContent path content

/-- The names of the kept templates, ascending. -/
def list (store : TemplateStore) : m (Except TemplateError (List String)) := do
  match ← FileAccess.namesIn store.directory with
  | .error .missing => return .ok []
  | .error .refused => return .error (.inaccessible store.directory)
  | .ok names => return .ok ((names.filterMap templateName?).mergeSort fun a b => a ≤ b)

end TemplateStore

end ColumnCalc
