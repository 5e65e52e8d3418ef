/-
**Templates as JSON.**

A template is an object with the members `name`, `header_mapping` and `formulas`; the last two may
be absent, none of the three may be repeated, and other members are passed over. An array of these
values in this order is taken as well. Of the members of a mapping with one key the last one counts.
-/

import ColumnCalc.Json.Printer
import ColumnCalc.Json.Reader
import ColumnCalc.Template.Basic

namespace ColumnCalc

/-- A dictionary as an object. -/
def Dictionary.toJson {α : Type} (value : α → Json) (dictionary : Dictionary α) : Json :=
  .object (dictionary.entries.map fun (key, content) => (some key, value content))

/-- The dictionary of an object whose values can all be taken. -/
def Dictionary.ofJson? {α : Type} (value? : Json → Option α) : Json → Option (Dictionary α)
  | .object members => do
    let entries ← members.mapM fun (key, content) => do return (← key, ← value? content)
    return .ofList entries
  | _ => none

namespace HeaderMapping

/-- The name that a header is mapped to, or null. -/
def targetToJson : Option String → Json
  | some target => .string (some target)
  | none => .null

def targetOfJson? : Json → Option (Option String)
  | .string (some target) => some (some target)
  | .null => some none
  | _ => none

/-- A header mapping as an object. -/
def toJson (mapping : HeaderMapping) : Json :=
  Dictionary.toJson targetToJson mapping

/-- The header mapping of an object. -/
def ofJson? (json : Json) : Option HeaderMapping :=
  Dictionary.ofJson? targetOfJson? json

end HeaderMapping

namespace Template

/-- The text of a JSON string. -/
def textOfJson? : Json → Option String
  | .string text => text
  | _ => none

/-- A template as an object. -/
def toJson (template : Template) : Json :=
  .object
    [(some "name", .string (some template.name)),
      (some "header_mapping", template.headerMapping.toJson),
      (some "formulas", template.formulas.toJson fun text => .string (some text))]

/-- The template of its values; the last two may be absent. -/
def ofValues? (name : Json) (headerMapping formulas : Option Json) : Option Template := do
  return {
    name := ← textOfJson? name
    headerMapping := ← (headerMapping.map HeaderMapping.ofJson?).getD (some .empty)
    formulas := ← (formulas.map (Dictionary.ofJson? textOfJson?)).getD (some .empty) }

/-- The value of a member that may be absent but not repeated. -/
def member? (members : List (Json.StringText × Json)) (key : String) : Option (Option Json) :=
  match members.filter fun member => member.1 = some key with
  | [] => some none
  | [(_, value)] => some (some value)
  | _ => none

/-- The template that a JSON value is. -/
def ofJson? : Json → Option Template
  | .object members => do
    guard (members.all fun member => member.1.isSome)
    ofValues? (← ← member? members "name") (← member? members "header_mapping")
      (← member? members "formulas")
  | .array [name] => ofValues? name none none
  | .array [name, headerMapping] => ofValues? name (some headerMapping) none
  | .array [name, headerMapping, formulas] => ofValues? name (some headerMapping) (some formulas)
  | _ => none

/-- A template as the text of its file. -/
def print (template : Template) : List Char := template.toJson.print

/-- The template that the text of a file is. -/
def read? (text : List Char) : Option Template :=
  Json.read? text >>= ofJson?

end Template

end ColumnCalc
