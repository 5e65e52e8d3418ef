/-
**Templates are read back from their files.**

The text of a template is a JSON object without numbers, so it is read back as that object; a
dictionary is read back entry by entry, whatever its keys are, and the three members of a template
are found under their names.

* `Dictionary.ofJson_toJson` — dictionaries, when each value is read back.
* `Template.ofJson_toJson`, `Template.read_print` — templates as values and as texts.
* `TemplateStore.ofContent_print` — the content of a template's file.
-/

import ColumnCalc.Proofs.Json.RoundTrip
import ColumnCalc.Proofs.Text.Utf8
import ColumnCalc.Template.Store

namespace ColumnCalc

open Json (Numberless)

namespace Dictionary

variable {α : Type} {value : α → Json} {value? : Json → Option α}

/-- Entries are read back one after another. -/
theorem mapM_members (reads : ∀ content, value? (value content) = some content)
    (entries : List (String × α)) :
    (entries.map fun (key, content) => ((some key, value content) : Json.StringText × Json)).mapM
      (fun (key, content) => (do return (← key, ← value? content) : Option (String × α)))
      = some entries := by
  induction entries with
  | nil => rfl
  | cons entry entries ih =>
    obtain ⟨key, content⟩ := entry
    rw [List.map_cons, List.mapM_cons, ih]
    simp [reads content]

/-- **A dictionary is read back** if each of its values is. -/
theorem ofJson_toJson (reads : ∀ content, value? (value content) = some content)
    (dictionary : Dictionary α) : ofJson? value? (dictionary.toJson value) = some dictionary := by
  show (do
    let entries ← (dictionary.entries.map fun (key, content) =>
      ((some key, value content) : Json.StringText × Json)).mapM
        (fun (key, content) => (do return (← key, ← value? content) : Option (String × α)))
    return ofList entries) = _
  rw [mapM_members reads]
  exact congrArg some (ofList_entries dictionary)

theorem numberless_toJson (plain : ∀ content, Numberless (value content))
    (dictionary : Dictionary α) : Numberless (dictionary.toJson value) := by
  refine .object fun member isMember => ?_
  obtain ⟨entry, _, rfl⟩ := List.mem_map.1 isMember
  exact plain entry.2

end Dictionary

namespace HeaderMapping

theorem targetOfJson_targetToJson (target : Option String) :
    targetOfJson? (targetToJson target) = some target := by
  cases target <;> rfl

/-- A header mapping is read back, unmapped headers included. -/
theorem ofJson_toJson (mapping : HeaderMapping) : ofJson? mapping.toJson = some mapping :=
  Dictionary.ofJson_toJson targetOfJson_targetToJson mapping

theorem numberless_toJson (mapping : HeaderMapping) : Numberless mapping.toJson := by
  refine Dictionary.numberless_toJson (fun target => ?_) mapping
  cases target with
  | none => exact .null
  | some text => exact .string _

end HeaderMapping

namespace Template

/-- **A template is read back from its JSON value.** -/
theorem ofJson_toJson (template : Template) : ofJson? template.toJson = some template := by
  have reads (text : String) : textOfJson? (.string (some text)) = some text := rfl
  have mapping := template.headerMapping.ofJson_toJson
  have formulas := Dictionary.ofJson_toJson reads template.formulas
  have members : ofJson? template.toJson = ofValues? (.string (some template.name))
      (some template.headerMapping.toJson)
      (some (template.formulas.toJson fun text => .string (some text))) := rfl
  rw [members]
  simp [ofValues?, textOfJson?, mapping, formulas]

theorem numberless_toJson (template : Template) : Numberless template.toJson := by
  refine .object fun member isMember => ?_
  simp only [List.mem_cons, List.not_mem_nil, or_false] at isMember
  obtain rfl | rfl | rfl := isMember
  · exact .string _
  · exact template.headerMapping.numberless_toJson
  · exact template.formulas.numberless_toJson fun _ => .string _

/-- **A template is read back from its text**, field for field. -/
theorem read_print (template : Template) : read? template.print = some template := by
  rw [read?, print, Json.read_print template.numberless_toJson]
  exact template.ofJson_toJson

end Template

/-- **A template is read back from the content of its file.** -/
theorem TemplateStore.ofContent_print (path : Path) (template : Template) :
    ofContent path (Text.Utf8.encode template.print) = .ok template := by
  rw [ofContent, Text.Utf8.text_encode]
  simp only [Template.read_print]

end ColumnCalc
