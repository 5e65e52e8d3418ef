/-
**Detection of cells.**

A raw field is blank, a finite number or a text (`Cell.detect_cases`). A decimal of a finite number
(`Cell.Decimal`) is detected as the number that is nearest to it, and the text that a number is
written as is a decimal of it. So detection is idempotent through the text of a cell.
-/

import ColumnCalc.Proofs.Number.Shortest
import ColumnCalc.Table.Cell

namespace ColumnCalc.Cell

theorem isFinite_of_finiteNumber {text : List Char} {value : Float}
    (found : finiteNumber? text = some value) : value.isFinite = true := by
  rw [finiteNumber?, Option.filter_eq_some_iff] at found
  exact found.2

/-- What a raw field can be. -/
theorem detect_cases (field : String) :
    detect field = empty ∨ (∃ value, value.isFinite = true ∧ detect field = number value) ∨
      detect field = text field := by
  unfold detect
  split
  · exact .inl rfl
  · split
    · rename_i found
      exact .inr (.inl ⟨_, isFinite_of_finiteNumber found, rfl⟩)
    · exact .inr (.inr rfl)

/-- **A decimal of a finite number**: a numeral without white space that the number is nearest to. -/
structure Decimal (text : List Char) (value : Float) : Prop where
  isFinite : value.isFinite = true
  nearest : readNumber? text = some value
  solid : ∀ c ∈ text, Text.isBlank c = false

/-- A decimal is detected as its number. -/
theorem Decimal.detect_eq {text : List Char} {value : Float} (decimal : Decimal text value) :
    detect (String.ofList text) = number value := by
  have trimmed : Text.trim (String.ofList text).toList = text := by
    rw [String.toList_ofList]
    exact Text.trim_eq_self decimal.solid
  have found : finiteNumber? text = some value := by
    rw [finiteNumber?, decimal.nearest, Option.filter_some, if_pos decimal.isFinite]
  unfold detect
  rw [trimmed]
  split
  · have nothing := decimal.nearest
    cases nothing
  · rw [found]

/-- **Every finite number has a decimal**: the text that it is written as. -/
theorem decimal_renderNumber {value : Float} (isFinite : value.isFinite = true) :
    Decimal (renderNumber value).toList value :=
  ⟨isFinite, readNumber_renderNumber isFinite, fun _ member => notBlank_renderNumber isFinite member⟩

/-- A finite number is detected in its text. -/
theorem detect_renderNumber {value : Float} (isFinite : value.isFinite = true) :
    detect (renderNumber value) = number value := by
  have detected := (decimal_renderNumber isFinite).detect_eq
  rwa [String.ofList_toList] at detected

/-- **Detection is idempotent**: what was detected is detected again in its text. -/
theorem detect_render (field : String) : detect (detect field).render = detect field := by
  rcases detect_cases field with isEmpty | ⟨value, isFinite, isNumber⟩ | isText
  · rw [isEmpty]
    rfl
  · rw [isNumber]
    exact detect_renderNumber isFinite
  · rw [isText]
    exact isText

end ColumnCalc.Cell
