/-
**What one event does to the reading of a worksheet.**

One equation for each kind of event. Later proofs take a step by these and do not open the reader.
-/

import ColumnCalc.Proofs.Failure
import ColumnCalc.Workbook.Worksheet

namespace ColumnCalc.Workbook.SheetReading

open Xml (Event Tag)

variable {strings : Array String} {reading : SheetReading} {tag : Tag} {name : Text.Bytes}

theorem step_row (isRow : SheetElement.ofName tag.name = .row) :
    reading.step strings (.start tag) = statedRow tag >>= fun stated =>
      .ok { reading with position := ⟨stated.getD reading.position.row, 0⟩ } := by
  simp only [step, start, isRow]
  rfl

theorem step_cell (isCell : SheetElement.ofName tag.name = .cell) :
    reading.step strings (.start tag) = statedPosition tag >>= fun stated =>
      attributeText tag "t" >>= fun kind =>
        .ok { reading with
          position := stated.getD reading.position
          kind := CellKind.ofName kind
          value := none } := by
  simp only [step, start, isCell]
  rfl

theorem step_value (isValue : SheetElement.ofName tag.name = .value) :
    reading.step strings (.start tag) = .ok { reading with inValue := true } := by
  simp only [step, start, isValue]

theorem step_start_other (isOther : SheetElement.ofName tag.name = .other) :
    reading.step strings (.start tag) = .ok reading := by
  simp only [step, start, isOther]

theorem step_single_cell (isCell : SheetElement.ofName tag.name = .cell) :
    reading.step strings (.single tag) = statedPosition tag >>= fun stated =>
      .ok { reading with
        position :=
          ⟨reading.position.row, (stated.map Position.column).getD reading.position.column + 1⟩ } := by
  simp only [step, single, isCell]
  rfl

theorem step_single_other (notCell : SheetElement.ofName tag.name ≠ .cell) :
    reading.step strings (.single tag) = .ok reading := by
  simp only [step, single]

theorem step_close_row (isRow : SheetElement.ofName name = .row) :
    reading.step strings (.close name)
      = .ok { reading with position := ⟨reading.position.row + 1, reading.position.column⟩ } := by
  simp only [step, close, isRow]

theorem step_close_cell (isCell : SheetElement.ofName name = .cell) :
    reading.step strings (.close name)
      = readCell strings reading.kind reading.value >>= fun cell =>
          .ok { reading with
            position := ⟨reading.position.row, reading.position.column + 1⟩
            value := none
            sheet := reading.sheet.place reading.position cell } := by
  simp only [step, close, isCell]
  rfl

theorem step_close_value (isValue : SheetElement.ofName name = .value) :
    reading.step strings (.close name) = .ok { reading with inValue := false } := by
  simp only [step, close, isValue]

theorem step_close_other (isOther : SheetElement.ofName name = .other) :
    reading.step strings (.close name) = .ok reading := by
  simp only [step, close, isOther]

theorem step_text (inValue : reading.inValue = true) (content : Text.Bytes) :
    reading.step strings (.text content) = textOf content >>= fun text =>
      .ok { reading with value := some (reading.value.getD "" ++ text) } := by
  simp only [step, inValue, if_true]
  rfl

theorem step_text_outside (outside : reading.inValue = false) (content : Text.Bytes) :
    reading.step strings (.text content) = .ok reading := by
  simp only [step, outside, Bool.false_eq_true, if_false]

theorem step_other : reading.step strings .other = .ok reading := rfl

end ColumnCalc.Workbook.SheetReading
