/-
**What elements hold.**

What stands in an element is a row of segments: elements with a text in them, and whatever a reader
passes over. In a worksheet the reader gathers the texts of elements of values (`Gathers`), and
where a segment ends it is as it was but for the text.

* `gathers_segments` — the texts are gathered, one after another;
* `foldlM_textCell`, `foldlM_sharedCell`, `foldlM_numberCell` — what a cell is read as.
-/

import ColumnCalc.Proofs.Workbook.Layout
import ColumnCalc.Proofs.Workbook.Steps
import ColumnCalc.Proofs.Xml.Escaping
import ColumnCalc.Proofs.Xml.Pieces

namespace ColumnCalc.Workbook

open Text (Bytes)
open Text.Utf8 (encode encode_eq_nil_iff mem_encode_iff)
open Xml (Event Piece WrittenTag Escaped IsGap)

/-! ### Segments -/

/-- **An element with a text in it, as it is written.** -/
structure TextElement where
  tag : WrittenTag
  raw : List Char
  text : List Char
  /-- White space in the closing tag. -/
  trailing : Bytes := []
  escaped : Escaped raw text
  isGap : IsGap trailing := by decide

namespace TextElement

/-- What stands between the tags; nothing is no text. -/
def content (element : TextElement) : List Piece :=
  if nonempty : element.raw = [] then []
  else
    [.text (encode element.raw) (fun nothing => nonempty (encode_eq_nil_iff.1 nothing))
      fun opens => element.escaped.noTag ((mem_encode_iff (by decide) element.raw).1 opens)]

def pieces (element : TextElement) : List Piece :=
  .start element.tag ::
    (element.content ++ [.close element.tag.name element.trailing element.tag.isName element.isGap])

theorem events_content (element : TextElement) :
    element.content.map Piece.event
      = if element.text = [] then [] else [.text (encode element.raw)] := by
  simp only [← element.escaped.eq_nil_iff, content]
  split <;> rfl

theorem events_pieces (element : TextElement) :
    element.pieces.map Piece.event = .start element.tag.tag ::
      ((if element.text = [] then [] else [.text (encode element.raw)])
        ++ [.close element.tag.name]) := by
  rw [pieces, List.map_cons, List.map_append, events_content]
  rfl

/-- The text that stands between the tags. -/
theorem textOf_encode (element : TextElement) :
    textOf (encode element.raw) = .ok (String.ofList element.text) := by
  rw [textOf, Xml.text_of_escaped element.escaped]

end TextElement

/-- **A segment**: a piece that stands alone, or an element with a text in it. -/
inductive Segment where
  | alone (piece : Piece)
  | element (written : TextElement)

namespace Segment

def pieces : Segment → List Piece
  | alone piece => [piece]
  | element written => written.pieces

/-- The text that a segment holds. -/
def text : Segment → List Char
  | alone _ => []
  | element written => written.text

end Segment

/-- An element with a text in it and no attributes. -/
def elementOf (name text : String) (isName : Xml.IsName (Xml.ascii name)) : Segment :=
  .element ⟨.bare name isName, Xml.escape text.toList, text.toList, [],
    Xml.escaped_escape text.toList, Xml.isGap_nil⟩

/-! ### Names -/

theorem isName_row : Xml.IsName (Xml.ascii "row") := by decide

theorem isName_c : Xml.IsName (Xml.ascii "c") := by decide

theorem isName_v : Xml.IsName (Xml.ascii "v") := by decide

theorem isName_t : Xml.IsName (Xml.ascii "t") := by decide

theorem isName_r : Xml.IsName (Xml.ascii "r") := by decide

theorem isName_is : Xml.IsName (Xml.ascii "is") := by decide

theorem isName_si : Xml.IsName (Xml.ascii "si") := by decide

theorem isName_sst : Xml.IsName (Xml.ascii "sst") := by decide

/-! ### Worksheets -/

/-- Events that the reader of a worksheet passes over where it reads no value. -/
def SheetElement.passes : Event → Bool
  | .start tag => SheetElement.ofName tag.name = .other
  | .single tag => SheetElement.ofName tag.name ≠ .cell
  | .close name => SheetElement.ofName name = .other
  | .text _ => true
  | .other => true

/-- What may stand in a cell: elements of values, and what is passed over. -/
def Segment.InCell : Segment → Prop
  | alone piece => SheetElement.passes piece.event = true
  | element written => SheetElement.ofName written.tag.name = .value

instance : DecidablePred Segment.InCell
  | .alone _ => inferInstanceAs (Decidable (_ = _))
  | .element _ => inferInstanceAs (Decidable (_ = _))

section Gather

variable {strings : Array String} {reading : SheetReading}

theorem step_passed {event : Event} (passes : SheetElement.passes event = true)
    (outside : reading.inValue = false) : reading.step strings event = .ok reading := by
  cases event with
  | start tag => exact SheetReading.step_start_other (of_decide_eq_true passes)
  | single tag => exact SheetReading.step_single_other (of_decide_eq_true passes)
  | close name => exact SheetReading.step_close_other (of_decide_eq_true passes)
  | text content => exact SheetReading.step_text_outside outside content
  | other => rfl

/-- **The events add a text to the value** and change nothing else. No value at all counts as the
empty text. -/
def Gathers (strings : Array String) (events : List Event) (text : String) : Prop :=
  ∀ reading : SheetReading, reading.inValue = false → ∃ value,
    events.foldlM (SheetReading.step strings) reading = .ok { reading with value } ∧
      value.getD "" = reading.value.getD "" ++ text

theorem Gathers.nil : Gathers strings [] "" := fun reading _ =>
  ⟨reading.value, rfl, (String.append_empty).symm⟩

theorem Gathers.append {first second : List Event} {text further : String}
    (isFirst : Gathers strings first text) (isSecond : Gathers strings second further) :
    Gathers strings (first ++ second) (text ++ further) := by
  intro reading outside
  obtain ⟨value, went, gathered⟩ := isFirst reading outside
  obtain ⟨whole, wentOn, gatheredAll⟩ := isSecond { reading with value } outside
  refine ⟨whole, ?_, ?_⟩
  · rw [foldlM_append_of_ok went]
    exact wentOn
  · rw [gatheredAll, gathered, String.append_assoc]

theorem gathers_passed {event : Event} (passes : SheetElement.passes event = true) :
    Gathers strings [event] "" := by
  intro reading outside
  exact ⟨reading.value, foldlM_cons_of_ok (step_passed passes outside) [],
    (String.append_empty).symm⟩

/-- **An element of a value adds its text.** -/
theorem gathers_element {element : TextElement}
    (isValue : SheetElement.ofName element.tag.name = .value) :
    Gathers strings (element.pieces.map Piece.event) (String.ofList element.text) := by
  intro reading outside
  have opened : reading.step strings (.start element.tag.tag)
      = .ok { reading with inValue := true } := SheetReading.step_value isValue
  have closed : ∀ value, ({ reading with inValue := true, value } : SheetReading).step strings
      (.close element.tag.name) = .ok { reading with value } := fun value => by
    rw [SheetReading.step_close_value isValue]
    simp only [← outside]
  rw [element.events_pieces, foldlM_cons_of_ok opened]
  by_cases nothing : element.text = []
  · refine ⟨reading.value, ?_, ?_⟩
    · rw [if_pos nothing]
      exact foldlM_cons_of_ok (closed reading.value) []
    · rw [nothing]
      exact (String.append_empty).symm
  · refine ⟨some (reading.value.getD "" ++ String.ofList element.text), ?_, rfl⟩
    have added : ({ reading with inValue := true } : SheetReading).step strings
        (.text (encode element.raw)) = .ok { reading with
          inValue := true, value := some (reading.value.getD "" ++ String.ofList element.text) } := by
      rw [SheetReading.step_text rfl, element.textOf_encode]
      rfl
    rw [if_neg nothing, List.singleton_append, foldlM_cons_of_ok added]
    exact foldlM_cons_of_ok (closed _) []

/-- **The texts are gathered**, one after another. -/
theorem gathers_segments {segments : List Segment} (inCell : ∀ segment ∈ segments, segment.InCell) :
    Gathers strings (segments.flatMap Segment.pieces |>.map Piece.event)
      (String.ofList (segments.flatMap Segment.text)) := by
  induction segments with
  | nil => exact .nil
  | cons segment segments ih =>
    have first : Gathers strings (segment.pieces.map Piece.event) (String.ofList segment.text) := by
      have fits := inCell segment (.head _)
      cases segment with
      | alone piece => exact gathers_passed fits
      | element written => exact gathers_element fits
    rw [List.flatMap_cons, List.flatMap_cons, List.map_append, String.ofList_append]
    exact first.append (ih fun other member => inCell other (.tail _ member))

end Gather

/-! ### Cells -/

section Cell

variable {strings : Array String} {value : Option String} {text : String}

/-- A gathered text that is not empty is the value. -/
theorem eq_some_of_gathered (gathered : value.getD "" = text) (nonempty : text ≠ "") :
    value = some text := by
  cases value with
  | none => exact absurd gathered.symm nonempty
  | some value => exact congrArg some gathered

/-- The cell of a text; no value is as blank as an empty one. -/
theorem place_of_gathered (gathered : value.getD "" = text) (sheet : Sheet) (position : Position) :
    ∃ cell, readCell strings .text value = .ok cell ∧
      sheet.place position cell = sheet.place position (.text text) := by
  cases value with
  | none =>
    have blank : (Cell.text text).isBlank = true := by
      rw [← gathered]
      decide
    exact ⟨.empty, rfl, by rw [Sheet.place_blank rfl, Sheet.place_blank blank]⟩
  | some value => exact ⟨.text value, rfl, by rw [← gathered]; rfl⟩

/-- The cell of a number. -/
theorem readCell_number {number : Float} (isNumber : Cell.detect text = .number number) :
    readCell strings .general (some text) = .ok (.number number) := by
  simp only [readCell, isNumber]

/-- The cell of the number of a shared string. -/
theorem readCell_shared {number : Nat} {shared : String}
    (points : readWhole? strings.size (Text.trim text.toList) = some number)
    (found : strings[number]? = some shared) :
    readCell strings .shared (some text) = .ok (.text shared) := by
  simp only [readCell, points, Option.bind_eq_bind, Option.bind_some, found]

/-- A text that a number is read from is not empty. -/
theorem nonempty_of_readWhole {bound number : Nat}
    (points : readWhole? bound (Text.trim text.toList) = some number) : text ≠ "" := by
  rintro rfl
  cases points

/-- What is read of a cell when it ends: the cell is put in its place and the next column is that
of what follows. -/
def SheetReading.behindCell (reading : SheetReading) (position : Position) (kind : CellKind)
    (cell : Cell) : SheetReading :=
  { reading with
    position := ⟨position.row, position.column + 1⟩
    kind
    value := none
    sheet := reading.sheet.place position cell }

/-- The events of a cell. -/
def cellEvents (tag : WrittenTag) (inside : List Event) : List Event :=
  .start tag.tag :: (inside ++ [.close tag.name])

variable {reading : SheetReading} {tag : WrittenTag} {inside : List Event}
  {stated : Option Position} {kind : Option String}

/-- **A cell is read** from the text that is gathered in it. -/
theorem foldlM_cell (isCell : tag.name = Xml.ascii "c") (gathers : Gathers strings inside text)
    (states : SheetReading.statedPosition tag.tag = .ok stated)
    (isKind : attributeText tag.tag "t" = .ok kind) (outside : reading.inValue = false) :
    ∃ value, value.getD "" = text ∧
      (cellEvents tag inside).foldlM (SheetReading.step strings) reading
        = readCell strings (.ofName kind) value >>= fun cell =>
            .ok (reading.behindCell (stated.getD reading.position) (.ofName kind) cell) := by
  have named : SheetElement.ofName tag.name = .cell := by
    rw [isCell]
    decide
  have opened : reading.step strings (.start tag.tag) = .ok { reading with
      position := stated.getD reading.position, kind := .ofName kind, value := none } := by
    rw [SheetReading.step_cell named, states, isKind]
    rfl
  obtain ⟨value, went, gathered⟩ := gathers { reading with
    position := stated.getD reading.position, kind := .ofName kind, value := none } outside
  refine ⟨value, gathered, ?_⟩
  rw [cellEvents, foldlM_cons_of_ok opened, foldlM_append_of_ok went, List.foldlM_cons,
    SheetReading.step_close_cell named]
  cases readCell strings (.ofName kind) value <;> rfl

/-- **A cell of a text** is put in its place. -/
theorem foldlM_textCell (isCell : tag.name = Xml.ascii "c")
    (gathers : Gathers strings inside text)
    (states : SheetReading.statedPosition tag.tag = .ok stated)
    (isKind : attributeText tag.tag "t" = .ok kind) (isText : CellKind.ofName kind = .text)
    (outside : reading.inValue = false) :
    (cellEvents tag inside).foldlM (SheetReading.step strings) reading
      = .ok (reading.behindCell (stated.getD reading.position) .text (.text text)) := by
  obtain ⟨value, gathered, went⟩ := foldlM_cell isCell gathers states isKind outside
  obtain ⟨cell, read, same⟩ := @place_of_gathered strings value text gathered reading.sheet
    (stated.getD reading.position)
  rw [went, isText, read]
  show Except.ok (reading.behindCell _ _ cell) = _
  rw [SheetReading.behindCell, same]
  rfl

/-- **A cell of the number of a shared string** holds that string. -/
theorem foldlM_sharedCell (isCell : tag.name = Xml.ascii "c")
    (gathers : Gathers strings inside text)
    (states : SheetReading.statedPosition tag.tag = .ok stated)
    (isKind : attributeText tag.tag "t" = .ok kind) (isShared : CellKind.ofName kind = .shared)
    {number : Nat} {shared : String}
    (points : readWhole? strings.size (Text.trim text.toList) = some number)
    (found : strings[number]? = some shared) (outside : reading.inValue = false) :
    (cellEvents tag inside).foldlM (SheetReading.step strings) reading
      = .ok (reading.behindCell (stated.getD reading.position) .shared (.text shared)) := by
  obtain ⟨value, gathered, went⟩ := foldlM_cell isCell gathers states isKind outside
  rw [went, eq_some_of_gathered gathered (nonempty_of_readWhole points), isShared,
    readCell_shared points found]
  rfl

/-- **A cell of a number** holds that number. -/
theorem foldlM_numberCell (isCell : tag.name = Xml.ascii "c")
    (gathers : Gathers strings inside text)
    (states : SheetReading.statedPosition tag.tag = .ok stated)
    (isKind : attributeText tag.tag "t" = .ok kind) (isGeneral : CellKind.ofName kind = .general)
    {number : Float} (isNumber : Cell.detect text = .number number)
    (outside : reading.inValue = false) :
    (cellEvents tag inside).foldlM (SheetReading.step strings) reading
      = .ok (reading.behindCell (stated.getD reading.position) .general (.number number)) := by
  have nonempty : text ≠ "" := by
    rintro rfl
    cases isNumber
  obtain ⟨value, gathered, went⟩ := foldlM_cell isCell gathers states isKind outside
  rw [went, eq_some_of_gathered gathered nonempty, isGeneral, readCell_number isNumber]
  rfl

end Cell

end ColumnCalc.Workbook
