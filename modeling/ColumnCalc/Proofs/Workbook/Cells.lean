/-
**Cells that are written and read back.**

A cell is written as an element that states its place (`WrittenCell`), and its value in one of the
forms that there are (`Form`). Between cells there may be rows and anything that is passed over
(`SheetPart`). Whatever position the reader has reached, it puts each cell in the place that the
cell states.

* `attributeText_of_has` — the text of an attribute is read back;
* `foldlM_written` — a cell is put in its place;
* `foldlM_sheetParts` — all cells are, one after another.
-/

import ColumnCalc.Proofs.Table.Detection
import ColumnCalc.Proofs.Workbook.Positions
import ColumnCalc.Proofs.Workbook.Reference
import ColumnCalc.Proofs.Workbook.Segments
import Mathlib.Data.List.Nodup

namespace ColumnCalc.Workbook

open Shortest (digitsOf)
open Text (Bytes)
open Text.Utf8 (encode)
open Xml (Event Piece WrittenTag Escaped IsGap)

/-! ### Attributes -/

section Attributes

variable {tag : WrittenTag} {key text : String}

/-- A tag has an attribute of this name with this text, however it is escaped. -/
def Has (tag : WrittenTag) (key text : String) : Prop :=
  ∃ one ∈ tag.attributes, one.key = Xml.ascii key ∧
    ∃ raw, Escaped raw text.toList ∧ one.value = encode raw

/-- A tag has no attribute of this name. -/
def Lacks (tag : WrittenTag) (key : String) : Prop :=
  ∀ one ∈ tag.attributes, one.key ≠ Xml.ascii key

/-- Names are distinct, so an attribute is found by its name. -/
theorem find?_attribute {one : Xml.WrittenAttribute} (member : one ∈ tag.attributes) :
    (tag.attributes.map Xml.WrittenAttribute.pair).find? (·.key == one.key) = some one.pair := by
  rw [List.find?_map]
  cases first : tag.attributes.find? ((·.key == one.key) ∘ Xml.WrittenAttribute.pair) with
  | none =>
    exact absurd (beq_self_eq_true one.key) (List.find?_eq_none.1 first one member)
  | some other =>
    have same : other.key = one.key := by
      simpa [Xml.WrittenAttribute.pair] using List.find?_some first
    rw [Option.map_some,
      List.inj_on_of_nodup_map tag.distinct (List.mem_of_find?_eq_some first) member same]

theorem attributeText_of_has (has : Has tag key text) :
    attributeText tag.tag key = .ok (some text) := by
  obtain ⟨one, member, isKey, raw, escaped, isValue⟩ := has
  have read : textOf one.value = .ok text := by
    rw [isValue, textOf, Xml.text_of_escaped escaped]
    exact congrArg Except.ok String.ofList_toList
  rw [attributeText, tag.attributes_tag, ← isKey, find?_attribute member]
  show (textOf one.value).map some = _
  rw [read]
  rfl

theorem attributeText_of_lacks (lacks : Lacks tag key) :
    attributeText tag.tag key = .ok none := by
  have found : (tag.attributes.map Xml.WrittenAttribute.pair).find? (·.key == Xml.ascii key)
      = none := by
    rw [List.find?_map, Option.map_eq_none_iff, List.find?_eq_none]
    intro one member
    simpa [Xml.WrittenAttribute.pair] using lacks one member
  rw [attributeText, tag.attributes_tag, found]

end Attributes

/-! ### Cells, written -/

/-- **How the value of a cell is written**: a number as a decimal, and a text as the number of a
shared string, as a plain text or as an inline string. -/
inductive Form (items : List String) (tag : WrittenTag) (text : List Char) : Cell → Prop
  | number {value : Float} (kind : Lacks tag "t" ∨ Has tag "t" "n")
      (decimal : Cell.Decimal text value) :
      Form items tag text (.number value)
  | shared {number : Nat} {content : String} (kind : Has tag "t" "s")
      (isIndex : text = digitsOf number) (found : items[number]? = some content) :
      Form items tag text (.text content)
  | text (kind : Has tag "t" "str" ∨ Has tag "t" "inlineStr") :
      Form items tag text (.text (String.ofList text))

/-- **A cell as it is written.** -/
structure WrittenCell (items : List String) where
  place : Place
  cell : Cell
  tag : WrittenTag
  /-- What stands between the tags. -/
  inside : List Segment
  /-- White space in the closing tag. -/
  trailing : Bytes := []
  isCell : tag.name = Xml.ascii "c"
  isReference : Has tag "r" (String.ofList (reference place.row place.column))
  inCell : ∀ one ∈ inside, one.InCell
  form : Form items tag (inside.flatMap Segment.text) cell
  isGap : IsGap trailing := by decide

namespace WrittenCell

variable {items : List String}

def pieces (written : WrittenCell items) : List Piece :=
  .start written.tag :: (written.inside.flatMap Segment.pieces
    ++ [.close written.tag.name written.trailing written.tag.isName written.isGap])

theorem events_pieces (written : WrittenCell items) :
    written.pieces.map Piece.event
      = cellEvents written.tag ((written.inside.flatMap Segment.pieces).map Piece.event) := by
  rw [pieces, List.map_cons, List.map_append]
  rfl

end WrittenCell

/-- What may stand between cells: rows, whatever number they state, and what is passed over. -/
def BetweenCells : Piece → Prop
  | .start tag => SheetElement.ofName tag.name = .other ∨
    SheetElement.ofName tag.name = .row ∧ (Lacks tag "r" ∨ ∃ text, Has tag "r" text)
  | .single tag => SheetElement.ofName tag.name ≠ .cell
  | .close name _ _ _ => SheetElement.ofName name = .other ∨ SheetElement.ofName name = .row
  | _ => True

/-- **A part of a worksheet**: a cell, or what stands between cells. -/
inductive SheetPart (items : List String) where
  | cell (written : WrittenCell items)
  | between (piece : Piece) (valid : BetweenCells piece)

namespace SheetPart

variable {items : List String}

def pieces : SheetPart items → List Piece
  | cell written => written.pieces
  | between piece _ => [piece]

def cell? : SheetPart items → Option (WrittenCell items)
  | cell written => some written
  | between _ _ => none

end SheetPart

/-! ### Reading a worksheet -/

section Reading

variable {items : List String} {reading : SheetReading}

/-- **However its value is written, a cell is put in its place.** -/
theorem foldlM_form {tag : WrittenTag} {inside : List Event} {text : List Char} {cell : Cell}
    {position : Position} (isCell : tag.name = Xml.ascii "c")
    (gathers : Gathers items.toArray inside (String.ofList text))
    (stated : SheetReading.statedPosition tag.tag = .ok (some position))
    (form : Form items tag text cell) (outside : reading.inValue = false) :
    ∃ kind, (cellEvents tag inside).foldlM (SheetReading.step items.toArray) reading
      = .ok (reading.behindCell position kind cell) := by
  cases form with
  | number kind decimal =>
    rcases kind with lacks | has
    · exact ⟨_, foldlM_numberCell isCell gathers stated (attributeText_of_lacks lacks) rfl
        decimal.detect_eq outside⟩
    · exact ⟨_, foldlM_numberCell isCell gathers stated (attributeText_of_has has) rfl
        decimal.detect_eq outside⟩
  | @shared number content kind isIndex found =>
    have below : number < items.toArray.size := (List.getElem?_eq_some_iff.1 found).1
    have points : readWhole? items.toArray.size (Text.trim (String.ofList text).toList)
        = some number := by
      have solid : ∀ c ∈ digitsOf number, Text.isBlank c = false := fun c member =>
        (Shortest.isPositional_digitsOf number).notBlank member
      rw [String.toList_ofList, isIndex, Text.trim_eq_self solid]
      exact readWhole?_digitsOf below
    exact ⟨_, foldlM_sharedCell isCell gathers stated (attributeText_of_has kind) rfl points
      (by rw [List.getElem?_toArray, found]) outside⟩
  | text kind =>
    rcases kind with has | has
    · exact ⟨_, foldlM_textCell isCell gathers stated (attributeText_of_has has) rfl outside⟩
    · exact ⟨_, foldlM_textCell isCell gathers stated (attributeText_of_has has) rfl outside⟩

/-- **A cell that is written is put in its place.** -/
theorem foldlM_written (written : WrittenCell items) (inSheet : written.place.row < 1048576 ∧
      written.place.column < 16384) (outside : reading.inValue = false) :
    ∃ kind, (written.pieces.map Piece.event).foldlM (SheetReading.step items.toArray) reading
      = .ok (reading.behindCell written.place.position kind written.cell) := by
  have bound : positionBound = 4294967296 := rfl
  have named : Position.ofReference? (reference written.place.row written.place.column)
      = some written.place.position :=
    ofReference?_reference (by omega) (by omega)
  have stated : SheetReading.statedPosition written.tag.tag = .ok (some written.place.position) := by
    rw [SheetReading.statedPosition, attributeText_of_has written.isReference]
    show Except.ok (Position.ofReference? (String.ofList _).toList) = _
    rw [String.toList_ofList, named]
  rw [written.events_pieces]
  exact foldlM_form written.isCell (gathers_segments written.inCell) stated written.form outside

/-- **What stands between cells** moves the reader and does nothing else. -/
theorem step_between {strings : Array String} {piece : Piece} (valid : BetweenCells piece)
    (outside : reading.inValue = false) :
    ∃ position, reading.step strings piece.event = .ok { reading with position } := by
  cases piece with
  | start tag =>
    rcases valid with other | ⟨isRow, readable⟩
    · exact ⟨reading.position, SheetReading.step_start_other other⟩
    · obtain ⟨stated, isStated⟩ : ∃ stated, SheetReading.statedRow tag.tag = .ok stated := by
        rcases readable with lacks | ⟨text, has⟩
        · rw [SheetReading.statedRow, attributeText_of_lacks lacks]
          exact ⟨_, rfl⟩
        · rw [SheetReading.statedRow, attributeText_of_has has]
          exact ⟨_, rfl⟩
      refine ⟨⟨stated.getD reading.position.row, 0⟩, ?_⟩
      rw [Piece.event, SheetReading.step_row isRow, isStated]
      rfl
  | single tag => exact ⟨reading.position, SheetReading.step_single_other valid⟩
  | close name trailing isName isGap =>
    rcases valid with other | isRow
    · exact ⟨reading.position, SheetReading.step_close_other other⟩
    · exact ⟨_, SheetReading.step_close_row isRow⟩
  | text content nonempty noTag =>
    exact ⟨reading.position, SheetReading.step_text_outside outside content⟩
  | comment | cdata | instruction => exact ⟨reading.position, rfl⟩

/-- The sheet with cells placed in it, one after another. -/
def placeAll (sheet : Sheet) (cells : List (WrittenCell items)) : Sheet :=
  cells.foldl (fun sheet written => sheet.place written.place.position written.cell) sheet

/-- **Reading a worksheet places its cells.** -/
theorem foldlM_sheetParts {parts : List (SheetPart items)}
    (inSheet : ∀ written ∈ parts.filterMap SheetPart.cell?,
      written.place.row < 1048576 ∧ written.place.column < 16384)
    (outside : reading.inValue = false) :
    ∃ final : SheetReading,
      ((parts.flatMap SheetPart.pieces).map Piece.event).foldlM (SheetReading.step items.toArray)
        reading = .ok final ∧
      final.sheet = placeAll reading.sheet (parts.filterMap SheetPart.cell?) := by
  induction parts generalizing reading with
  | nil => exact ⟨reading, rfl, rfl⟩
  | cons part parts ih =>
    rw [List.flatMap_cons, List.map_append]
    cases part with
    | cell written =>
      have isCell : (SheetPart.cell written :: parts).filterMap SheetPart.cell?
          = written :: parts.filterMap SheetPart.cell? := List.filterMap_cons_some rfl
      rw [isCell] at inSheet ⊢
      obtain ⟨kind, went⟩ := foldlM_written written (inSheet written (.head _)) outside
      obtain ⟨final, wentOn, placed⟩ := ih (fun other member => inSheet other (.tail _ member))
        (show (reading.behindCell _ kind _).inValue = false from outside)
      exact ⟨final, (foldlM_append_of_ok went _).trans wentOn, placed⟩
    | between piece valid =>
      have isNone : (SheetPart.between piece valid :: parts).filterMap SheetPart.cell?
          = parts.filterMap SheetPart.cell? := List.filterMap_cons_none rfl
      rw [isNone] at inSheet ⊢
      obtain ⟨position, went⟩ : ∃ position, reading.step items.toArray piece.event
          = .ok { reading with position } := step_between valid outside
      obtain ⟨final, wentOn, placed⟩ := ih inSheet
        (show ({ reading with position } : SheetReading).inValue = false from outside)
      exact ⟨final, (foldlM_cons_of_ok went _).trans wentOn, placed⟩

end Reading

end ColumnCalc.Workbook
