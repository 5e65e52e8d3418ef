/-
**Cells that refer to shared strings.**

The shared strings are the entries of their part, in order: none is lost, whether something stands
in it or not, and no text runs over into the next one. So a cell with the number of an entry is read
as the text of that entry, and stays in the sheet unless it is blank or another cell is put in its
place. A cell with a number that no entry has ends the reading, whatever follows.

* `foldlM_within`, `foldlM_beyond` — a cell whose entry is there, and one whose entry is not.
* `cell?_of_reaches` — what is in a sheet stays there until a cell ends in its place.
* `shared_indices_resolved` — the strings of a workbook, and every cell that refers to them.
* `blank_text_left_out` — a text of white space is not seen in the sheet.
-/

import ColumnCalc.Proofs.Workbook.Cells
import ColumnCalc.Proofs.Workbook.RichText

namespace ColumnCalc.Workbook

open Shortest (digitsOf)
open Text (Bytes)
open Xml (Event Piece WrittenTag Spells)

/-! ### Cells -/

/-- **A cell that refers to a shared string, as it is written**: its kind is `s`, and its value is
the number of an entry, perhaps with white space around it. -/
structure SharedCell where
  tag : WrittenTag
  /-- What stands between the tags. -/
  inside : List Segment
  /-- The position that the cell states, if it states one. -/
  stated : Option Position
  number : Nat
  isCell : tag.name = Xml.ascii "c"
  isShared : Has tag "t" "s"
  states : SheetReading.statedPosition tag.tag = .ok stated
  inCell : ∀ one ∈ inside, one.InCell
  denotes : Denotes (Text.trim (inside.flatMap Segment.text)) number

namespace SharedCell

/-- The text of the value. -/
def value (cell : SharedCell) : String :=
  String.ofList (cell.inside.flatMap Segment.text)

def events (cell : SharedCell) : List Event :=
  cellEvents cell.tag ((cell.inside.flatMap Segment.pieces).map Piece.event)

/-- The cell, with nothing but its name in the closing tag. -/
def pieces (cell : SharedCell) : List Piece :=
  .start cell.tag :: (cell.inside.flatMap Segment.pieces ++ [.closing cell.tag])

theorem events_pieces (cell : SharedCell) : cell.pieces.map Piece.event = cell.events := by
  rw [pieces, List.map_cons, List.map_append]
  rfl

/-- Where the cell stands. -/
def position (cell : SharedCell) (reading : SheetReading) : Position :=
  cell.stated.getD reading.position

variable {strings : Array String} {cell : SharedCell} {reading : SheetReading} {text : String}

theorem readWhole?_value (bound : Nat) :
    readWhole? bound (Text.trim cell.value.toList)
      = if cell.number < bound then some cell.number else none := by
  rw [value, String.toList_ofList]
  exact readWhole?_of_denotes cell.denotes bound

/-- **A cell whose entry is there** is read as the text of the entry. -/
theorem foldlM_within (found : strings[cell.number]? = some text)
    (outside : reading.inValue = false) :
    cell.events.foldlM (SheetReading.step strings) reading
      = .ok (reading.behindCell (cell.position reading) .shared (.text text)) := by
  have points : readWhole? strings.size (Text.trim cell.value.toList) = some cell.number := by
    rw [readWhole?_value, if_pos (Array.getElem?_eq_some_iff.1 found).1]
  exact foldlM_sharedCell cell.isCell (gathers_segments cell.inCell) cell.states
    (attributeText_of_has cell.isShared) rfl points found outside

/-- The value of a cell is not empty. -/
theorem value_ne_empty : cell.value ≠ "" := by
  intro nothing
  have nobody : Text.trim (cell.inside.flatMap Segment.text) = [] := by
    rw [← String.toList_ofList (l := cell.inside.flatMap Segment.text)]
    exact congrArg (fun value => Text.trim (String.toList value)) nothing
  obtain ⟨digits, spelled, nonempty, -, -⟩ := nobody ▸ cell.denotes
  rcases spelled with none | sign
  · exact nonempty none.symm
  · cases sign

/-- **A cell whose entry is not there** is a fault. -/
theorem foldlM_beyond (beyond : strings.size ≤ cell.number) (outside : reading.inValue = false) :
    cell.events.foldlM (SheetReading.step strings) reading
      = .error (.sharedStringIndex cell.value) := by
  obtain ⟨value, gathered, went⟩ := foldlM_cell cell.isCell (gathers_segments cell.inCell)
    cell.states (attributeText_of_has cell.isShared) outside
  have isValue : value = some cell.value := eq_some_of_gathered gathered value_ne_empty
  have fault : readCell strings (.ofName (some "s")) value
      = .error (.sharedStringIndex cell.value) := by
    rw [isValue]
    simp only [readCell, CellKind.ofName, if_true, readWhole?_value, if_neg (Nat.not_lt.2 beyond),
      Option.bind_eq_bind, Option.bind_none]
  rw [events, went, fault]
  rfl

end SharedCell

/-! ### What stays in a sheet -/

section Stays

variable {strings : Array String} {front back : List Event} {before after : SheetReading}
  {position : Position}

/-- **A cell ends in a position** behind some events. -/
def EndsCellAt (strings : Array String) (front back : List Event) (position : Position) : Prop :=
  ∃ middle name reading, middle ++ [.close name] <+: back ∧ SheetElement.ofName name = .cell ∧
    Reaches strings (front ++ middle) reading ∧ reading.position = position

/-- An event leaves a position as it is, unless a cell ends there. -/
theorem cell?_of_step {event : Event} (went : before.step strings event = .ok after)
    (elsewhere : ∀ name, event = .close name → SheetElement.ofName name = .cell →
      before.position ≠ position) :
    after.sheet.cell? position = before.sheet.cell? position := by
  cases event with
  | start tag => rw [sheet_of_start went]
  | single tag => rw [sheet_of_single went]
  | text content => rw [sheet_of_text went]
  | other =>
    cases went
    rfl
  | close name =>
    cases kind : SheetElement.ofName name with
    | row =>
      rw [SheetReading.step_close_row kind] at went
      cases went
      rfl
    | cell =>
      rw [SheetReading.step_close_cell kind] at went
      obtain ⟨cell, -, same⟩ := bind_eq_ok.1 went
      cases same
      exact Sheet.cell?_place_of_ne (elsewhere name rfl kind).symm cell
    | value =>
      rw [SheetReading.step_close_value kind] at went
      cases went
      rfl
    | other =>
      rw [SheetReading.step_close_other kind] at went
      cases went
      rfl

/-- **What is in a sheet stays there**, unless a cell ends in its place. -/
theorem cell?_of_reaches (reached : Reaches strings front before)
    (reachedEnd : Reaches strings (front ++ back) after)
    (untouched : ¬EndsCellAt strings front back position) :
    after.sheet.cell? position = before.sheet.cell? position := by
  induction back using List.reverseRecOn generalizing after with
  | nil =>
    rw [List.append_nil] at reachedEnd
    cases reached.symm.trans reachedEnd
    rfl
  | append_singleton back event ih =>
    rw [← List.append_assoc] at reachedEnd
    obtain ⟨last, reachedLast, went⟩ := reaches_concat.1 reachedEnd
    have stayed := ih reachedLast fun ⟨middle, name, reading, among, rest⟩ =>
      untouched ⟨middle, name, reading, among.trans (List.prefix_append _ _), rest⟩
    rw [← stayed]
    refine cell?_of_step went fun name isClose isCell here => untouched ?_
    exact ⟨back, name, last, isClose ▸ List.prefix_rfl, isCell, reachedLast, here⟩

end Stays

/-! ### Workbooks -/

/-- The texts of the entries: of each one what is not phonetic. -/
def entryTexts (entries : List (List RichPart)) : List String :=
  entries.map fun content => String.ofList (content.flatMap RichPart.shown)

/-- **A workbook whose first sheet holds a cell that refers to a shared string.** In front of it the
sheet is read without a fault. -/
structure HoldsCell (archive : Archive) (strings : Array String) (cell : SharedCell) where
  name : String
  sheet : Bytes
  front : List Event
  back : List Event
  /-- What is read in front of the cell. -/
  reading : SheetReading
  isSheet : firstSheetPart archive = .ok name
  found : archive.part? name = some sheet
  events : (Xml.Document.ofBytes sheet).events = front ++ (cell.events ++ back)
  reached : Reaches strings front reading
  outside : reading.inValue = false

namespace HoldsCell

variable {archive : Archive} {strings : Array String} {cell : SharedCell} {text : String}

/-- Where the cell stands. -/
def position (holds : HoldsCell archive strings cell) : Position :=
  cell.position holds.reading

/-- Another cell ends in the position, further on. -/
def Replaced (holds : HoldsCell archive strings cell) : Prop :=
  EndsCellAt strings (holds.front ++ cell.events) holds.back holds.position

/-- What is read behind a cell whose entry is there. -/
theorem reaches_within (holds : HoldsCell archive strings cell)
    (found : strings[cell.number]? = some text) :
    Reaches strings (holds.front ++ cell.events)
      (holds.reading.behindCell holds.position .shared (.text text)) :=
  (foldlM_append_of_ok holds.reached _).trans (SharedCell.foldlM_within found holds.outside)

/-- **A text that is not blank is in the sheet.** -/
theorem cell?_within (holds : HoldsCell archive strings cell)
    (areStrings : stringsOf archive = .ok strings) (found : strings[cell.number]? = some text)
    (content : (Cell.text text).isBlank = false) (unreplaced : ¬holds.Replaced) {sheet : Sheet}
    (read : firstSheet archive = .ok sheet) :
    sheet.cell? holds.position = some (.text text) := by
  rw [firstSheet_of_part holds.isSheet holds.found, areStrings] at read
  obtain ⟨last, reachedEnd, -, rfl⟩ := worksheet_eq_ok_iff.1 read
  rw [holds.events, ← List.append_assoc] at reachedEnd
  rw [cell?_of_reaches (holds.reaches_within found) reachedEnd unreplaced, SheetReading.behindCell,
    Sheet.cell?_place _ _ _ content, if_pos rfl]

/-- **A number that no entry has ends the reading of the workbook.** -/
theorem ofWorkbook_beyond (holds : HoldsCell archive strings cell)
    (areStrings : stringsOf archive = .ok strings) (beyond : strings.size ≤ cell.number) :
    Table.ofWorkbook archive = .error (.sharedStringIndex cell.value) := by
  have fault : (Xml.Document.ofBytes holds.sheet).events.foldlM (SheetReading.step strings) {}
      = .error (.sharedStringIndex cell.value) := by
    rw [holds.events, foldlM_append_of_ok holds.reached, List.foldlM_append,
      SharedCell.foldlM_beyond beyond holds.outside]
    rfl
  have sheet : firstSheet archive = .error (.sharedStringIndex cell.value) := by
    rw [firstSheet_of_part holds.isSheet holds.found, areStrings]
    show worksheet strings (.ofBytes holds.sheet) = _
    rw [worksheet, foldEvents, fault]
    rfl
  rw [Table.ofWorkbook, sheet]
  rfl

end HoldsCell

/-- **The numbers of shared strings resolve to the right texts.** However entries are written, the
strings that are read are the texts of the entries, one for each, in order. A cell with the number of
an entry is read as exactly its text, and that is what the sheet holds in its position, unless the
text is blank or another cell is put there. A cell with a number that no entry has makes the whole
workbook invalid. -/
theorem shared_indices_resolved {archive : Archive} {part : Bytes} {items : List StringPart}
    {entries : List (List RichPart)} (isPart : archive.part? sharedStringsPart = some part)
    (spells : Spells part (items.flatMap StringPart.pieces))
    (areItems : ∀ item ∈ items, item.IsValid)
    (areEntries : items.filterMap StringPart.content? = entries) :
    sharedStrings (.ofBytes part) = .ok (entryTexts entries).toArray ∧
    ∀ (cell : SharedCell) (holds : HoldsCell archive (entryTexts entries).toArray cell),
      (∀ content, entries[cell.number]? = some content →
        let text := String.ofList (content.flatMap RichPart.shown)
        let behind := holds.reading.behindCell holds.position .shared (.text text)
        Reaches (entryTexts entries).toArray (holds.front ++ cell.events) behind ∧
        ((Cell.text text).isBlank = true → behind.sheet = holds.reading.sheet) ∧
        ((Cell.text text).isBlank = false → ¬holds.Replaced → ∀ sheet,
          firstSheet archive = .ok sheet → sheet.cell? holds.position = some (.text text))) ∧
      (entries.length ≤ cell.number →
        Table.ofWorkbook archive = .error (.sharedStringIndex cell.value)) := by
  have areTexts : items.filterMap StringPart.text? = entryTexts entries := by
    rw [entryTexts, ← areEntries, List.map_filterMap]
    rfl
  have read : sharedStrings (.ofBytes part) = .ok (entryTexts entries).toArray := by
    rw [sharedStrings_of_spells spells areItems, areTexts]
  have areStrings : stringsOf archive = .ok (entryTexts entries).toArray := by
    rw [stringsOf, isPart]
    exact read
  refine ⟨read, fun cell holds => ⟨fun content isEntry => ?_, fun beyond => ?_⟩⟩
  · have found : (entryTexts entries).toArray[cell.number]?
        = some (String.ofList (content.flatMap RichPart.shown)) := by
      rw [List.getElem?_toArray, entryTexts, List.getElem?_map, isEntry]
      rfl
    exact ⟨holds.reaches_within found, fun blank => Sheet.place_blank blank _,
      fun solid unreplaced sheet isSheet =>
        holds.cell?_within areStrings found solid unreplaced isSheet⟩
  · refine holds.ofWorkbook_beyond areStrings ?_
    rw [List.size_toArray, entryTexts, List.length_map]
    exact beyond

/-! ### A workbook -/

section Chairs

/-- An entry without content, one of two runs and a reading, and one of white space, as
`<si/><si><r><t>Desk </t></r><rPh><t>d</t></rPh><r><t>&amp; Chair</t></r></si><si><t> </t></si>`. -/
def chairItems : List StringPart :=
  [.passed (.start (.bare "sst" isName_sst)),
    .single (.bare "si" isName_si),
    .item (.bare "si" isName_si)
      (runOf "Desk " ++ [.phonetic (.bare "rPh" (by decide)) [elementOf "t" "d" isName_t] []
        Xml.isGap_nil] ++ runOf "& Chair") [] Xml.isGap_nil,
    .item (.bare "si" isName_si) [.segment (elementOf "t" " " isName_t)] [] Xml.isGap_nil,
    .passed (.closing (.bare "sst" isName_sst))]

theorem statedPosition_chair : SheetReading.statedPosition
    (WrittenTag.one "c" "t" "s" isName_c isName_t).tag = .ok none := by
  decide +kernel

/-- A cell with the number of an entry. -/
def chairCell (number : Nat) : SharedCell where
  tag := .one "c" "t" "s" isName_c isName_t
  inside := [elementOf "v" (String.ofList (digitsOf number)) isName_v]
  stated := none
  number
  isCell := rfl
  isShared := ⟨_, .head _, rfl, _, Xml.escaped_escape _, rfl⟩
  states := statedPosition_chair
  inCell := fun one member => by
    cases List.mem_singleton.1 member
    exact (by decide : SheetElement.ofName (Xml.ascii "v") = .value)
  denotes := by
    have solid : ∀ c ∈ digitsOf number, Text.isBlank c = false := fun c member =>
      (Shortest.isPositional_digitsOf number).notBlank member
    rw [List.flatMap_singleton]
    show Denotes (Text.trim (String.toList (String.ofList (digitsOf number)))) number
    rw [String.toList_ofList, Text.trim_eq_self solid]
    exact denotes_digitsOf number

/-- A worksheet that is one cell. -/
def chairSheet (number : Nat) : List Piece :=
  .start (.bare "row" isName_row) ::
    ((chairCell number).pieces ++ [.closing (.bare "row" isName_row)])

/-- A workbook with these entries and this sheet. -/
def chairArchive (sheet : Bytes) : Archive :=
  ⟨[⟨Xml.ascii workbookPart,
      Xml.ascii "<workbook><sheets><sheet r:id='r1'/></sheets></workbook>"⟩,
    ⟨Xml.ascii sharedStringsPart, (chairItems.flatMap StringPart.pieces).flatMap Piece.bytes⟩,
    ⟨Xml.ascii usualSheetPart, sheet⟩]⟩

theorem firstSheetPart_chairArchive (sheet : Bytes) :
    firstSheetPart (chairArchive sheet) = .ok usualSheetPart := by
  have part : (chairArchive sheet).part? workbookPart = (chairArchive []).part? workbookPart := rfl
  have none : (chairArchive sheet).part? relationshipsPart
      = (chairArchive []).part? relationshipsPart := rfl
  have usual : firstSheetPart (chairArchive []) = .ok usualSheetPart := by decide +kernel
  rw [← usual]
  simp only [firstSheetPart, requiredPart, part, none]

/-- In front of the cell there is the tag of its row. -/
theorem reaches_row (strings : Array String) :
    Reaches strings [.start (WrittenTag.bare "row" isName_row).tag] {} := by
  have isRow : SheetElement.ofName (WrittenTag.bare "row" isName_row).tag.name = .row := by decide
  have stated : SheetReading.statedRow (WrittenTag.bare "row" isName_row).tag = .ok none := by
    decide +kernel
  refine foldlM_cons_of_ok (Eq.trans (SheetReading.step_row isRow) ?_) []
  rw [stated]
  rfl

def chairHolds {number : Nat} {sheet : Bytes} {strings : Array String}
    (spells : Spells sheet (chairSheet number)) :
    HoldsCell (chairArchive sheet) strings (chairCell number) where
  name := usualSheetPart
  sheet
  front := [.start (WrittenTag.bare "row" isName_row).tag]
  back := [.close (Xml.ascii "row")]
  reading := {}
  isSheet := firstSheetPart_chairArchive sheet
  found := rfl
  events := by
    rw [Xml.ofBytes_of_spells spells]
    simp only [chairSheet, List.map_cons, List.map_append, SharedCell.events_pieces,
      List.map_nil, List.singleton_append]
    rfl
  reached := reaches_row strings
  outside := rfl

/-- **Entries keep their numbers**, with or without content: the second one is read without its
reading, and there is no fourth one. -/
theorem chairs_resolved :
    (∃ sheet,
      firstSheet (chairArchive (Xml.ascii "<row><c t=\"s\"><v>1</v></c></row>")) = .ok sheet ∧
      sheet.cell? ⟨0, 0⟩ = some (.text "Desk & Chair")) ∧
    Table.ofWorkbook (chairArchive (Xml.ascii "<row><c t=\"s\"><v>3</v></c></row>"))
      = .error (.sharedStringIndex "3") := by
  have resolved := fun sheet => (@shared_indices_resolved (chairArchive sheet) _ _ _ rfl
    ⟨.inl rfl, by decide +kernel, by decide +kernel⟩ (by decide : ∀ item ∈ chairItems, _) rfl).2
  constructor
  · obtain ⟨sheet, read⟩ := exists_of_isOk (by decide +kernel :
      (firstSheet (chairArchive (Xml.ascii "<row><c t=\"s\"><v>1</v></c></row>"))).isOk = true)
    have spells : Spells (Xml.ascii "<row><c t=\"s\"><v>1</v></c></row>") (chairSheet 1) :=
      ⟨.inl (by decide +kernel), by decide +kernel, by decide +kernel⟩
    refine ⟨sheet, read,
      ((resolved _ _ (chairHolds spells)).1 _ rfl).2.2 (by decide) ?_ sheet read⟩
    rintro ⟨middle, name, reading, among, isCell, -, -⟩
    have isRow : Event.close name = .close (Xml.ascii "row") :=
      List.mem_singleton.1 (among.subset (List.mem_append_right _ (.head _)))
    cases isRow
    cases isCell
  · have spells : Spells (Xml.ascii "<row><c t=\"s\"><v>3</v></c></row>") (chairSheet 3) :=
      ⟨.inl (by decide +kernel), by decide +kernel, by decide +kernel⟩
    exact (resolved _ _ (chairHolds spells)).2 (by decide)

/-- **A text of white space is not seen**: the cell that refers to it is as if it were not there. -/
theorem blank_text_left_out :
    stringsOf (chairArchive []) = .ok #["", "Desk & Chair", " "] ∧
      (firstSheet (chairArchive (Xml.ascii "<row><c t='s'><v>2</v></c></row>"))).toOption.map
        (fun sheet => (sheet.cell? ⟨0, 0⟩).isNone) = some true := by
  constructor
  · decide +kernel
  · decide +kernel

end Chairs

end ColumnCalc.Workbook
