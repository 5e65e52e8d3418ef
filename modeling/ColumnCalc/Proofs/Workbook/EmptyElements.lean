/-
**Rows and cells without content.**

An element without content can be written as a single tag or as a pair of tags. For a worksheet's
reader the two are not the same: a single tag of a row does not count as a row, and a single tag of a
cell only states a column. Positions that are stated behind it make up for that. So two spellings
of a worksheet read alike if both readers stand in one place wherever a cell ends (`Aligned`).

* `documents_of_respelled` — what two spellings are read as;
* `alike_event`, `alike_rewritten` — one event, and one element that is rewritten;
* `ofWorkbook_respelled` — the tables of two workbooks;
* `aligned_of_stated` — cells that state their positions; `row_pair_differs` — one that does not.
-/

import ColumnCalc.Proofs.Workbook.Positions
import ColumnCalc.Proofs.Workbook.Segments

namespace ColumnCalc.Workbook

open Text (Bytes)
open Text.Utf8 (dropByteOrderMark)
open Xml (Event Tag WrittenTag IsGap Document)

/-! ### Two spellings -/

/-- **A row or a cell without content.** -/
structure ChildlessElement where
  tag : WrittenTag
  /-- White space in the closing tag. -/
  trailing : Bytes := []
  isRowOrCell : tag.name = Xml.ascii "row" ∨ tag.name = Xml.ascii "c"
  isGap : IsGap trailing := by decide

/-- A single tag, or a pair of tags. -/
inductive Spelling where
  | single
  | pair
  deriving DecidableEq, Repr

def Spelling.other : Spelling → Spelling
  | single => pair
  | pair => single

namespace ChildlessElement

def bytes (element : ChildlessElement) : Spelling → Bytes
  | .single => (Xml.Piece.single element.tag).bytes
  | .pair => (Xml.Piece.start element.tag).bytes
    ++ (Xml.Piece.close element.tag.name element.trailing element.tag.isName element.isGap).bytes

end ChildlessElement

/-- The events of an element without content. -/
def childlessEvents (tag : Tag) : Spelling → List Event
  | .single => [.single tag]
  | .pair => [.start tag, .close tag.name]

/-- **What two spellings of a worksheet are read as**, item by item. -/
inductive Item where
  /-- An event of both. -/
  | both (event : Event)
  /-- An element without content, spelled so in the first one and otherwise in the second one. -/
  | rewritten (tag : Tag) (spelling : Spelling)

namespace Item

def first : Item → List Event
  | both event => [event]
  | rewritten tag spelling => childlessEvents tag spelling

def second : Item → List Event
  | both event => [event]
  | rewritten tag spelling => childlessEvents tag spelling.other

end Item

/-- **Two spellings of markup**: read alike, but for some rows and cells without content. -/
inductive Respelled : List Bytes → Bytes → Bytes → List Item → Prop
  | finished {opened : List Bytes} {first second : Bytes}
      (isFirst : Xml.read opened first = .finished)
      (isSecond : Xml.read opened second = .finished) : Respelled opened first second []
  | malformed {opened : List Bytes} {first second : Bytes}
      (isFirst : Xml.read opened first = .malformed)
      (isSecond : Xml.read opened second = .malformed) : Respelled opened first second []
  | both {opened after : List Bytes} {first second first' second' : Bytes} {event : Event}
      {items : List Item} (isFirst : Xml.read opened first = .event event after first')
      (isSecond : Xml.read opened second = .event event after second')
      (rest : Respelled after first' second' items) :
      Respelled opened first second (.both event :: items)
  | rewritten {opened : List Bytes} {first second : Bytes} {items : List Item}
      (element : ChildlessElement) (spelling : Spelling)
      (rest : Respelled opened first second items) :
      Respelled opened (element.bytes spelling ++ first) (element.bytes spelling.other ++ second)
        (.rewritten element.tag.tag spelling :: items)

theorem readFrom_childless (element : ChildlessElement) (spelling : Spelling)
    (opened : List Bytes) (rest : Bytes) :
    Document.readFrom opened (element.bytes spelling ++ rest)
      = ⟨childlessEvents element.tag.tag spelling ++ (Document.readFrom opened rest).events,
          (Document.readFrom opened rest).wellFormed⟩ := by
  cases spelling with
  | single => exact Xml.readFrom_event (Xml.read_single element.tag opened rest)
  | pair =>
    rw [ChildlessElement.bytes, List.append_assoc,
      Xml.readFrom_event (Xml.read_start element.tag opened _),
      Xml.readFrom_event (Xml.read_close element.tag.isName element.isGap opened rest)]
    rfl

/-- **What two spellings are read as.** -/
theorem documents_of_respelled {opened : List Bytes} {first second : Bytes} {items : List Item}
    (respelled : Respelled opened first second items) :
    ∃ wellFormed, Document.readFrom opened first = ⟨items.flatMap Item.first, wellFormed⟩ ∧
      Document.readFrom opened second = ⟨items.flatMap Item.second, wellFormed⟩ := by
  have stopped : ∀ {opened : List Bytes} {bytes : Bytes},
      (Xml.read opened bytes = .finished → Document.readFrom opened bytes = ⟨[], true⟩) ∧
      (Xml.read opened bytes = .malformed → Document.readFrom opened bytes = ⟨[], false⟩) := by
    intro opened bytes
    rw [Document.readFrom]
    split <;> simp_all
  induction respelled with
  | finished isFirst isSecond => exact ⟨true, stopped.1 isFirst, stopped.1 isSecond⟩
  | malformed isFirst isSecond => exact ⟨false, stopped.2 isFirst, stopped.2 isSecond⟩
  | both isFirst isSecond _ ih =>
    obtain ⟨wellFormed, first, second⟩ := ih
    refine ⟨wellFormed, ?_, ?_⟩
    · rw [Xml.readFrom_event isFirst, first]
      rfl
    · rw [Xml.readFrom_event isSecond, second]
      rfl
  | rewritten element spelling _ ih =>
    obtain ⟨wellFormed, first, second⟩ := ih
    refine ⟨wellFormed, ?_, ?_⟩
    · rw [readFrom_childless, first]
      rfl
    · rw [readFrom_childless, second]
      rfl

/-! ### Written spellings -/

/-- **What two spellings of a worksheet are written as**, item by item. -/
inductive WrittenItem where
  | both (piece : Xml.Piece)
  | rewritten (element : ChildlessElement) (spelling : Spelling)

namespace WrittenItem

def first : WrittenItem → Bytes
  | both piece => piece.bytes
  | rewritten element spelling => element.bytes spelling

def second : WrittenItem → Bytes
  | both piece => piece.bytes
  | rewritten element spelling => element.bytes spelling.other

/-- What an item is read as. -/
def item : WrittenItem → Item
  | both piece => .both piece.event
  | rewritten element spelling => .rewritten element.tag.tag spelling

def isText : WrittenItem → Bool
  | both piece => piece.isText
  | rewritten _ _ => false

/-- The tags that are open behind an item. -/
def behind (opened : List Bytes) : WrittenItem → Option (List Bytes)
  | both piece => piece.behind opened
  | rewritten _ _ => some opened

/-- Every item but a text starts with an opening bracket, in either spelling. -/
theorem head?_bytes {written : WrittenItem} (noText : written.isText = false) (rest : Bytes) :
    (written.first ++ rest).head? = some 0x3C ∧ (written.second ++ rest).head? = some 0x3C := by
  cases written with
  | both piece => exact ⟨Xml.Piece.head?_bytes noText rest, Xml.Piece.head?_bytes noText rest⟩
  | rewritten element spelling => cases spelling <;> exact ⟨rfl, rfl⟩

end WrittenItem

/-- Whether items may stand in a row: closing tags match, and a text reaches up to the next tag. -/
def itemsArranged (opened : List Bytes) : List WrittenItem → Bool
  | [] => true
  | written :: rest =>
    match written.behind opened with
    | some after =>
      !(written.isText && rest.head?.any WrittenItem.isText) && itemsArranged after rest
    | none => false

/-- **Rewriting childless elements of a document gives another spelling of it.** -/
theorem respelled_of_written {written : List WrittenItem} {opened : List Bytes}
    (isArranged : itemsArranged opened written = true) :
    Respelled opened (written.flatMap WrittenItem.first) (written.flatMap WrittenItem.second)
      (written.map WrittenItem.item) := by
  induction written generalizing opened with
  | nil => exact .finished rfl rfl
  | cons one others ih =>
    rw [itemsArranged] at isArranged
    split at isArranged
    · next after fits =>
      rw [Bool.and_eq_true, Bool.not_eq_true'] at isArranged
      obtain ⟨apart, further⟩ := isArranged
      rw [List.flatMap_cons, List.flatMap_cons, List.map_cons]
      cases one with
      | rewritten element spelling =>
        cases fits
        exact .rewritten element spelling (ih further)
      | both piece =>
        have ends : piece.isText = true →
            (∀ byte ∈ (others.flatMap WrittenItem.first).head?, byte = 0x3C) ∧
              ∀ byte ∈ (others.flatMap WrittenItem.second).head?, byte = 0x3C := by
          intro isText
          cases others with
          | nil => exact ⟨nofun, nofun⟩
          | cons next more =>
            have noText : next.isText = false := by
              simpa [WrittenItem.isText, isText] using apart
            rw [List.flatMap_cons, List.flatMap_cons, (WrittenItem.head?_bytes noText _).1,
              (WrittenItem.head?_bytes noText _).2]
            exact ⟨fun _ isFirst => (Option.some.inj isFirst).symm,
              fun _ isFirst => (Option.some.inj isFirst).symm⟩
        exact .both (Xml.read_piece fits fun isText => (ends isText).1)
          (Xml.read_piece fits fun isText => (ends isText).2) (ih further)
    · cases isArranged

/-! ### Where both readers stand -/

namespace Item

/-- Whether an element can be rewritten: what a pair of tags reads of it can be read. -/
def readable (tag : Tag) : Bool :=
  match SheetElement.ofName tag.name with
  | .row => (SheetReading.statedRow tag).isOk
  | .cell => (attributeText tag "t").isOk
  | _ => false

/-- Whether the readers are in a cell behind an item. Cells end where they start, and what is
rewritten stands in none. -/
def inside? (inCell : Bool) : Item → Option Bool
  | both (.start tag) => some (inCell || SheetElement.ofName tag.name = .cell)
  | both (.close name) =>
    if SheetElement.ofName name = .cell then (if inCell then some false else none) else some inCell
  | both _ => some inCell
  | rewritten tag _ => if readable tag && !inCell then some false else none

def endsCell : Item → Bool
  | both (.close name) => SheetElement.ofName name = .cell
  | _ => false

end Item

/-- **Where the readers of two spellings stand**, and whether in a cell. -/
structure Standing where
  first : Place := ⟨0, 0⟩
  second : Place := ⟨0, 0⟩
  inCell : Bool := false

namespace Standing

def moved (standing : Standing) (item : Item) (inCell : Bool) : Standing :=
  ⟨item.first.foldl Place.step standing.first, item.second.foldl Place.step standing.second, inCell⟩

/-- Where the readers stand behind an item, if they stand in one place wherever a cell ends. -/
def step (standing : Standing) (item : Item) : Option Standing :=
  if item.endsCell = true → standing.first.position = standing.second.position then
    (item.inside? standing.inCell).map (standing.moved item)
  else none

theorem step_eq_some_iff {standing next : Standing} {item : Item} :
    standing.step item = some next ↔
      (item.endsCell = true → standing.first.position = standing.second.position) ∧
        ∃ inCell, item.inside? standing.inCell = some inCell ∧
          standing.moved item inCell = next := by
  rw [step]
  split
  · next here => rw [Option.map_eq_some_iff, and_iff_right here]
  · next apart => exact ⟨nofun, fun both => absurd both.1 apart⟩

/-- The other way round. -/
def swap (standing : Standing) : Standing :=
  ⟨standing.second, standing.first, standing.inCell⟩

end Standing

/-- **Wherever a cell ends, both readers stand in one place**, no cell stands in another one, and
the elements that are rewritten can be read. -/
def Aligned (items : List Item) : Prop :=
  (items.foldlM Standing.step {}).isSome = true

instance (items : List Item) : Decidable (Aligned items) := inferInstanceAs (Decidable (_ = _))

/-! ### Stated positions -/

/-- Behind an event of both, readers that stood in one place do so again. -/
theorem Standing.same_of_moved {standing : Standing} {event : Event} {inCell : Bool}
    (same : standing.first = standing.second) :
    (standing.moved (.both event) inCell).first = (standing.moved (.both event) inCell).second := by
  simp only [moved, Item.first, Item.second, same]

/-- A cell ends only where one has started. -/
theorem Item.inCell_of_endsCell {item : Item} {inCell behind : Bool}
    (inside : item.inside? inCell = some behind) (ends : item.endsCell = true) :
    inCell = true := by
  cases inCell with
  | true => rfl
  | false =>
    unfold endsCell at ends
    split at ends
    · simp [inside?, of_decide_eq_true ends] at inside
    · cases ends

/-- A cell starts only with its own tag. -/
theorem Item.starts_of_inside {item : Item} (inside : item.inside? false = some true) :
    ∃ tag, item = .both (.start tag) ∧ SheetElement.ofName tag.name = .cell := by
  cases item with
  | rewritten tag spelling =>
    rw [inside?] at inside
    split at inside <;> cases inside
  | both event =>
    cases event with
    | start tag => exact ⟨tag, rfl, by simpa [inside?] using inside⟩
    | close name =>
      rw [inside?] at inside
      split at inside <;> cases inside
    | single | text | other => cases inside

/-- In a cell that states its position, both readers stand in one place. -/
theorem Standing.same_in_cell {standing : Standing} {item : Item}
    (same : standing.inCell = true → standing.first = standing.second)
    (stated : ∀ tag, item = .both (.start tag) → SheetElement.ofName tag.name = .cell →
      ∃ position, SheetReading.statedPosition tag = .ok (some position))
    (inside : item.inside? standing.inCell = some true) :
    (standing.moved item true).first = (standing.moved item true).second := by
  cases before : standing.inCell with
  | true =>
    rw [before] at inside
    cases item with
    | rewritten tag spelling => simp [Item.inside?] at inside
    | both event => exact same_of_moved (same before)
  | false =>
    rw [before] at inside
    obtain ⟨tag, rfl, isCell⟩ := Item.starts_of_inside inside
    obtain ⟨position, isStated⟩ := stated tag rfl isCell
    simp [moved, Item.first, Item.second, Place.step, isCell, isStated]

/-- **Cells that state their positions make up for everything**: however childless elements are
spelled, both readers stand in one place wherever a cell ends. -/
theorem aligned_of_stated {items : List Item}
    (nested : (items.foldlM Item.inside? false).isSome = true)
    (stated : ∀ tag, .both (.start tag) ∈ items → SheetElement.ofName tag.name = .cell →
      ∃ position, SheetReading.statedPosition tag = .ok (some position)) : Aligned items := by
  -- In a cell the readers stand in one place, and that is all an induction needs to know of them.
  have scanned : ∀ standing : Standing,
      (standing.inCell = true → standing.first = standing.second) →
      (items.foldlM Item.inside? standing.inCell).isSome = true →
      (items.foldlM Standing.step standing).isSome = true := by
    clear nested
    induction items with
    | nil => exact fun _ _ _ => rfl
    | cons item items ih =>
      intro standing same nested
      obtain ⟨final, nested⟩ := Option.isSome_iff_exists.1 nested
      rw [List.foldlM_cons, Option.bind_eq_bind, Option.bind_eq_some_iff] at nested
      obtain ⟨inCell, inside, further⟩ := nested
      have stepped : standing.step item = some (standing.moved item inCell) :=
        Standing.step_eq_some_iff.2
          ⟨fun ends => by rw [same (Item.inCell_of_endsCell inside ends)], inCell, inside, rfl⟩
      have behind : inCell = true →
          (standing.moved item inCell).first = (standing.moved item inCell).second := by
        rintro rfl
        exact Standing.same_in_cell same (fun tag isTag => stated tag (isTag ▸ .head _)) inside
      rw [List.foldlM_cons, stepped]
      exact ih (fun tag member => stated tag (.tail _ member)) _ behind
        (Option.isSome_iff_exists.2 ⟨final, further⟩)
  exact scanned {} nofun nested

/-! ### Both readers -/

/-- **What the readers of two spellings have in common.** Outside of cells the last cell is of no
use any more. -/
structure Alike (standing : Standing) (first second : SheetReading) : Prop where
  sheet : first.sheet = second.sheet
  inValue : first.inValue = second.inValue
  isFirst : first.position = standing.first.position
  isSecond : second.position = standing.second.position
  cell : standing.inCell = true → first.kind = second.kind ∧ first.value = second.value

/-- Both readers go on alike, or both fail for one reason. -/
inductive Outcomes (standing : Standing) :
    Except TableError SheetReading → Except TableError SheetReading → Prop
  | ok {first second : SheetReading} (alike : Alike standing first second) :
    Outcomes standing (.ok first) (.ok second)
  | error (error : TableError) : Outcomes standing (.error error) (.error error)

theorem Outcomes.inv {standing : Standing} {outcome other : Except TableError SheetReading}
    (outcomes : Outcomes standing outcome other) :
    (∃ first second, outcome = .ok first ∧ other = .ok second ∧ Alike standing first second) ∨
      ∃ error, outcome = .error error ∧ other = .error error := by
  cases outcomes with
  | ok alike => exact .inl ⟨_, _, rfl, rfl, alike⟩
  | error error => exact .inr ⟨error, rfl, rfl⟩

section Readers

variable {strings : Array String} {standing next : Standing} {first second : SheetReading}

theorem Alike.symm (alike : Alike standing first second) : Alike standing.swap second first where
  sheet := alike.sheet.symm
  inValue := alike.inValue.symm
  isFirst := alike.isSecond
  isSecond := alike.isFirst
  cell inCell := ⟨(alike.cell inCell).1.symm, (alike.cell inCell).2.symm⟩

theorem Outcomes.symm {outcome other : Except TableError SheetReading}
    (outcomes : Outcomes standing outcome other) : Outcomes standing.swap other outcome := by
  cases outcomes with
  | ok alike => exact .ok alike.symm
  | error error => exact .error error

/-- **An event of both**: what it asks for is asked for by both, and its answer changes both
alike. Where they stand is known from the event. -/
theorem Outcomes.of_answer {event : Event} {inCell : Bool} {α : Type}
    (answer : Except TableError α) (go : α → SheetReading → SheetReading)
    (alike : Alike standing first second)
    (isFirst : first.step strings event = answer >>= fun value => .ok (go value first))
    (isSecond : second.step strings event = answer >>= fun value => .ok (go value second))
    (sheet : ∀ value, (go value first).sheet = (go value second).sheet)
    (inValue : ∀ value, (go value first).inValue = (go value second).inValue)
    (cell : inCell = true → ∀ value, (go value first).kind = (go value second).kind ∧
      (go value first).value = (go value second).value) :
    Outcomes (standing.moved (.both event) inCell)
      (first.step strings event) (second.step strings event) := by
  cases answer with
  | error error =>
    rw [isFirst, isSecond]
    exact .error error
  | ok value =>
    have stoodFirst := (moves_of_step isFirst alike.isFirst).stands
    have stoodSecond := (moves_of_step isSecond alike.isSecond).stands
    rw [isFirst, isSecond]
    exact .ok ⟨sheet value, inValue value, stoodFirst, stoodSecond, fun inside => cell inside value⟩

/-- An event that changes nothing but the position, or sets what both have in common. -/
theorem Outcomes.of_change {event : Event} {inCell : Bool} (go : SheetReading → SheetReading)
    (alike : Alike standing first second)
    (went : ∀ reading : SheetReading, reading.step strings event = .ok (go reading))
    (sheet : (go first).sheet = (go second).sheet)
    (inValue : (go first).inValue = (go second).inValue)
    (cell : inCell = true → (go first).kind = (go second).kind ∧
      (go first).value = (go second).value) :
    Outcomes (standing.moved (.both event) inCell)
      (first.step strings event) (second.step strings event) :=
  .of_answer (.ok ()) (fun _ => go) alike (went first) (went second)
    (fun _ => sheet) (fun _ => inValue) fun inside _ => cell inside

theorem alike_start {tag : Tag} (alike : Alike standing first second) :
    Outcomes (standing.moved (.both (.start tag))
        (standing.inCell || SheetElement.ofName tag.name = .cell))
      (first.step strings (.start tag)) (second.step strings (.start tag)) := by
  have kept : SheetElement.ofName tag.name ≠ .cell →
      (standing.inCell || SheetElement.ofName tag.name = .cell) = true →
      first.kind = second.kind ∧ first.value = second.value := fun notCell inCell =>
    alike.cell (by simpa [notCell] using inCell)
  cases kind : SheetElement.ofName tag.name with
  | row =>
    rw [← kind]
    exact .of_answer (SheetReading.statedRow tag)
      (fun stated reading => { reading with position := ⟨stated.getD reading.position.row, 0⟩ })
      alike (SheetReading.step_row kind) (SheetReading.step_row kind)
      (fun _ => alike.sheet) (fun _ => alike.inValue)
      fun inCell _ => kept (by rw [kind]; decide) inCell
  | cell =>
    refine .of_answer (SheetReading.statedPosition tag >>= fun stated =>
        attributeText tag "t" >>= fun kind => .ok (stated, kind))
      (fun answer reading => { reading with
        position := answer.1.getD reading.position
        kind := CellKind.ofName answer.2
        value := none })
      alike ?_ ?_ (fun _ => alike.sheet) (fun _ => alike.inValue) fun _ _ => ⟨rfl, rfl⟩
    all_goals
      rw [SheetReading.step_cell kind, bind_assoc]
      simp only [bind_assoc]
      rfl
  | value =>
    rw [← kind]
    exact .of_change (fun reading => { reading with inValue := true }) alike
      (fun _ => SheetReading.step_value kind) alike.sheet rfl (kept (by rw [kind]; decide))
  | other =>
    rw [← kind]
    exact .of_change id alike (fun _ => SheetReading.step_start_other kind) alike.sheet
      alike.inValue (kept (by rw [kind]; decide))

/-- Where a cell ends, both readers put the same cell in the same place. -/
theorem alike_close_cell {name : Bytes} (isCell : SheetElement.ofName name = .cell)
    (alike : Alike standing first second) (inCell : standing.inCell = true)
    (here : standing.first.position = standing.second.position) :
    Outcomes (standing.moved (.both (.close name)) false)
      (first.step strings (.close name)) (second.step strings (.close name)) := by
  obtain ⟨sameKind, sameValue⟩ := alike.cell inCell
  have samePosition : second.position = first.position := by
    rw [alike.isFirst, alike.isSecond, here]
  refine .of_answer (readCell strings first.kind first.value)
    (fun cell reading => { reading with
      position := ⟨reading.position.row, reading.position.column + 1⟩
      value := none
      sheet := reading.sheet.place reading.position cell })
    alike (SheetReading.step_close_cell isCell) ?_ (fun cell => ?_) (fun _ => alike.inValue) nofun
  · rw [sameKind, sameValue]
    exact SheetReading.step_close_cell isCell
  · simp only [alike.sheet, samePosition]

theorem alike_close {name : Bytes} (notCell : SheetElement.ofName name ≠ .cell)
    (alike : Alike standing first second) :
    Outcomes (standing.moved (.both (.close name)) standing.inCell)
      (first.step strings (.close name)) (second.step strings (.close name)) := by
  cases kind : SheetElement.ofName name with
  | cell => exact absurd kind notCell
  | row =>
    exact .of_change
      (fun reading => { reading with
        position := ⟨reading.position.row + 1, reading.position.column⟩ })
      alike (fun _ => SheetReading.step_close_row kind) alike.sheet alike.inValue alike.cell
  | value =>
    exact .of_change (fun reading => { reading with inValue := false }) alike
      (fun _ => SheetReading.step_close_value kind) alike.sheet rfl alike.cell
  | other =>
    exact .of_change id alike (fun _ => SheetReading.step_close_other kind) alike.sheet
      alike.inValue alike.cell

theorem alike_single {tag : Tag} (alike : Alike standing first second) :
    Outcomes (standing.moved (.both (.single tag)) standing.inCell)
      (first.step strings (.single tag)) (second.step strings (.single tag)) := by
  by_cases kind : SheetElement.ofName tag.name = .cell
  · exact .of_answer (SheetReading.statedPosition tag)
      (fun stated reading => { reading with
        position := ⟨reading.position.row,
          (stated.map Position.column).getD reading.position.column + 1⟩ })
      alike (SheetReading.step_single_cell kind) (SheetReading.step_single_cell kind)
      (fun _ => alike.sheet) (fun _ => alike.inValue) fun inCell _ => alike.cell inCell
  · exact .of_change id alike (fun _ => SheetReading.step_single_other kind) alike.sheet
      alike.inValue alike.cell

theorem alike_text (content : Bytes) (alike : Alike standing first second) :
    Outcomes (standing.moved (.both (.text content)) standing.inCell)
      (first.step strings (.text content)) (second.step strings (.text content)) := by
  cases inValue : first.inValue with
  | true =>
    have inValueToo : second.inValue = true := by rw [← alike.inValue, inValue]
    exact .of_answer (textOf content)
      (fun text reading => { reading with value := some (reading.value.getD "" ++ text) })
      alike (SheetReading.step_text inValue content) (SheetReading.step_text inValueToo content)
      (fun _ => alike.sheet) (fun _ => alike.inValue)
      fun inCell _ => ⟨(alike.cell inCell).1, by rw [(alike.cell inCell).2]⟩
  | false =>
    have outside : second.inValue = false := by rw [← alike.inValue, inValue]
    exact .of_answer (.ok ()) (fun _ reading => reading) alike
      (SheetReading.step_text_outside inValue content)
      (SheetReading.step_text_outside outside content)
      (fun _ => alike.sheet) (fun _ => alike.inValue) fun inCell _ => alike.cell inCell

/-- **One event of both.** -/
theorem alike_event {event : Event} (alike : Alike standing first second)
    (stepped : standing.step (.both event) = some next) :
    Outcomes next (first.step strings event) (second.step strings event) := by
  obtain ⟨here, inCell, inside, rfl⟩ := Standing.step_eq_some_iff.1 stepped
  cases event with
  | start tag =>
    cases inside
    exact alike_start alike
  | single tag =>
    cases inside
    exact alike_single alike
  | text content =>
    cases inside
    exact alike_text content alike
  | other =>
    cases inside
    exact .of_change id alike (fun _ => SheetReading.step_other) alike.sheet alike.inValue alike.cell
  | close name =>
    rw [Item.inside?] at inside
    split at inside
    · next isCell =>
      split at inside
      · next inCell =>
        cases inside
        exact alike_close_cell isCell alike inCell (here (decide_eq_true isCell))
      · cases inside
    · next notCell =>
      cases inside
      exact alike_close notCell alike

/-- A row without content: a single tag is passed over, and what a pair of tags does to the position
does not matter here. -/
theorem alike_row {tag : Tag} (isRow : SheetElement.ofName tag.name = .row)
    (readable : (SheetReading.statedRow tag).isOk = true) (alike : Alike standing first second) :
    Outcomes (standing.moved (.rewritten tag .single) false)
      ((childlessEvents tag .single).foldlM (SheetReading.step strings) first)
      ((childlessEvents tag .pair).foldlM (SheetReading.step strings) second) := by
  obtain ⟨stated, isStated⟩ := exists_of_isOk readable
  have passed : first.step strings (.single tag) = .ok first :=
    SheetReading.step_single_other (by rw [isRow]; decide)
  have opened : second.step strings (.start tag)
      = .ok { second with position := ⟨stated.getD second.position.row, 0⟩ } := by
    rw [SheetReading.step_row isRow, isStated]
    rfl
  have closed : ({ second with position := ⟨stated.getD second.position.row, 0⟩ } :
      SheetReading).step strings (.close tag.name) = .ok { second with
        position := ⟨stated.getD second.position.row + 1, 0⟩ } :=
    SheetReading.step_close_row isRow
  rw [childlessEvents, childlessEvents, foldlM_cons_of_ok passed, foldlM_cons_of_ok opened,
    foldlM_cons_of_ok closed]
  exact .ok
    { sheet := alike.sheet
      inValue := alike.inValue
      isFirst := (moves_of_step passed alike.isFirst).stands
      isSecond := (moves_of_step closed (moves_of_step opened alike.isSecond).stands).stands
      cell := nofun }

/-- A cell without content: it is blank, so a pair of tags stores nothing. -/
theorem alike_cell {tag : Tag} (isCell : SheetElement.ofName tag.name = .cell)
    (readable : (attributeText tag "t").isOk = true) (alike : Alike standing first second) :
    Outcomes (standing.moved (.rewritten tag .single) false)
      ((childlessEvents tag .single).foldlM (SheetReading.step strings) first)
      ((childlessEvents tag .pair).foldlM (SheetReading.step strings) second) := by
  obtain ⟨kind, isKind⟩ := exists_of_isOk readable
  cases isStated : SheetReading.statedPosition tag with
  | error error =>
    have single : first.step strings (.single tag) = .error error := by
      rw [SheetReading.step_single_cell isCell, isStated]
      rfl
    have start : second.step strings (.start tag) = .error error := by
      rw [SheetReading.step_cell isCell, isStated]
      rfl
    simp only [childlessEvents, List.foldlM_cons, single, start]
    exact .error error
  | ok stated =>
    have passed : first.step strings (.single tag) = .ok { first with
        position := ⟨first.position.row,
          (stated.map Position.column).getD first.position.column + 1⟩ } := by
      rw [SheetReading.step_single_cell isCell, isStated]
      rfl
    have opened : second.step strings (.start tag) = .ok { second with
        position := stated.getD second.position, kind := .ofName kind, value := none } := by
      rw [SheetReading.step_cell isCell, isStated, isKind]
      rfl
    have closed : ({ second with
        position := stated.getD second.position, kind := .ofName kind, value := none } :
          SheetReading).step strings (.close tag.name) = .ok { second with
        position := ⟨(stated.getD second.position).row, (stated.getD second.position).column + 1⟩
        kind := .ofName kind, value := none } := by
      rw [SheetReading.step_close_cell isCell]
      show Except.ok { second with
        position := _, kind := _, value := none, sheet := second.sheet.place _ .empty } = _
      rw [Sheet.place_blank rfl]
    rw [childlessEvents, childlessEvents, foldlM_cons_of_ok passed, foldlM_cons_of_ok opened,
      foldlM_cons_of_ok closed]
    exact .ok
      { sheet := alike.sheet
        inValue := alike.inValue
        isFirst := (moves_of_step passed alike.isFirst).stands
        isSecond := (moves_of_step closed (moves_of_step opened alike.isSecond).stands).stands
        cell := nofun }

/-- **One element that is rewritten.** -/
theorem alike_rewritten {tag : Tag} {spelling : Spelling} (alike : Alike standing first second)
    (readable : Item.readable tag = true) (outside : standing.inCell = false) :
    Outcomes (standing.moved (.rewritten tag spelling) false)
      ((childlessEvents tag spelling).foldlM (SheetReading.step strings) first)
      ((childlessEvents tag spelling.other).foldlM (SheetReading.step strings) second) := by
  have single : ∀ {standing : Standing} {first second : SheetReading},
      Alike standing first second → standing.inCell = false →
      Outcomes (standing.moved (.rewritten tag .single) false)
        ((childlessEvents tag .single).foldlM (SheetReading.step strings) first)
        ((childlessEvents tag .pair).foldlM (SheetReading.step strings) second) := by
    intro standing first second alike outside
    rw [Item.readable] at readable
    split at readable
    · next isRow => exact alike_row isRow readable alike
    · next isCell => exact alike_cell isCell readable alike
    · cases readable
  cases spelling with
  | single => exact single alike outside
  | pair => exact (single alike.symm outside).symm

theorem alike_item {item : Item} (alike : Alike standing first second)
    (stepped : standing.step item = some next) :
    Outcomes next (item.first.foldlM (SheetReading.step strings) first)
      (item.second.foldlM (SheetReading.step strings) second) := by
  cases item with
  | both event =>
    simp only [Item.first, Item.second, List.foldlM_cons, List.foldlM_nil, bind_pure]
    exact alike_event alike stepped
  | rewritten tag spelling =>
    obtain ⟨_, inCell, inside, rfl⟩ := Standing.step_eq_some_iff.1 stepped
    rw [Item.inside?] at inside
    split at inside
    · next allowed =>
      cases inside
      rw [Bool.and_eq_true, Bool.not_eq_true'] at allowed
      exact alike_rewritten alike allowed.1 allowed.2
    · cases inside

/-- **Two spellings**, item by item. -/
theorem alike_items {items : List Item} (alike : Alike standing first second)
    (aligned : items.foldlM Standing.step standing = some next) :
    Outcomes next ((items.flatMap Item.first).foldlM (SheetReading.step strings) first)
      ((items.flatMap Item.second).foldlM (SheetReading.step strings) second) := by
  induction items generalizing standing first second with
  | nil =>
    cases aligned
    exact .ok alike
  | cons item items ih =>
    rw [List.foldlM_cons, Option.bind_eq_bind, Option.bind_eq_some_iff] at aligned
    obtain ⟨behind, stepped, further⟩ := aligned
    have outcomes := @alike_item strings standing behind first second item alike stepped
    rw [List.flatMap_cons, List.flatMap_cons, List.foldlM_append, List.foldlM_append]
    rcases outcomes.inv with ⟨first', second', isFirst, isSecond, alikeBehind⟩ | ⟨error, failed⟩
    · rw [isFirst, isSecond]
      exact ih alikeBehind further
    · rw [failed.1, failed.2]
      exact .error error

end Readers

/-! ### Workbooks -/

/-- Two spellings are one sheet, or fail for one reason. -/
theorem worksheet_respelled (strings : Array String) {items : List Item} (aligned : Aligned items)
    (wellFormed : Bool) :
    worksheet strings ⟨items.flatMap Item.first, wellFormed⟩
      = worksheet strings ⟨items.flatMap Item.second, wellFormed⟩ := by
  obtain ⟨standing, isAligned⟩ := Option.isSome_iff_exists.1 aligned
  have start : Alike {} ({} : SheetReading) {} := ⟨rfl, rfl, rfl, rfl, fun _ => ⟨rfl, rfl⟩⟩
  have outcomes := @alike_items strings {} standing {} {} items start isAligned
  simp only [worksheet, foldEvents]
  rcases outcomes.inv with ⟨first, second, isFirst, isSecond, alike⟩ | ⟨error, failed⟩
  · rw [isFirst, isSecond]
    cases wellFormed with
    | false => rfl
    | true => exact congrArg Except.ok alike.sheet
  · rw [failed.1, failed.2]

/-- **Two workbooks whose first sheets are spelled differently are one table**, if both readers of
the sheets stand in one place wherever a cell ends. -/
theorem ofWorkbook_respelled {first second : Archive} {part : String} {bytes bytes' : Bytes}
    {items : List Item} (sameStrings : stringsOf first = stringsOf second)
    (isPart : firstSheetPart first = .ok part) (isPart' : firstSheetPart second = .ok part)
    (found : first.part? part = some bytes) (found' : second.part? part = some bytes')
    (respelled : Respelled [] (dropByteOrderMark bytes) (dropByteOrderMark bytes') items)
    (aligned : Aligned items) : Table.ofWorkbook first = Table.ofWorkbook second := by
  obtain ⟨wellFormed, isFirst, isSecond⟩ := documents_of_respelled respelled
  have sheets : firstSheet first = firstSheet second := by
    rw [firstSheet_of_part isPart found, firstSheet_of_part isPart' found', sameStrings,
      Document.ofBytes, Document.ofBytes, isFirst, isSecond]
    exact bind_congr fun strings => worksheet_respelled strings aligned wellFormed
  rw [Table.ofWorkbook, Table.ofWorkbook, sheets]

/-! ### Some spellings -/

section Spellings

/-- A workbook with one sheet and without shared strings. -/
def bookOf (sheet : Bytes) : Archive :=
  ⟨[⟨Xml.ascii workbookPart,
      Xml.ascii "<workbook><sheets><sheet r:id='r1'/></sheets></workbook>"⟩,
    ⟨Xml.ascii usualSheetPart, sheet⟩]⟩

/-- A row of names, a row without content that says that it is the second one, and a cell that says
that it stands in the third one. -/
def statedRows : List WrittenItem :=
  [.both (.start (.bare "row" isName_row)),
    .both (.start (.one "c" "t" "str" isName_c isName_t)),
    .both (.start (.bare "v" isName_v)),
    .both (.text (Xml.ascii "Title") (by decide) (by decide)),
    .both (.closing (.bare "v" isName_v)),
    .both (.closing (.bare "c" isName_c)),
    .both (.closing (.bare "row" isName_row)),
    .rewritten ⟨.one "row" "r" "2" isName_row isName_r, [], by decide, Xml.isGap_nil⟩ .single,
    .both (.start (.bare "row" isName_row)),
    .both (.start (.one "c" "r" "A3" isName_c isName_r)),
    .both (.start (.bare "v" isName_v)),
    .both (.text (Xml.ascii "7") (by decide) (by decide)),
    .both (.closing (.bare "v" isName_v)),
    .both (.closing (.bare "c" isName_c))]

/-- Behind a row without content a cell that states its position is read alike. -/
theorem statedRows_respelled :
    Table.ofWorkbook (bookOf (statedRows.flatMap WrittenItem.first))
      = Table.ofWorkbook (bookOf (statedRows.flatMap WrittenItem.second)) := by
  have isPart : ∀ sheet, firstSheetPart (bookOf sheet) = .ok usualSheetPart := by
    intro sheet
    have part : (bookOf sheet).part? workbookPart = (bookOf []).part? workbookPart := rfl
    have none : (bookOf sheet).part? relationshipsPart = (bookOf []).part? relationshipsPart := rfl
    have usual : firstSheetPart (bookOf []) = .ok usualSheetPart := by decide +kernel
    rw [← usual]
    simp only [firstSheetPart, requiredPart, part, none]
  have aligned : Aligned (statedRows.map WrittenItem.item) := by decide +kernel
  have respelled := @respelled_of_written statedRows [] (by decide)
  exact ofWorkbook_respelled rfl (isPart _) (isPart _) rfl rfl respelled aligned

/-- The table of a workbook with this sheet, as texts. -/
def textsOf (sheet : String) : Option (List String × List (List String)) :=
  (Table.ofWorkbook (bookOf (Xml.ascii sheet))).toOption.map fun table =>
    (table.columns, table.rows.map (·.map Cell.render))

/-- **A row without content that states no position**: a single tag loses it. -/
theorem row_pair_differs :
    textsOf ("<row><c t='str'><v>h</v></c></row><row/>" ++ "<row><c t='str'><v>x</v></c></row>")
        = some (["h"], [["x"]]) ∧
      textsOf ("<row><c t='str'><v>h</v></c></row><row></row>"
        ++ "<row><c t='str'><v>x</v></c></row>") = some (["h"], [[""], ["x"]]) := by
  -- The keys of a map can be computed, the least and the greatest of them as they are defined cannot.
  unfold textsOf Table.ofWorkbook Sheet.toTable Sheet.width
  simp only [Std.TreeMap.minKey?_eq_head?_keys, Std.TreeMap.maxKey?_eq_getLast?_keys]
  decide +kernel

end Spellings

end ColumnCalc.Workbook
