/-
**Workbooks that are written and read back.**

Cells are assigned to places (`Assignment`) and written into a worksheet, each one as an element that
states its place, in any order and between any rows (`WrittenBook`). Reading gives the table of the
assignment: nothing is lost, doubled or shifted.

* `cell?_placeAll` — what was placed is seen in its place;
* `toTable_of_agrees` — the layout of a sheet that agrees with an assignment;
* `ofWorkbook_written` — the table of a workbook that is written.
-/

import ColumnCalc.Proofs.Workbook.Cells
import ColumnCalc.Proofs.Workbook.SharedStrings
import Mathlib.Data.Nat.SuccPred
import Mathlib.Order.SuccPred.Archimedean

namespace ColumnCalc.Workbook

open Shortest (digitsOf)
open Text (Bytes)
open Text.Utf8 (encode)
open Xml (Event Piece WrittenTag Escaped IsGap Spells)

/-! ### Assignments -/

/-- **Cells in their places.** No cell is blank, and a sheet has so many rows and columns. -/
structure Assignment where
  cell? : Place → Option Cell
  inSheet : ∀ {place cell}, cell? place = some cell → place.row < 1048576 ∧ place.column < 16384
  content : ∀ {place cell}, cell? place = some cell → cell.isBlank = false

namespace Assignment

/-- A cell is assigned to a place. -/
def Uses (assignment : Assignment) (row column : Nat) : Prop :=
  ∃ cell, assignment.cell? ⟨row, column⟩ = some cell

/-- **The first and the last row in use, and how many columns there are up to the last one in use.** -/
structure Extent (assignment : Assignment) (first last width : Nat) : Prop where
  first : IsLeast {row | ∃ column, assignment.Uses row column} first
  last : IsGreatest {row | ∃ column, assignment.Uses row column} last
  width : IsGreatest {size | ∃ row column, assignment.Uses row column ∧ size = column + 1} width

/-- An assignment that is used at all has an extent. -/
theorem exists_extent {assignment : Assignment} {row column : Nat}
    (uses : assignment.Uses row column) :
    ∃ first last width, assignment.Extent first last width := by
  have bounds : ∀ {row column}, assignment.Uses row column → row < 1048576 ∧ column < 16384 :=
    fun ⟨_, found⟩ => assignment.inSheet found
  obtain ⟨first, isFirst⟩ := (OrderBot.bddBelow {row | ∃ column, assignment.Uses row column})
    |>.exists_isLeast_of_nonempty ⟨row, column, uses⟩
  have lastBounded : BddAbove {row | ∃ column, assignment.Uses row column} :=
    ⟨1048576, fun _ ⟨_, uses⟩ => Nat.le_of_lt (bounds uses).1⟩
  obtain ⟨last, isLast⟩ := lastBounded.exists_isGreatest_of_nonempty ⟨row, column, uses⟩
  have widthBounded : BddAbove
      {size | ∃ row column, assignment.Uses row column ∧ size = column + 1} :=
    ⟨16384, fun _ ⟨_, _, uses, same⟩ => same ▸ (bounds uses).2⟩
  obtain ⟨width, isWidth⟩ := widthBounded.exists_isGreatest_of_nonempty
    ⟨column + 1, row, column, uses, rfl⟩
  exact ⟨first, last, width, isFirst, isLast, isWidth⟩

/-- **The table of an assignment**: the first row in use names the columns, and every row behind it,
up to the last one, is a row of the table. -/
def table (assignment : Assignment) (first last width : Nat) : Table where
  columns := (List.range width).map fun column =>
    match assignment.cell? ⟨first, column⟩ with
    | some cell => cell.render
    | none => "Unnamed: " ++ toString column
  rows := (List.range (last - first)).map fun row => (List.range width).map fun column =>
    (assignment.cell? ⟨first + 1 + row, column⟩).getD .empty

end Assignment

/-! ### What is in its place -/

section Placed

variable {items : List String} {sheet : Sheet}

theorem compact_placeAll {cells : List (WrittenCell items)} (compact : sheet.Compact) :
    (placeAll sheet cells).Compact := by
  induction cells generalizing sheet with
  | nil => exact compact
  | cons written cells ih => exact ih (compact.place _ _)

/-- **What was placed is seen in its place**, if no two cells have one place, and nothing else is
there. -/
theorem cell?_placeAll {cells : List (WrittenCell items)}
    (distinct : (cells.map fun written => written.place.position).Nodup)
    (content : ∀ written ∈ cells, written.cell.isBlank = false) {position : Position}
    {cell : Cell} :
    (placeAll sheet cells).cell? position = some cell ↔
      (∃ written ∈ cells, written.place.position = position ∧ written.cell = cell) ∨
        (∀ written ∈ cells, written.place.position ≠ position) ∧
          sheet.cell? position = some cell := by
  induction cells generalizing sheet with
  | nil => simp [placeAll]
  | cons written cells ih =>
    rw [List.map_cons, List.nodup_cons] at distinct
    have others := fun other member => content other (List.mem_cons_of_mem written member)
    have placed := @ih (sheet.place written.place.position written.cell) distinct.2 others
    rw [placeAll, List.foldl_cons]
    refine placed.trans ?_
    rw [Sheet.cell?_place _ _ _ (content written (.head _))]
    by_cases here : position = written.place.position
    · subst here
      have noOther : ∀ other ∈ cells, other.place.position ≠ written.place.position := by
        intro other member same
        exact distinct.1 (List.mem_map.2 ⟨other, member, same⟩)
      constructor
      · rintro (⟨other, member, same, _⟩ | ⟨_, found⟩)
        · exact absurd same (noOther other member)
        · rw [if_pos rfl] at found
          exact .inl ⟨written, .head _, rfl, Option.some.inj found⟩
      · rintro (⟨other, member, same, isCell⟩ | ⟨none, _⟩)
        · rcases List.mem_cons.1 member with rfl | member
          · exact .inr ⟨noOther, by rw [if_pos rfl, isCell]⟩
          · exact absurd same (noOther other member)
        · exact absurd rfl (none written (.head _))
    · rw [if_neg here]
      simp [Ne.symm here]

end Placed

/-! ### Layout -/

section Layout

variable {assignment : Assignment} {sheet : Sheet} {first last width : Nat}

/-- **A sheet agrees with an assignment**: in each position it holds what is assigned. -/
def Agrees (sheet : Sheet) (assignment : Assignment) : Prop :=
  ∀ position, sheet.cell? position = assignment.cell? (.ofPosition position)

theorem Agrees.cell?_position (agrees : Agrees sheet assignment) {place : Place}
    (inRange : place.InRange) : sheet.cell? place.position = assignment.cell? place := by
  rw [agrees, inRange.ofPosition_position]

theorem Assignment.Uses.bounds {row column : Nat} (uses : assignment.Uses row column) :
    row < 1048576 ∧ column < 16384 := by
  obtain ⟨cell, found⟩ := uses
  exact assignment.inSheet found

/-- Every place of a sheet is in range. -/
theorem inRange_of_bounds {row column : Nat} (bounds : row < 1048576 ∧ column < 16384) :
    Place.InRange ⟨row, column⟩ :=
  ⟨Nat.lt_of_lt_of_le bounds.1 (by decide), Nat.lt_of_lt_of_le bounds.2 (by decide)⟩

theorem Agrees.uses_iff (agrees : Agrees sheet assignment) {position : Position} :
    assignment.Uses position.row.toNat position.column.toNat ↔
      ∃ cell, sheet.cell? position = some cell := by
  rw [Assignment.Uses, agrees position]
  rfl

/-- The first and the last row and the width of a sheet are those of the assignment. -/
theorem Agrees.minKey?_eq (agrees : Agrees sheet assignment) (compact : sheet.Compact)
    (isFirst : IsLeast {row | ∃ column, assignment.Uses row column} first) :
    sheet.rows.minKey? = some (UInt32.ofNat first) := by
  obtain ⟨⟨column, uses⟩, least⟩ := isFirst
  have inRange := inRange_of_bounds uses.bounds
  obtain ⟨cell, found⟩ := uses
  rw [compact.minKey?_eq_some_iff]
  refine ⟨⟨UInt32.ofNat column, cell, ?_⟩, fun position other foundOther => ?_⟩
  · exact (agrees.cell?_position inRange).trans found
  · have below := least ⟨_, agrees.uses_iff.2 ⟨other, foundOther⟩⟩
    rw [UInt32.le_iff_toNat_le, UInt32.toNat_ofNat_of_lt' inRange.1]
    exact below

theorem Agrees.maxKey?_eq (agrees : Agrees sheet assignment) (compact : sheet.Compact)
    (isLast : IsGreatest {row | ∃ column, assignment.Uses row column} last) :
    sheet.rows.maxKey? = some (UInt32.ofNat last) := by
  obtain ⟨⟨column, uses⟩, greatest⟩ := isLast
  have inRange := inRange_of_bounds uses.bounds
  obtain ⟨cell, found⟩ := uses
  rw [compact.maxKey?_eq_some_iff]
  refine ⟨⟨UInt32.ofNat column, cell, ?_⟩, fun position other foundOther => ?_⟩
  · exact (agrees.cell?_position inRange).trans found
  · have above := greatest ⟨_, agrees.uses_iff.2 ⟨other, foundOther⟩⟩
    rw [UInt32.le_iff_toNat_le, UInt32.toNat_ofNat_of_lt' inRange.1]
    exact above

theorem Agrees.width_eq (agrees : Agrees sheet assignment)
    (isWidth : IsGreatest {size | ∃ row column, assignment.Uses row column ∧ size = column + 1}
      width) : sheet.width = width := by
  have exact : ∀ position cell, sheet.cell? position = some cell →
      position.column.toNat + 1 < positionBound := by
    intro position cell found
    have bounds := (agrees.uses_iff.2 ⟨cell, found⟩).bounds
    rw [positionBound_eq]
    omega
  obtain ⟨⟨row, column, uses, rfl⟩, greatest⟩ := isWidth
  have inRange := inRange_of_bounds uses.bounds
  obtain ⟨cell, found⟩ := uses
  refine Nat.le_antisymm ?_ ?_
  · refine (Sheet.width_le_iff exact).2 fun position other foundOther => ?_
    exact greatest ⟨_, _, agrees.uses_iff.2 ⟨other, foundOther⟩, rfl⟩
  · have reached := (Sheet.width_le_iff exact).1 (Nat.le_refl _) _ cell
      ((agrees.cell?_position inRange).trans found)
    rwa [Place.position, UInt32.toNat_ofNat_of_lt' inRange.2] at reached

/-- **A sheet is laid out as the assignment that it agrees with.** -/
theorem toTable_of_agrees (agrees : Agrees sheet assignment) (compact : sheet.Compact)
    (extent : assignment.Extent first last width) :
    sheet.toTable = .ok (assignment.table first last width) := by
  obtain ⟨⟨column, usesFirst⟩, least⟩ := extent.first
  obtain ⟨⟨column', usesLast⟩, _⟩ := extent.last
  obtain ⟨⟨row, widest, usesWidest, isWidth⟩, _⟩ := extent.width
  have firstBound := usesFirst.bounds
  have lastBound := usesLast.bounds
  have widthBound := usesWidest.bounds
  have order : first ≤ last := least ⟨column', usesLast⟩
  have firstInRange : first < positionBound := (inRange_of_bounds firstBound).1
  have counts : CountsOn (UInt32.ofNat first) :=
    (countsOn_ofNat firstInRange).2 (by rw [positionBound_eq]; omega)
  have start : (UInt32.ofNat first + 1).toNat = first + 1 := by
    rw [counts, UInt32.toNat_ofNat_of_lt' firstInRange]
  have stop : (UInt32.ofNat last).toNat = last :=
    UInt32.toNat_ofNat_of_lt' (inRange_of_bounds lastBound).1
  have count : last + 1 - (first + 1) = last - first := by omega
  rw [Sheet.toTable_eq (agrees.minKey?_eq compact extent.first) (agrees.maxKey?_eq compact extent.last),
    agrees.width_eq extent.width, start, stop, count, Assignment.table, List.range'_eq_map_range,
    List.map_map]
  congr 2
  · refine List.map_congr_left fun column member => ?_
    have below := List.mem_range.1 member
    have inRange : Place.InRange ⟨first, column⟩ := inRange_of_bounds ⟨by omega, by omega⟩
    rw [Sheet.columnName, ← agrees.cell?_position inRange]
    rfl
  · refine List.map_congr_left fun row member => ?_
    have belowRow := List.mem_range.1 member
    refine List.map_congr_left fun column member => ?_
    have below := List.mem_range.1 member
    have inRange : Place.InRange ⟨first + 1 + row, column⟩ :=
      inRange_of_bounds ⟨by omega, by omega⟩
    rw [← agrees.cell?_position inRange]
    rfl

end Layout

/-! ### Workbooks -/

/-- **A workbook that holds an assignment**: the part of its first sheet holds one element for each
assigned cell and no other one, and the shared strings, if there are any, are items. -/
structure WrittenBook (assignment : Assignment) (archive : Archive) where
  /-- The part of the first sheet. -/
  part : String
  sheet : Bytes
  /-- The items of the shared strings. -/
  items : List StringPart
  /-- The parts of the worksheet, in order. -/
  parts : List (SheetPart (items.filterMap StringPart.text?))
  isPart : firstSheetPart archive = .ok part
  found : archive.part? part = some sheet
  spells : Spells sheet (parts.flatMap SheetPart.pieces)
  areItems : ∀ item ∈ items, item.IsValid
  isShared : (archive.part? sharedStringsPart = none ∧ items = []) ∨
    ∃ shared, archive.part? sharedStringsPart = some shared ∧
      Spells shared (items.flatMap StringPart.pieces)
  /-- No two elements state one place. -/
  distinct : ((parts.filterMap SheetPart.cell?).map WrittenCell.place).Nodup
  /-- The elements are those of the assigned cells. -/
  holds : ∀ place cell, assignment.cell? place = some cell ↔
    ∃ written ∈ parts.filterMap SheetPart.cell?, written.place = place ∧ written.cell = cell

namespace WrittenBook

variable {assignment : Assignment} {archive : Archive}

/-- The cells of a workbook, in the order of the document. -/
def cells (book : WrittenBook assignment archive) :
    List (WrittenCell (book.items.filterMap StringPart.text?)) :=
  book.parts.filterMap SheetPart.cell?

theorem inSheet (book : WrittenBook assignment archive) : ∀ written ∈ book.cells,
    written.place.row < 1048576 ∧ written.place.column < 16384 := fun written member =>
  assignment.inSheet ((book.holds _ _).2 ⟨written, member, rfl, rfl⟩)

theorem content (book : WrittenBook assignment archive) : ∀ written ∈ book.cells,
    written.cell.isBlank = false := fun written member =>
  assignment.content ((book.holds _ _).2 ⟨written, member, rfl, rfl⟩)

/-- Places in a sheet are told apart by their positions. -/
theorem place_of_position (book : WrittenBook assignment archive)
    {written : WrittenCell (book.items.filterMap StringPart.text?)} (member : written ∈ book.cells) :
    Place.ofPosition written.place.position = written.place :=
  (inRange_of_bounds (book.inSheet written member)).ofPosition_position

theorem stringsOf_eq (book : WrittenBook assignment archive) :
    stringsOf archive = .ok (book.items.filterMap StringPart.text?).toArray := by
  rcases book.isShared with ⟨none, nothing⟩ | ⟨shared, some, spells⟩
  · rw [stringsOf, none, nothing]
    rfl
  · rw [stringsOf, some]
    exact sharedStrings_of_spells spells book.areItems

/-- **The sheet that is read** is that of all cells, in the order of the document. -/
theorem firstSheet_eq (book : WrittenBook assignment archive) :
    firstSheet archive = .ok (placeAll .empty book.cells) := by
  obtain ⟨final, went, placed⟩ := @foldlM_sheetParts _ {} book.parts book.inSheet rfl
  have read : worksheet (book.items.filterMap StringPart.text?).toArray (.ofBytes book.sheet)
      = .ok (placeAll .empty book.cells) := by
    refine worksheet_eq_ok_iff.2 ⟨final, ?_, ?_, placed⟩
    · rw [Xml.ofBytes_of_spells book.spells]
      exact went
    · rw [Xml.ofBytes_of_spells book.spells]
  rw [firstSheet_of_part book.isPart book.found, book.stringsOf_eq]
  exact read

/-- **The sheet agrees with the assignment.** -/
theorem agrees (book : WrittenBook assignment archive) :
    Agrees (placeAll .empty book.cells) assignment := by
  have apart : (book.cells.map fun written => written.place.position).Nodup := by
    refine List.Nodup.of_map Place.ofPosition ?_
    have same : (book.cells.map fun written => written.place.position).map Place.ofPosition
        = book.cells.map WrittenCell.place := by
      rw [List.map_map]
      exact List.map_congr_left fun written member => book.place_of_position member
    rw [same]
    exact book.distinct
  intro position
  refine Option.ext fun cell => ?_
  rw [cell?_placeAll apart book.content, book.holds]
  simp only [Sheet.cell?_empty, reduceCtorEq, and_false, or_false]
  refine exists_congr fun written => and_congr_right fun member => and_congr_left fun _ => ?_
  constructor
  · intro here
    rw [← here, book.place_of_position member]
  · intro here
    rw [here, Place.position_ofPosition]

end WrittenBook

/-- **A workbook that is written is read back**: no cell is lost, doubled or shifted. Without cells
it is the table without columns and rows. -/
theorem ofWorkbook_written {assignment : Assignment} {archive : Archive}
    (book : WrittenBook assignment archive) :
    ((∀ place, assignment.cell? place = none) → Table.ofWorkbook archive = .ok .empty) ∧
      (∀ place cell, assignment.cell? place = some cell → ∃ first last width,
        assignment.Extent first last width ∧
          Table.ofWorkbook archive = .ok (assignment.table first last width)) := by
  have compact : (placeAll .empty book.cells).Compact := compact_placeAll Sheet.compact_empty
  have read : Table.ofWorkbook archive = (placeAll .empty book.cells).toTable := by
    rw [Table.ofWorkbook, book.firstSheet_eq]
    rfl
  rw [read]
  constructor
  · intro unused
    exact compact.toTable_of_unused fun position => by rw [book.agrees, unused]
  · intro place cell found
    obtain ⟨first, last, width, extent⟩ := Assignment.exists_extent ⟨cell, found⟩
    exact ⟨first, last, width, extent, toTable_of_agrees book.agrees compact extent⟩

/-! ### A workbook -/

section Desks

/-- A tag of a cell that states its place and its kind. -/
def cellTag (place : Place) (kind : String) : WrittenTag where
  name := Xml.ascii "c"
  attributes := [.usual "r" (String.ofList (reference place.row place.column)) isName_r,
    .usual "t" kind isName_t]
  isName := isName_c
  distinct := List.nodup_cons.2 ⟨fun member =>
    absurd (List.mem_singleton.1 member) (by decide : Xml.ascii "r" ≠ Xml.ascii "t"),
    List.nodup_singleton _⟩
  isGap := Xml.isGap_nil

/-- A cell whose value stands in one element. -/
def cellOf {items : List String} (place : Place) (cell : Cell) (kind text : String)
    (form : Has (cellTag place kind) "t" kind →
      Form items (cellTag place kind) text.toList cell) : SheetPart items :=
  .cell {
    place, cell
    tag := cellTag place kind
    inside := [elementOf "v" text isName_v]
    isCell := rfl
    isReference := ⟨_, .head _, rfl, _, Xml.escaped_escape _, rfl⟩
    inCell := fun one member => by
      cases List.mem_singleton.1 member
      exact (by decide : SheetElement.ofName (Xml.ascii "v") = .value)
    form := by
      rw [List.flatMap_singleton]
      exact form ⟨_, .tail _ (.head _), rfl, _, Xml.escaped_escape _, rfl⟩
    isGap := Xml.isGap_nil }

/-- The number seven. -/
def seven : Float :=
  Numeral.toFloat ⟨false, 7, 0⟩

theorem decimal_seven : Cell.Decimal "7".toList seven where
  isFinite := (Binary64.isFinite_iff seven).2 ⟨false, Numeral.rankOf 7 0,
    Binary64.decompose_ofRank false (by decide +kernel)⟩
  nearest := by
    have read : Numeral.read? "7".toList = some ⟨false, 7, 0⟩ := by decide
    rw [readNumber?, read]
    rfl
  solid := fun _ member => by
    cases List.mem_singleton.1 member
    decide

/-- Two names in the second row, and a number in the fourth one. -/
def desks : Assignment where
  cell? place :=
    if place = ⟨1, 0⟩ then some (.text "Desk")
    else if place = ⟨1, 1⟩ then some (.text "< 2 m")
    else if place = ⟨3, 1⟩ then some (.number seven)
    else none
  inSheet := by
    intro place cell found
    split_ifs at found with here here here <;> simp [here]
  content := by
    intro place cell found
    split_ifs at found <;>
    · cases found
      decide +kernel

theorem desks_cell?_eq_some_iff {place : Place} {cell : Cell} :
    desks.cell? place = some cell ↔ (place, cell) ∈ [(⟨3, 1⟩, .number seven),
      (⟨1, 1⟩, .text "< 2 m"), (⟨1, 0⟩, .text "Desk")] := by
  simp only [desks, List.mem_cons, List.not_mem_nil, or_false, Prod.mk.injEq]
  split_ifs <;> simp_all [eq_comm]

/-- The number stands first, and one of the names is shared. -/
def desksParts : List (SheetPart ["Desk"]) :=
  [.between (.start (.bare "row" isName_row)) (.inr ⟨by decide, .inl nofun⟩),
    cellOf ⟨3, 1⟩ (.number seven) "n" "7" fun isKind => .number (.inr isKind) decimal_seven,
    .between (.closing (.bare "row" isName_row)) (.inr (by decide)),
    .between (.start (.bare "row" isName_row)) (.inr ⟨by decide, .inl nofun⟩),
    cellOf ⟨1, 1⟩ (.text "< 2 m") "str" "< 2 m" fun isKind => .text (.inl isKind),
    cellOf ⟨1, 0⟩ (.text "Desk") "s" "0" fun isKind => .shared isKind
      (by decide +kernel : "0".toList = digitsOf 0) rfl,
    .between (.closing (.bare "row" isName_row)) (.inr (by decide))]

def desksArchive : Archive :=
  ⟨[⟨Xml.ascii workbookPart,
      Xml.ascii "<workbook><sheets><sheet r:id='r1'/></sheets></workbook>"⟩,
    ⟨Xml.ascii sharedStringsPart, Xml.ascii "<si><t>Desk</t></si>"⟩,
    ⟨Xml.ascii usualSheetPart, desksParts.flatMap SheetPart.pieces |>.flatMap Piece.bytes⟩]⟩

def desksBook : WrittenBook desks desksArchive where
  part := usualSheetPart
  sheet := desksParts.flatMap SheetPart.pieces |>.flatMap Piece.bytes
  items := [.item (.bare "si" isName_si) [.segment (elementOf "t" "Desk" isName_t)] []
    Xml.isGap_nil]
  parts := desksParts
  isPart := by decide +kernel
  found := rfl
  spells := ⟨.inl rfl, by decide +kernel, by decide +kernel⟩
  areItems := by decide
  isShared := .inr ⟨Xml.ascii "<si><t>Desk</t></si>", rfl, by decide +kernel, by decide +kernel,
    by decide +kernel⟩
  distinct := by decide +kernel
  holds := by
    intro place cell
    have written : (desksParts.filterMap SheetPart.cell?).map (fun one => (one.place, one.cell))
        = [(⟨3, 1⟩, .number seven), (⟨1, 1⟩, .text "< 2 m"), (⟨1, 0⟩, .text "Desk")] := rfl
    rw [desks_cell?_eq_some_iff, ← written, List.mem_map]
    simp only [Prod.mk.injEq]
    rfl

theorem desks_uses_iff {row column : Nat} : desks.Uses row column ↔
    row = 3 ∧ column = 1 ∨ row = 1 ∧ column = 1 ∨ row = 1 ∧ column = 0 := by
  simp [Assignment.Uses, desks_cell?_eq_some_iff, exists_or]

/-- Names and a number are read, whatever their order; a row and a cell between them are empty. -/
theorem desks_written : Table.ofWorkbook desksArchive
    = .ok ⟨["Desk", "< 2 m"], [[.empty, .empty], [.empty, .number seven]]⟩ := by
  obtain ⟨first, last, width, extent, read⟩ := (ofWorkbook_written desksBook).2 ⟨1, 0⟩ _ rfl
  have isFirst : first = 1 := extent.first.unique
    ⟨⟨0, desks_uses_iff.2 (by omega)⟩, fun row ⟨_, uses⟩ => by
      have := desks_uses_iff.1 uses
      omega⟩
  have isLast : last = 3 := extent.last.unique
    ⟨⟨1, desks_uses_iff.2 (by omega)⟩, fun row ⟨_, uses⟩ => by
      have := desks_uses_iff.1 uses
      omega⟩
  have isWidth : width = 2 := extent.width.unique
    ⟨⟨1, 1, desks_uses_iff.2 (by omega), rfl⟩, fun size ⟨_, _, uses, _⟩ => by
      have := desks_uses_iff.1 uses
      omega⟩
  rw [read, isFirst, isLast, isWidth]
  rfl

end Desks

end ColumnCalc.Workbook
