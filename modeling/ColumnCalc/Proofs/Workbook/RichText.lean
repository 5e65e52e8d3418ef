/-
**Rich text in a cell and among the shared strings.**

The same rich text can stand in a cell of its own or as an item that another cell refers to. The
reader of the shared strings leaves phonetic runs out, the reader of a worksheet does not know of
them. So the two cells are alike exactly when no phonetic run holds a text, or all of the text is
blank and there is no cell either way.

* `foldlM_inline`, `foldlM_shared` — what either cell is read as;
* `rich_text_alike_iff` — when they are alike;
* `phonetic_differs` — a phonetic run that makes them differ.
-/

import ColumnCalc.Proofs.Workbook.Positions
import ColumnCalc.Proofs.Workbook.SharedStrings

namespace ColumnCalc.Workbook

open Text (Bytes)
open Xml (Event Piece WrittenTag Spells)

/-! ### Rich text in a worksheet -/

/-- What may stand in a cell. -/
def RichPart.InCell : RichPart → Prop
  | segment one => one.InCell
  | phonetic _ inner _ _ => ∀ one ∈ inner, one.InCell

instance : DecidablePred RichPart.InCell
  | .segment one => inferInstanceAs (Decidable one.InCell)
  | .phonetic _ inner _ _ => inferInstanceAs (Decidable (∀ one ∈ inner, one.InCell))

/-- **A worksheet's reader gathers all texts of a rich text**, those of phonetic runs too. -/
theorem gathers_parts {strings : Array String} {parts : List RichPart}
    (inItem : ∀ part ∈ parts, part.InItem) (inCell : ∀ part ∈ parts, part.InCell) :
    Gathers strings (parts.flatMap RichPart.pieces |>.map Piece.event)
      (String.ofList (parts.flatMap RichPart.whole)) := by
  induction parts with
  | nil => exact .nil
  | cons part parts ih =>
    have first : Gathers strings (part.pieces.map Piece.event) (String.ofList part.whole) := by
      have fits := inCell part (.head _)
      cases part with
      | segment one =>
        have all : Gathers strings _ _ :=
          gathers_segments (List.forall_mem_singleton.2 (fits : one.InCell))
        rwa [List.flatMap_singleton, List.flatMap_singleton] at all
      | phonetic tag inner trailing isGap =>
        have isPhonetic : tag.name = Xml.ascii "rPh" := (inItem _ (.head _)).1
        have named : SheetElement.ofName tag.name = .other := by
          rw [isPhonetic]
          decide
        have opened : SheetElement.passes (.start tag.tag) = true := decide_eq_true named
        have closed : SheetElement.passes (.close tag.name) = true := decide_eq_true named
        have all : Gathers strings _ _ :=
          ((gathers_passed opened).append (gathers_segments fits)).append (gathers_passed closed)
        rw [String.empty_append, String.append_empty] at all
        simpa [RichPart.pieces, RichPart.whole, Piece.event] using all
    rw [List.flatMap_cons, List.flatMap_cons, List.map_append, String.ofList_append]
    exact first.append (ih (fun other member => inItem other (.tail _ member))
      fun other member => inCell other (.tail _ member))

/-- Each character of a rich text is shown or is phonetic. -/
theorem length_whole (parts : List RichPart) :
    (parts.flatMap RichPart.whole).length
      = (parts.flatMap RichPart.shown).length + (parts.flatMap RichPart.reading).length := by
  induction parts with
  | nil => rfl
  | cons part parts ih =>
    simp only [List.flatMap_cons, List.length_append, ih]
    cases part with
    | segment one =>
      simp only [RichPart.whole, RichPart.shown, RichPart.reading, List.length_nil]
      omega
    | phonetic tag inner trailing isGap =>
      simp only [RichPart.whole, RichPart.shown, RichPart.reading, List.length_nil]
      omega

/-- What is shown is among the whole. -/
theorem shown_sublist (parts : List RichPart) :
    (parts.flatMap RichPart.shown).Sublist (parts.flatMap RichPart.whole) := by
  induction parts with
  | nil => exact .slnil
  | cons part parts ih =>
    rw [List.flatMap_cons, List.flatMap_cons]
    refine List.Sublist.append ?_ ih
    cases part with
    | segment one => exact .refl _
    | phonetic tag inner trailing isGap => exact List.nil_sublist _

/-- All of a rich text is shown exactly when nothing of it is phonetic. -/
theorem shown_eq_whole_iff {parts : List RichPart} :
    parts.flatMap RichPart.shown = parts.flatMap RichPart.whole ↔
      parts.flatMap RichPart.reading = [] := by
  have lengths := length_whole parts
  constructor
  · intro same
    rw [same] at lengths
    exact List.length_eq_zero_iff.1 (by omega)
  · intro nothing
    rw [nothing, List.length_nil, Nat.add_zero] at lengths
    exact (shown_sublist parts).eq_of_length lengths.symm

/-! ### The same rich text, twice -/

/-- **A rich text that is written twice**: in a cell of its own, and as an item of the shared
strings that a cell in the same position refers to. -/
structure WrittenTwice where
  content : List RichPart
  inItem : ∀ part ∈ content, part.InItem
  inCell : ∀ part ∈ content, part.InCell
  /-- The tag of the cell of its own. -/
  inlineTag : WrittenTag
  /-- The tag around the rich text in this cell. -/
  textTag : WrittenTag
  /-- The tag of the cell that refers to the shared strings. -/
  sharedTag : WrittenTag
  /-- What stands in that cell. -/
  pointer : List Segment
  areCells : inlineTag.name = Xml.ascii "c" ∧ sharedTag.name = Xml.ascii "c"
  isText : textTag.name = Xml.ascii "is"
  inlineKind : attributeText inlineTag.tag "t" = .ok (some "inlineStr")
  sharedKind : attributeText sharedTag.tag "t" = .ok (some "s")
  /-- The position that both cells state, if they state one. -/
  stated : Option Position
  inlineSays : SheetReading.statedPosition inlineTag.tag = .ok stated
  sharedSays : SheetReading.statedPosition sharedTag.tag = .ok stated
  /-- The part of the shared strings. -/
  part : Bytes
  items : List StringPart
  spells : Spells part (items.flatMap StringPart.pieces)
  areItems : ∀ item ∈ items, item.IsValid
  /-- Where the rich text stands among the items. -/
  number : Nat
  isItem : (items.filterMap StringPart.content?)[number]? = some content
  pointerInCell : ∀ one ∈ pointer, one.InCell
  points : readWhole? (items.filterMap StringPart.text?).length
    (Text.trim (pointer.flatMap Segment.text)) = some number

namespace WrittenTwice

variable (twice : WrittenTwice)

/-- The texts of the shared strings. -/
def strings : Array String :=
  (twice.items.filterMap StringPart.text?).toArray

/-- The text in the cell of its own. -/
def whole : List Char :=
  twice.content.flatMap RichPart.whole

/-- The text of the item. -/
def shown : List Char :=
  twice.content.flatMap RichPart.shown

/-- The text in phonetic runs. -/
def reading : List Char :=
  twice.content.flatMap RichPart.reading

/-- The events of the cell of its own. -/
def inlineEvents : List Event :=
  cellEvents twice.inlineTag (.start twice.textTag.tag ::
    ((twice.content.flatMap RichPart.pieces).map Piece.event ++ [.close twice.textTag.name]))

/-- The events of the cell that refers to the shared strings. -/
def sharedEvents : List Event :=
  cellEvents twice.sharedTag ((twice.pointer.flatMap Segment.pieces).map Piece.event)

theorem strings_number :
    twice.strings[twice.number]? = some (String.ofList twice.shown) := by
  have texts : twice.items.filterMap StringPart.text?
      = (twice.items.filterMap StringPart.content?).map
          fun content => String.ofList (content.flatMap RichPart.shown) := by
    rw [List.map_filterMap]
    rfl
  rw [strings, List.getElem?_toArray, texts, List.getElem?_map, twice.isItem]
  rfl

variable {twice} {reading : SheetReading}

/-- **The cell of its own** holds the whole text. -/
theorem foldlM_inline (outside : reading.inValue = false) :
    twice.inlineEvents.foldlM (SheetReading.step twice.strings) reading
      = .ok (reading.behindCell (twice.stated.getD reading.position) .text
          (.text (String.ofList twice.whole))) := by
  have named : SheetElement.ofName twice.textTag.name = .other := by
    rw [twice.isText]
    decide
  have opened : SheetElement.passes (.start twice.textTag.tag) = true := decide_eq_true named
  have closed : SheetElement.passes (.close twice.textTag.name) = true := decide_eq_true named
  have gathers : Gathers twice.strings _ _ := (gathers_passed opened).append
    ((gathers_parts twice.inItem twice.inCell).append (gathers_passed closed))
  rw [String.empty_append, String.append_empty] at gathers
  exact foldlM_textCell twice.areCells.1 gathers twice.inlineSays twice.inlineKind rfl outside

/-- **The cell that refers to the item** holds what is shown. -/
theorem foldlM_shared (outside : reading.inValue = false) :
    twice.sharedEvents.foldlM (SheetReading.step twice.strings) reading
      = .ok (reading.behindCell (twice.stated.getD reading.position) .shared
          (.text (String.ofList twice.shown))) := by
  have points : readWhole? twice.strings.size
      (Text.trim (String.ofList (twice.pointer.flatMap Segment.text)).toList)
        = some twice.number := by
    rw [String.toList_ofList]
    exact twice.points
  exact foldlM_sharedCell twice.areCells.2 (gathers_segments twice.pointerInCell)
    twice.sharedSays twice.sharedKind rfl points twice.strings_number outside

/-- Two texts are the same cell of a place that was free exactly when they are the same text, or
both are blank. -/
theorem place_alike_iff {sheet : Sheet} {position : Position} {first second : List Char}
    (free : sheet.cell? position = none) :
    (sheet.place position (.text (String.ofList first))).cell? position
        = (sheet.place position (.text (String.ofList second))).cell? position ↔
      first = second ∨ Text.trim first = [] ∧ Text.trim second = [] := by
  have seen : ∀ text : List Char,
      (sheet.place position (.text (String.ofList text))).cell? position
        = if Text.trim text = [] then none else some (.text (String.ofList text)) := by
    intro text
    by_cases blank : Text.trim text = []
    · have isBlank : (Cell.text (String.ofList text)).isBlank = true := by
        simp [Cell.isBlank, blank]
      rw [Sheet.place_blank isBlank, free, if_pos blank]
    · have content : (Cell.text (String.ofList text)).isBlank = false := by
        simp [Cell.isBlank, blank]
      rw [Sheet.cell?_place _ _ _ content, if_pos rfl, if_neg blank]
  rw [seen, seen]
  by_cases blank : Text.trim first = []
  · rw [if_pos blank]
    by_cases blankToo : Text.trim second = []
    · simp [blank, blankToo]
    · have differ : first ≠ second := fun same => blankToo (same ▸ blank)
      simp [blankToo, differ]
  · rw [if_neg blank]
    by_cases blankToo : Text.trim second = []
    · have differ : first ≠ second := fun same => blank (same ▸ blankToo)
      simp [blank, blankToo, differ]
    · simp [blank, blankToo, String.ofList_inj]

end WrittenTwice

/-- **When rich text reads alike**, wherever the cell stands: exactly when no phonetic run holds a
text, or the whole text is blank. All else of the sheet is alike anyway. -/
theorem rich_text_alike_iff (twice : WrittenTwice) {front : List Event} {reading : SheetReading}
    (reached : Reaches twice.strings front reading) (outside : reading.inValue = false)
    (free : reading.sheet.cell? (twice.stated.getD reading.position) = none) :
    sharedStrings (.ofBytes twice.part) = .ok twice.strings ∧
    ∃ inline shared, Reaches twice.strings (front ++ twice.inlineEvents) inline ∧
      Reaches twice.strings (front ++ twice.sharedEvents) shared ∧
      inline.position = shared.position ∧
      (∀ other ≠ twice.stated.getD reading.position,
        inline.sheet.cell? other = shared.sheet.cell? other) ∧
      (inline.sheet.cell? (twice.stated.getD reading.position)
          = shared.sheet.cell? (twice.stated.getD reading.position) ↔
        twice.reading = [] ∨ Text.trim twice.whole = []) := by
  have blank : Text.trim twice.whole = [] → Text.trim twice.shown = [] := by
    simp only [Text.trim_eq_nil_iff, List.all_eq_true]
    exact fun all c member => all c ((shown_sublist twice.content).subset member)
  refine ⟨sharedStrings_of_spells twice.spells twice.areItems,
    reading.behindCell (twice.stated.getD reading.position) .text
      (.text (String.ofList twice.whole)),
    reading.behindCell (twice.stated.getD reading.position) .shared
      (.text (String.ofList twice.shown)), ?_, ?_, rfl, ?_, ?_⟩
  · exact (foldlM_append_of_ok reached _).trans (WrittenTwice.foldlM_inline outside)
  · exact (foldlM_append_of_ok reached _).trans (WrittenTwice.foldlM_shared outside)
  · intro other elsewhere
    simp only [SheetReading.behindCell, Sheet.cell?_place_of_ne elsewhere]
  · refine (WrittenTwice.place_alike_iff free).trans ?_
    rw [eq_comm, WrittenTwice.whole, WrittenTwice.shown, shown_eq_whole_iff]
    exact or_congr_right ⟨And.left, fun all => ⟨all, blank all⟩⟩

/-- A run. -/
def runOf (text : String) : List RichPart :=
  [.segment (.alone (.start (.bare "r" isName_r))),
    .segment (elementOf "t" text isName_t),
    .segment (.alone (.closing (.bare "r" isName_r)))]

/-- Two runs, the second one with an ampersand, as `<r><t>Desk </t></r><r><t>&amp; Chair</t></r>`. -/
def deskAndChair : WrittenTwice where
  content := ["Desk ", "& Chair"].flatMap runOf
  inItem := by decide
  inCell := by decide
  inlineTag := .one "c" "t" "inlineStr" isName_c isName_t
  textTag := .bare "is" isName_is
  sharedTag := .one "c" "t" "s" isName_c isName_t
  pointer := [elementOf "v" "0" isName_v]
  areCells := by decide
  isText := by decide
  inlineKind := by decide +kernel
  sharedKind := by decide +kernel
  stated := none
  inlineSays := by decide +kernel
  sharedSays := by decide +kernel
  part := Xml.ascii "<sst><si><r><t>Desk </t></r><r><t>&amp; Chair</t></r></si></sst>"
  items := [.passed (.start (.bare "sst" isName_sst)),
    .item (.bare "si" isName_si) (["Desk ", "& Chair"].flatMap runOf) [] Xml.isGap_nil,
    .passed (.closing (.bare "sst" isName_sst))]
  spells := ⟨by decide +kernel, by decide +kernel, by decide +kernel⟩
  areItems := by decide
  number := 0
  isItem := rfl
  pointerInCell := by decide
  points := by decide +kernel

/-- Without phonetic runs both cells read alike. -/
theorem deskAndChair_alike :
    ∃ inline shared, Reaches deskAndChair.strings deskAndChair.inlineEvents inline ∧
      Reaches deskAndChair.strings deskAndChair.sharedEvents shared ∧
      inline.sheet.cell? ⟨0, 0⟩ = shared.sheet.cell? ⟨0, 0⟩ := by
  obtain ⟨_, inline, shared, reachesInline, reachesShared, _, _, alike⟩ :=
    @rich_text_alike_iff deskAndChair [] {} rfl rfl (Sheet.cell?_empty _)
  exact ⟨inline, shared, reachesInline, reachesShared, alike.2 (.inl rfl)⟩

/-- **A phonetic run that makes a difference**: a cell of its own reads it, an item does not. -/
theorem phonetic_differs :
    (worksheet #[] (.ofBytes (Xml.ascii
        "<row><c t='inlineStr'><is><t>a</t><rPh><t>b</t></rPh></is></c></row>"))).toOption.bind
      (fun sheet => (sheet.cell? ⟨0, 0⟩).map Cell.render) = some "ab" ∧
    sharedStrings (.ofBytes (Xml.ascii "<sst><si><t>a</t><rPh><t>b</t></rPh></si></sst>"))
      = .ok #["a"] ∧
    (worksheet #["a"] (.ofBytes (Xml.ascii
        "<row><c t='s'><v>0</v></c></row>"))).toOption.bind
      (fun sheet => (sheet.cell? ⟨0, 0⟩).map Cell.render) = some "a" := by
  decide +kernel

end ColumnCalc.Workbook
