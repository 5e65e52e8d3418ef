/-
**Shared strings, written and read back.**

An item holds rich text: segments, and phonetic runs around further ones. What an item is read as
leaves the phonetic runs out (`RichPart.shown`); what stands there is more (`RichPart.whole`).

* `foldlM_parts` — the rich text of an item;
* `sharedStrings_of_spells` — the items of a part, in order.
-/

import ColumnCalc.Proofs.Workbook.Segments
import ColumnCalc.Workbook.SharedStrings

namespace ColumnCalc.Workbook

open Text (Bytes)
open Xml (Event Piece WrittenTag IsGap Spells)

/-! ### Rich text -/

/-- **A part of a rich text**: a segment, or a phonetic run. -/
inductive RichPart where
  | segment (segment : Segment)
  | phonetic (tag : WrittenTag) (inner : List Segment) (trailing : Bytes) (isGap : IsGap trailing)

namespace RichPart

def pieces : RichPart → List Piece
  | segment one => one.pieces
  | phonetic tag inner trailing isGap =>
    .start tag :: (inner.flatMap Segment.pieces ++ [.close tag.name trailing tag.isName isGap])

/-- All text of a part. -/
def whole : RichPart → List Char
  | segment one => one.text
  | phonetic _ inner _ _ => inner.flatMap Segment.text

/-- The text of a part that is not phonetic. -/
def shown : RichPart → List Char
  | segment one => one.text
  | phonetic _ _ _ _ => []

/-- The phonetic text of a part. -/
def reading : RichPart → List Char
  | segment _ => []
  | phonetic _ inner _ _ => inner.flatMap Segment.text

end RichPart

/-- Events that the reader of shared strings passes over where it reads no text. -/
def StringElement.passes : Event → Bool
  | .start tag => StringElement.ofName tag.name = .other
  | .single tag => StringElement.ofName tag.name ≠ .item
  | .close name => StringElement.ofName name = .other
  | .text _ => true
  | .other => true

/-- What may stand in an item: text elements, and what is passed over. -/
def Segment.InItem : Segment → Prop
  | alone piece => StringElement.passes piece.event = true
  | element written => written.tag.name = Xml.ascii "t"

/-- What may stand in an item; phonetic runs do not stand in one another. -/
def RichPart.InItem : RichPart → Prop
  | segment one => one.InItem
  | phonetic tag inner _ _ => tag.name = Xml.ascii "rPh" ∧ ∀ one ∈ inner, one.InItem

instance : DecidablePred Segment.InItem
  | .alone _ => inferInstanceAs (Decidable (_ = _))
  | .element _ => inferInstanceAs (Decidable (_ = _))

instance : DecidablePred RichPart.InItem
  | .segment one => inferInstanceAs (Decidable one.InItem)
  | .phonetic _ _ _ _ => inferInstanceAs (Decidable (_ ∧ _))

/-! ### The rich text of an item -/

namespace StringReading

variable {reading : StringReading}

theorem step_passed {event : Event} (passes : StringElement.passes event = true)
    (outside : reading.inText = false) : reading.step event = .ok reading := by
  cases event with
  | start tag => simp only [step, of_decide_eq_true passes]
  | single tag =>
    have notItem := of_decide_eq_true passes
    simp only [step]
  | close name => simp only [step, of_decide_eq_true passes]
  | text content => simp only [step, outside, Bool.false_and, Bool.false_eq_true, if_false]
  | other => rfl

/-- The reading with a text added, unless it is phonetic. -/
def adding (reading : StringReading) (text : List Char) : StringReading :=
  if reading.inPhonetic then reading
  else { reading with current := reading.current ++ String.ofList text }

theorem adding_nil (reading : StringReading) : reading.adding [] = reading := by
  rw [adding, String.ofList_nil, String.append_empty]
  exact ite_self reading

theorem adding_append (reading : StringReading) (text further : List Char) :
    (reading.adding text).adding further = reading.adding (text ++ further) := by
  cases phonetic : reading.inPhonetic <;>
    simp [adding, phonetic, String.ofList_append, String.append_assoc]

theorem adding_inText (text : List Char) : (reading.adding text).inText = reading.inText := by
  rw [adding]
  split <;> rfl

theorem adding_inPhonetic (text : List Char) :
    (reading.adding text).inPhonetic = reading.inPhonetic := by
  rw [adding]
  split <;> rfl

/-- **A text element adds its text.** -/
theorem foldlM_element {element : TextElement} (isText : element.tag.name = Xml.ascii "t")
    (outside : reading.inText = false) :
    (element.pieces.map Piece.event).foldlM step reading = .ok (reading.adding element.text) := by
  obtain ⟨items, current, inText, inPhonetic⟩ := reading
  cases outside
  have kind : StringElement.ofName element.tag.name = .text := by
    rw [isText]
    decide
  have opened : ∀ reading : StringReading, reading.step (.start element.tag.tag)
      = .ok { reading with inText := true } := fun reading => by
    simp only [step, WrittenTag.tag, kind]
  have closed : ∀ reading : StringReading, reading.step (.close element.tag.name)
      = .ok { reading with inText := false } := fun reading => by
    simp only [step, kind]
  rw [element.events_pieces, foldlM_cons_of_ok (opened _)]
  by_cases nothing : element.text = []
  · rw [if_pos nothing, nothing, adding_nil, List.nil_append, foldlM_cons_of_ok (closed _)]
    rfl
  · have added : step ⟨items, current, true, inPhonetic⟩ (.text (Text.Utf8.encode element.raw))
        = .ok (adding ⟨items, current, true, inPhonetic⟩ element.text) := by
      cases inPhonetic with
      | true => rfl
      | false =>
        simp only [step, Bool.not_false, Bool.and_self, if_true, element.textOf_encode]
        rfl
    rw [if_neg nothing, List.singleton_append, foldlM_cons_of_ok added,
      foldlM_cons_of_ok (closed _)]
    cases inPhonetic <;> rfl

/-- A fold that adds a text. -/
theorem foldlM_segments {segments : List Segment} (inItem : ∀ one ∈ segments, one.InItem)
    (outside : reading.inText = false) :
    (segments.flatMap Segment.pieces |>.map Piece.event).foldlM step reading
      = .ok (reading.adding (segments.flatMap Segment.text)) := by
  induction segments generalizing reading with
  | nil =>
    rw [List.flatMap_nil, List.flatMap_nil, adding_nil]
    rfl
  | cons one segments ih =>
    have first : (one.pieces.map Piece.event).foldlM step reading
        = .ok (reading.adding one.text) := by
      have fits := inItem one (.head _)
      cases one with
      | alone piece =>
        rw [Segment.text, adding_nil]
        exact foldlM_cons_of_ok (step_passed fits outside) []
      | element written => exact foldlM_element fits outside
    rw [List.flatMap_cons, List.flatMap_cons, List.map_append, foldlM_append_of_ok first,
      ← adding_append]
    exact ih (fun other member => inItem other (.tail _ member))
      (by rw [adding_inText, outside])

/-- **A rich text adds what is not phonetic.** -/
theorem foldlM_parts {parts : List RichPart} (inItem : ∀ part ∈ parts, part.InItem)
    (outside : reading.inText = false) (plain : reading.inPhonetic = false) :
    (parts.flatMap RichPart.pieces |>.map Piece.event).foldlM step reading
      = .ok (reading.adding (parts.flatMap RichPart.shown)) := by
  induction parts generalizing reading with
  | nil =>
    rw [List.flatMap_nil, List.flatMap_nil, adding_nil]
    rfl
  | cons part parts ih =>
    have first : (part.pieces.map Piece.event).foldlM step reading
        = .ok (reading.adding part.shown) := by
      have fits := inItem part (.head _)
      cases part with
      | segment one =>
        have all := foldlM_segments (List.forall_mem_singleton.2 (fits : one.InItem)) outside
        rwa [List.flatMap_singleton, List.flatMap_singleton] at all
      | phonetic tag inner trailing isGap =>
        obtain ⟨isPhonetic, innerFits⟩ := fits
        have kind : StringElement.ofName tag.name = .phonetic := by
          rw [isPhonetic]
          decide
        have opened : reading.step (.start tag.tag) = .ok { reading with inPhonetic := true } := by
          simp only [step, WrittenTag.tag, kind]
        have closed : step { reading with inPhonetic := true } (.close tag.name) = .ok reading := by
          simp only [step, kind, ← plain]
        have inside := @foldlM_segments { reading with inPhonetic := true } inner innerFits outside
        rw [adding, if_pos rfl] at inside
        rw [RichPart.pieces, List.map_cons, List.map_append]
        refine Eq.trans (foldlM_cons_of_ok opened _) ?_
        rw [foldlM_append_of_ok inside, RichPart.shown, adding_nil]
        exact foldlM_cons_of_ok closed []
    rw [List.flatMap_cons, List.flatMap_cons, List.map_append, foldlM_append_of_ok first,
      ← adding_append]
    exact ih (fun other member => inItem other (.tail _ member))
      (by rw [adding_inText, outside]) (by rw [adding_inPhonetic, plain])

end StringReading

/-! ### Items -/

/-- **A part of the shared strings**: an item, or what is passed over. -/
inductive StringPart where
  | item (tag : WrittenTag) (content : List RichPart) (trailing : Bytes) (isGap : IsGap trailing)
  /-- An item without content, as a single tag. -/
  | single (tag : WrittenTag)
  | passed (piece : Piece)

namespace StringPart

def pieces : StringPart → List Piece
  | item tag content trailing isGap =>
    .start tag :: (content.flatMap RichPart.pieces ++ [.close tag.name trailing tag.isName isGap])
  | single tag => [.single tag]
  | passed piece => [piece]

/-- The rich text of an item. -/
def content? : StringPart → Option (List RichPart)
  | item _ content _ _ => some content
  | single _ => some []
  | passed _ => none

/-- The text of an item. -/
def text? (part : StringPart) : Option String :=
  part.content?.map fun content => String.ofList (content.flatMap RichPart.shown)

/-- Elements have their names. -/
def IsValid : StringPart → Prop
  | item tag content _ _ => tag.name = Xml.ascii "si" ∧ ∀ part ∈ content, part.InItem
  | single tag => tag.name = Xml.ascii "si"
  | passed piece => StringElement.passes piece.event = true

end StringPart

instance : DecidablePred StringPart.IsValid
  | .item _ _ _ _ => inferInstanceAs (Decidable (_ ∧ _))
  | .single _ => inferInstanceAs (Decidable (_ = _))
  | .passed _ => inferInstanceAs (Decidable (_ = _))

/-- **A part adds its item**, if it is one. -/
theorem StringReading.foldlM_item {part : StringPart} (valid : part.IsValid)
    {reading : StringReading} (outside : reading.inText = false)
    (plain : reading.inPhonetic = false) :
    ∃ current, (part.pieces.map Piece.event).foldlM step reading
      = .ok { reading with items := reading.items ++ part.text?.toArray, current } := by
  cases part with
  | passed piece =>
    refine ⟨reading.current, ?_⟩
    refine Eq.trans (foldlM_cons_of_ok (step_passed valid outside) []) ?_
    simp [StringPart.text?, StringPart.content?, pure, Except.pure]
  | single tag =>
    have kind : StringElement.ofName tag.name = .item := by
      rw [show tag.name = _ from valid]
      decide
    have went : reading.step (.single tag.tag)
        = .ok { reading with items := reading.items.push "" } := by
      simp only [step, WrittenTag.tag, kind]
    refine ⟨reading.current, Eq.trans (foldlM_cons_of_ok went []) ?_⟩
    simp [StringPart.text?, StringPart.content?, pure, Except.pure]
  | item tag content trailing isGap =>
    obtain ⟨isItem, inItem⟩ := valid
    have kind : StringElement.ofName tag.name = .item := by
      rw [isItem]
      decide
    have opened : reading.step (.start tag.tag) = .ok { reading with current := "" } := by
      simp only [step, WrittenTag.tag, kind]
    have inside := @foldlM_parts { reading with current := "" } content inItem outside plain
    rw [adding, if_neg (by simp [plain])] at inside
    refine ⟨"", ?_⟩
    rw [StringPart.pieces, List.map_cons, List.map_append]
    refine Eq.trans (foldlM_cons_of_ok opened _) ?_
    rw [foldlM_append_of_ok inside]
    refine Eq.trans (foldlM_cons_of_ok ?_ []) rfl
    simp [step, Piece.event, kind, StringPart.text?, StringPart.content?]

theorem StringReading.foldlM_items {parts : List StringPart}
    (valid : ∀ part ∈ parts, part.IsValid) {reading : StringReading}
    (outside : reading.inText = false) (plain : reading.inPhonetic = false) :
    ∃ current, (parts.flatMap StringPart.pieces |>.map Piece.event).foldlM step reading
      = .ok { reading with items := reading.items ++ (parts.filterMap StringPart.text?).toArray,
                           current } := by
  induction parts generalizing reading with
  | nil => exact ⟨reading.current, by simp; rfl⟩
  | cons part parts ih =>
    obtain ⟨current, first⟩ := foldlM_item (valid part (.head _)) outside plain
    obtain ⟨last, others⟩ := @ih (fun other member => valid other (.tail _ member))
      { reading with items := reading.items ++ part.text?.toArray, current } outside plain
    refine ⟨last, ?_⟩
    rw [List.flatMap_cons, List.map_append, foldlM_append_of_ok first]
    refine Eq.trans others ?_
    cases isText : part.text? <;> simp [isText]

/-- **The shared strings are the texts of the items**, in order. -/
theorem sharedStrings_of_spells {content : Bytes} {parts : List StringPart}
    (spells : Spells content (parts.flatMap StringPart.pieces))
    (valid : ∀ part ∈ parts, part.IsValid) :
    sharedStrings (.ofBytes content) = .ok (parts.filterMap StringPart.text?).toArray := by
  obtain ⟨current, went⟩ := @StringReading.foldlM_items parts valid {} rfl rfl
  rw [Xml.ofBytes_of_spells spells, sharedStrings, foldEvents, went]
  simp [bind, Except.bind, pure, Except.pure]

end ColumnCalc.Workbook
