/-
**Tags, written and read back.**

A tag is written with white space wherever it has no meaning, and each attribute with either
quotation mark (`WrittenTag`). A reader looks for the bracket that ends the tag outside quotation
marks only (`Crossed`) and takes the name and the attributes apart as they were put together.

* `WrittenTag.crossed` — a tag that is written ends at its own bracket;
* `WrittenTag.attributes_tag` — its attributes are read back.
-/

import ColumnCalc.Proofs.Xml.Escaping
import ColumnCalc.Xml.Document

namespace ColumnCalc.Xml

open Text (Bytes)
open Text.Utf8 (encode)

/-! ### Tags -/

/-- A byte that may be part of a name: neither white space nor a mark. -/
def isNameByte (byte : UInt8) : Bool :=
  !isTrailing byte && !([0x21, 0x22, 0x27, 0x2F, 0x3C, 0x3D, 0x3E, 0x3F] : Bytes).contains byte

/-- A name of an element or an attribute. -/
def IsName (name : Bytes) : Prop :=
  name ≠ [] ∧ name.all isNameByte = true

/-- White space, or nothing. -/
def IsGap (gap : Bytes) : Prop :=
  gap.all isSpace = true

instance (name : Bytes) : Decidable (IsName name) := inferInstanceAs (Decidable (_ ∧ _))

instance (gap : Bytes) : Decidable (IsGap gap) := inferInstanceAs (Decidable (_ = _))

theorem isGap_nil : IsGap [] := rfl

/-- **An attribute as it is written.** -/
structure WrittenAttribute where
  /-- White space in front of the name. -/
  gap : Bytes := [0x20]
  key : Bytes
  /-- White space in front of the equals sign. -/
  before : Bytes := []
  /-- White space behind the equals sign. -/
  behind : Bytes := []
  /-- The quotation mark. -/
  mark : UInt8 := 0x22
  value : Bytes
  isGap : gap ≠ [] ∧ IsGap gap := by decide
  isName : IsName key
  areGaps : IsGap before ∧ IsGap behind := by decide
  isMark : mark = 0x22 ∨ mark = 0x27 := by decide
  noMark : mark ∉ value

namespace WrittenAttribute

def bytes (written : WrittenAttribute) : Bytes :=
  written.gap ++ written.key ++ written.before ++ 0x3D :: written.behind
    ++ written.mark :: written.value ++ [written.mark]

/-- The attribute that is written. -/
def pair (written : WrittenAttribute) : Attribute :=
  ⟨written.key, written.value⟩

/-- An attribute as it is usually written: between double quotation marks, its value escaped. -/
def usual (key value : String) (isKey : IsName (ascii key)) : WrittenAttribute where
  key := ascii key
  value := encode (escape value.toList)
  isName := isKey
  noMark := quote_notMem_escape value.toList

end WrittenAttribute

/-- **A start tag or a single tag as it is written**, without the angle brackets. -/
structure WrittenTag where
  name : Bytes
  attributes : List WrittenAttribute := []
  /-- White space at the end. -/
  trailing : Bytes := []
  isName : IsName name
  distinct : (attributes.map WrittenAttribute.key).Nodup
  isGap : IsGap trailing := by decide

namespace WrittenTag

/-- What stands behind the name. -/
def body (written : WrittenTag) : Bytes :=
  written.attributes.flatMap WrittenAttribute.bytes ++ written.trailing

/-- The tag that is written. -/
def tag (written : WrittenTag) : Tag :=
  ⟨written.name, written.body⟩

def content (written : WrittenTag) : Bytes :=
  written.name ++ written.body

/-- A tag without attributes. -/
def bare (name : String) (isName : IsName (ascii name)) : WrittenTag where
  name := ascii name
  attributes := []
  isName := isName
  distinct := .nil
  isGap := isGap_nil

/-- A tag with one attribute. -/
def one (name key value : String) (isName : IsName (ascii name)) (isKey : IsName (ascii key)) :
    WrittenTag where
  name := ascii name
  attributes := [.usual key value isKey]
  isName := isName
  distinct := by simp
  isGap := isGap_nil

end WrittenTag

/-! ### Names and white space -/

theorem not_isSpace_of_isNameByte {byte : UInt8} (inName : isNameByte byte = true) :
    isSpace byte = false := by
  simp only [isNameByte, isTrailing, Bool.and_eq_true, Bool.not_eq_true', Bool.or_eq_false_iff]
    at inName
  exact inName.1.1

theorem not_mark_of_isNameByte {byte mark : UInt8} (inName : isNameByte byte = true)
    (isMark : isNameByte mark = false) : byte ≠ mark := by
  rintro rfl
  rw [inName] at isMark
  cases isMark

theorem IsName.first {name : Bytes} (isName : IsName name) :
    ∃ first rest, name = first :: rest ∧ isNameByte first = true := by
  obtain ⟨first, rest, rfl⟩ := List.exists_cons_of_ne_nil isName.1
  exact ⟨first, rest, rfl, List.all_eq_true.1 isName.2 first (.head _)⟩

theorem IsName.byte {name : Bytes} (isName : IsName name) {byte : UInt8} (member : byte ∈ name) :
    isNameByte byte = true :=
  List.all_eq_true.1 isName.2 byte member

/-- White space is passed over up to something else. -/
theorem IsGap.dropWhile {gap : Bytes} (isGap : IsGap gap) (rest : Bytes) :
    (gap ++ rest).dropWhile isSpace = rest.dropWhile isSpace :=
  List.dropWhile_append_of_pos fun byte member => List.all_eq_true.1 isGap byte member

/-- White space that is there comes first. -/
theorem IsGap.first {gap : Bytes} (isGap : IsGap gap) (nonempty : gap ≠ []) (rest : Bytes) :
    ∀ byte ∈ (gap ++ rest).head?, isSpace byte = true := by
  obtain ⟨space, more, rfl⟩ := List.exists_cons_of_ne_nil nonempty
  rintro byte ⟨⟩
  exact List.all_eq_true.1 isGap space (.head _)

theorem dropWhile_isSpace_cons {byte : UInt8} (notSpace : isSpace byte = false) (rest : Bytes) :
    (byte :: rest).dropWhile isSpace = byte :: rest := by
  rw [List.dropWhile_cons, notSpace]
  rfl

/-- What is kept up to something that stops, and what is left. -/
theorem splitWhile_append {α : Type} {keep : α → Bool} {items : List α}
    (kept : ∀ item ∈ items, keep item = true) (rest : List α)
    (stops : ∀ item ∈ rest.head?, keep item = false) :
    (items ++ rest).takeWhile keep = items ∧ (items ++ rest).dropWhile keep = rest := by
  rw [List.takeWhile_append_of_pos kept, List.dropWhile_append_of_pos kept]
  cases rest with
  | nil => simp
  | cons item rest => simp [stops item rfl]

/-! ### The end of a tag -/

/-- Bytes with each quotation mark closed, and no closing bracket but between quotation marks. -/
def Crossed (bytes : Bytes) : Prop :=
  ∀ rest, splitTag none (bytes ++ rest)
    = (bytes ++ (splitTag none rest).1, (splitTag none rest).2)

theorem Crossed.nil : Crossed [] := fun _ => rfl

theorem Crossed.append {first second : Bytes} (isFirst : Crossed first)
    (isSecond : Crossed second) : Crossed (first ++ second) := by
  intro rest
  rw [List.append_assoc, isFirst, isSecond, List.append_assoc]

theorem Crossed.flatMap {α : Type} {items : List α} {bytes : α → Bytes}
    (each : ∀ item ∈ items, Crossed (bytes item)) : Crossed (items.flatMap bytes) := by
  induction items with
  | nil => exact .nil
  | cons item items ih =>
    rw [List.flatMap_cons]
    exact (each item (.head _)).append (ih fun other member => each other (.tail _ member))

theorem crossed_of_plain {bytes : Bytes}
    (plain : ∀ byte ∈ bytes, byte ≠ 0x3E ∧ byte ≠ 0x22 ∧ byte ≠ 0x27) : Crossed bytes := by
  induction bytes with
  | nil => exact .nil
  | cons byte bytes ih =>
    intro rest
    obtain ⟨noEnd, noQuote, noApostrophe⟩ := plain byte (.head _)
    have others := ih (fun other member => plain other (.tail _ member)) rest
    simp only [List.cons_append, splitTag, noEnd, noQuote, noApostrophe, or_self, if_false, others]

/-- Between quotation marks everything is passed over but the mark. -/
theorem splitTag_quoted {mark : UInt8} {value : Bytes} (noMark : mark ∉ value) (rest : Bytes) :
    splitTag (some mark) (value ++ mark :: rest)
      = (value ++ mark :: (splitTag none rest).1, (splitTag none rest).2) := by
  induction value with
  | nil => simp [splitTag]
  | cons byte value ih =>
    simp only [List.mem_cons, not_or] at noMark
    simp only [List.cons_append, splitTag, if_neg (Ne.symm noMark.1), ih noMark.2]

theorem crossed_quoted {mark : UInt8} (isMark : mark = 0x22 ∨ mark = 0x27) {value : Bytes}
    (noMark : mark ∉ value) : Crossed (mark :: value ++ [mark]) := by
  intro rest
  have noEnd : mark ≠ 0x3E := by
    rintro rfl
    rcases isMark with same | same <;> cases same
  have quoted := splitTag_quoted noMark rest
  simp only [List.cons_append, List.append_assoc, List.nil_append, splitTag, noEnd, if_false,
    if_pos isMark, quoted]

theorem crossed_gap {gap : Bytes} (isGap : IsGap gap) : Crossed gap := by
  refine crossed_of_plain fun byte member => ?_
  have space := List.all_eq_true.1 isGap byte member
  refine ⟨?_, ?_, ?_⟩ <;>
  · rintro rfl
    cases space

theorem crossed_name {name : Bytes} (isName : IsName name) : Crossed name :=
  crossed_of_plain fun _ member =>
    ⟨not_mark_of_isNameByte (isName.byte member) rfl,
      not_mark_of_isNameByte (isName.byte member) rfl,
      not_mark_of_isNameByte (isName.byte member) rfl⟩

theorem WrittenAttribute.crossed (written : WrittenAttribute) : Crossed written.bytes := by
  have sign : Crossed [0x3D] := crossed_of_plain fun byte member => by
    cases List.mem_singleton.1 member
    decide
  have front := ((crossed_gap written.isGap.2).append (crossed_name written.isName)).append
    (crossed_gap written.areGaps.1)
  have further := (front.append (sign.append (crossed_gap written.areGaps.2))).append
    (crossed_quoted written.isMark written.noMark)
  simpa [WrittenAttribute.bytes] using further

theorem WrittenTag.crossed (written : WrittenTag) : Crossed written.content :=
  (crossed_name written.isName).append
    ((Crossed.flatMap fun written _ => written.crossed).append (crossed_gap written.isGap))

theorem Crossed.splitTag {content : Bytes} (crossed : Crossed content) (rest : Bytes) :
    Xml.splitTag none (content ++ 0x3E :: rest) = (content, rest) := by
  rw [crossed, Xml.splitTag]
  simp

theorem Crossed.splitTag_single {content : Bytes} (crossed : Crossed content) (rest : Bytes) :
    Xml.splitTag none (content ++ 0x2F :: 0x3E :: rest) = (content ++ [0x2F], rest) := by
  rw [crossed]
  simp [Xml.splitTag]

/-! ### Attributes -/

theorem not_endsKey_of_isNameByte {byte : UInt8} (inName : isNameByte byte = true) :
    endsKey byte = false := by
  have noSign : byte ≠ 0x3D := not_mark_of_isNameByte inName rfl
  simp [endsKey, noSign, not_isSpace_of_isNameByte inName]

/-- **A quoted value is read** up to the mark that closes it. -/
theorem valueStep_quoted {mark : UInt8} (isMark : mark = 0x22 ∨ mark = 0x27) {value : Bytes}
    (noMark : mark ∉ value) {gap : Bytes} (isGap : IsGap gap) (key rest : Bytes) :
    valueStep key (gap ++ mark :: (value ++ mark :: rest)) = ⟨key, some ⟨key, value⟩, rest⟩ := by
  have notSpace : isSpace mark = false := by
    rcases isMark with rfl | rfl <;> rfl
  have inside : ∀ byte ∈ value, (byte != mark) = true := fun byte member => by
    rw [bne_iff_ne]
    rintro rfl
    exact noMark member
  obtain ⟨isValue, isRest⟩ := splitWhile_append inside (mark :: rest) (by simp)
  unfold valueStep
  rw [isGap.dropWhile, dropWhile_isSpace_cons notSpace]
  simp only [if_pos isMark, isRest, isValue]

/-- **The first attribute of a tag's body is read.** -/
theorem WrittenAttribute.step_eq (written : WrittenAttribute) {seen : List Bytes}
    (isNew : written.key ∉ seen) (rest : Bytes) :
    ∃ first behind, (written.bytes ++ rest).dropWhile isSpace = first :: behind ∧
      attributeStep seen first behind = ⟨written.key, some written.pair, rest⟩ := by
  obtain ⟨first, key, isKey, inName⟩ := written.isName.first
  obtain ⟨quoted, isQuoted⟩ : ∃ quoted, quoted = written.behind
    ++ written.mark :: (written.value ++ written.mark :: rest) := ⟨_, rfl⟩
  obtain ⟨tail, isTail⟩ : ∃ tail, tail = written.before ++ 0x3D :: quoted := ⟨_, rfl⟩
  have whole : written.bytes ++ rest = written.gap ++ first :: (key ++ tail) := by
    simp [WrittenAttribute.bytes, isTail, isQuoted, isKey]
  have inKey : ∀ byte ∈ key, (!endsKey byte) = true := fun byte member => by
    rw [not_endsKey_of_isNameByte (written.isName.byte (isKey ▸ .tail _ member))]
    rfl
  have stops : ∀ byte ∈ tail.head?, (!endsKey byte) = false := by
    rw [isTail]
    by_cases nothing : written.before = []
    · rw [nothing]
      rintro byte ⟨⟩
      rfl
    · intro byte isFirst
      rw [endsKey, written.areGaps.1.first nothing _ byte isFirst, Bool.or_true]
      rfl
  obtain ⟨taken, left⟩ := splitWhile_append inKey tail stops
  refine ⟨first, key ++ tail, ?_, ?_⟩
  · rw [whole, written.isGap.2.dropWhile,
      dropWhile_isSpace_cons (not_isSpace_of_isNameByte inName)]
  · rw [attributeStep, taken, left, ← isKey, keyStep, isTail, written.areGaps.1.dropWhile,
      dropWhile_isSpace_cons rfl]
    simp only [if_true, List.contains_iff_mem, if_neg isNew]
    rw [isQuoted, valueStep_quoted written.isMark written.noMark written.areGaps.2]
    rfl

/-- Attributes that are written are read, one after another. -/
theorem attributesFrom_written {written : List WrittenAttribute} {seen : List Bytes}
    (distinct : (written.map WrittenAttribute.key).Nodup)
    (areNew : ∀ one ∈ written, one.key ∉ seen) {trailing : Bytes} (isGap : IsGap trailing) :
    attributesFrom seen (written.flatMap WrittenAttribute.bytes ++ trailing)
      = written.map WrittenAttribute.pair := by
  induction written generalizing seen with
  | nil =>
    have nothing : ([] ++ trailing).dropWhile isSpace = [] := by
      have passed := isGap.dropWhile []
      rwa [List.append_nil] at passed
    rw [List.flatMap_nil, attributesFrom]
    split
    · rfl
    · rename_i found
      rw [nothing] at found
      cases found
  | cons one others ih =>
    rw [List.map_cons, List.nodup_cons] at distinct
    obtain ⟨first, behind, starts, step⟩ := one.step_eq (areNew one (.head _))
      (others.flatMap WrittenAttribute.bytes ++ trailing)
    have further : ∀ other ∈ others, other.key ∉ one.key :: seen := by
      intro other member
      rw [List.mem_cons, not_or]
      refine ⟨fun same => distinct.1 ?_, areNew other (.tail _ member)⟩
      rw [← same]
      exact List.mem_map_of_mem member
    rw [List.flatMap_cons, List.append_assoc, attributesFrom]
    split
    · rename_i found
      rw [starts] at found
      cases found
    · rename_i found
      rw [starts] at found
      cases found
      simp only [step, ih distinct.2 further, List.map_cons]

/-- **The attributes of a tag that is written are read back.** -/
theorem WrittenTag.attributes_tag (written : WrittenTag) :
    written.tag.attributes = written.attributes.map WrittenAttribute.pair :=
  attributesFrom_written written.distinct (fun _ _ => List.not_mem_nil) written.isGap

/-- Behind the name of a tag there is white space, or nothing. -/
theorem WrittenTag.ofContent_content (written : WrittenTag) :
    Tag.ofContent written.content = written.tag := by
  have inName : ∀ byte ∈ written.name, (!isSpace byte) = true := fun byte member => by
    rw [not_isSpace_of_isNameByte (written.isName.byte member)]
    rfl
  have space : ∀ byte ∈ written.body.head?, isSpace byte = true := by
    unfold WrittenTag.body
    cases written.attributes with
    | nil =>
      by_cases nothing : written.trailing = []
      · simp [nothing]
      · simpa using written.isGap.first nothing []
    | cons one others =>
      simp only [List.flatMap_cons, WrittenAttribute.bytes, List.append_assoc]
      exact one.isGap.2.first one.isGap.1 _
  have stops : ∀ byte ∈ written.body.head?, (!isSpace byte) = false := fun byte isFirst => by
    rw [space byte isFirst]
    rfl
  obtain ⟨taken, left⟩ := splitWhile_append inName written.body stops
  rw [Tag.ofContent, WrittenTag.content, taken, left]
  rfl

/-- A tag that is written does not end like a single one. -/
theorem WrittenTag.getLast?_content (written : WrittenTag) :
    written.content.getLast? ≠ some 0x2F := by
  have nameLast : written.name.getLast? ≠ some 0x2F := fun isLast =>
    not_mark_of_isNameByte (written.isName.byte (List.mem_of_getLast? isLast)) rfl rfl
  have gapLast : written.trailing.getLast? ≠ some 0x2F := fun isLast => by
    have space := List.all_eq_true.1 written.isGap _ (List.mem_of_getLast? isLast)
    cases space
  have attributeLast : ∀ one : WrittenAttribute, one.bytes.getLast? = some one.mark := fun one => by
    rw [WrittenAttribute.bytes, List.getLast?_concat]
  have listLast : ∀ attributes : List WrittenAttribute,
      (attributes.flatMap WrittenAttribute.bytes).getLast? ≠ some 0x2F := by
    intro attributes
    rcases List.eq_nil_or_concat attributes with rfl | ⟨others, last, rfl⟩
    · simp
    · rw [List.concat_eq_append, List.flatMap_append, List.flatMap_singleton,
        List.getLast?_append, attributeLast]
      rcases last.isMark with isMark | isMark <;> simp [isMark]
  rw [WrittenTag.content, WrittenTag.body, List.getLast?_append, List.getLast?_append]
  cases isTrailing : written.trailing.getLast? with
  | some byte =>
    rw [isTrailing] at gapLast
    exact gapLast
  | none =>
    cases isAttribute : (written.attributes.flatMap WrittenAttribute.bytes).getLast? with
    | some byte => simpa [isAttribute] using listLast written.attributes
    | none => simpa using nameLast

end ColumnCalc.Xml
