/-
**Markup, written and read back.**

A document is written piece by piece: tags, texts, and what a reader passes over (`Piece`). Closing
tags have to match, but what is open at the end may stay open (`arranged`). What is written is read
as the events of the pieces.

* `read_piece` — a piece is read as its event, whatever follows it;
* `ofBytes_of_spells` — a document is read as the events of its pieces.
-/

import ColumnCalc.Proofs.Xml.Tags

namespace ColumnCalc.Xml

open Text (Bytes)
open Text.Utf8 (byteOrderMark dropByteOrderMark)

/-! ### Pieces -/

/-- **A piece of a document.** -/
inductive Piece where
  | start (tag : WrittenTag)
  | single (tag : WrittenTag)
  /-- A closing tag; white space may stand behind its name. -/
  | close (name trailing : Bytes) (isName : IsName name) (isGap : IsGap trailing)
  | text (content : Bytes) (nonempty : content ≠ []) (noTag : 0x3C ∉ content)
  | comment (content : Bytes) (noEnd : ¬ ascii "-->" <:+: content)
  | cdata (content : Bytes) (noEnd : ¬ ascii "]]>" <:+: content)
  | instruction (content : Bytes) (nonempty : content ≠ []) (noEnd : 0x3E ∉ content)

namespace Piece

/-- A closing tag without white space. -/
def closing (tag : WrittenTag) : Piece :=
  .close tag.name [] tag.isName isGap_nil

def bytes : Piece → Bytes
  | start tag => 0x3C :: (tag.content ++ [0x3E])
  | single tag => 0x3C :: (tag.content ++ [0x2F, 0x3E])
  | close name trailing _ _ => 0x3C :: 0x2F :: (name ++ trailing ++ [0x3E])
  | text content _ _ => content
  | comment content _ => ascii "<!--" ++ content ++ ascii "-->"
  | cdata content _ => ascii "<![CDATA[" ++ content ++ ascii "]]>"
  | instruction content _ _ => ascii "<?" ++ content ++ ascii "?>"

/-- What a piece is read as. -/
def event : Piece → Event
  | start tag => .start tag.tag
  | single tag => .single tag.tag
  | close name _ _ _ => .close name
  | text content _ _ => .text content
  | comment _ _ => .other
  | cdata _ _ => .other
  | instruction _ _ _ => .other

def isText : Piece → Bool
  | text _ _ _ => true
  | _ => false

/-- The tags that are open behind a piece; a closing tag must have the name of the innermost. -/
def behind (opened : List Bytes) : Piece → Option (List Bytes)
  | start tag => some (tag.name :: opened)
  | close name _ _ _ => if opened.head? = some name then some opened.tail else none
  | _ => some opened

end Piece

/-- Whether pieces may stand in a row: closing tags match, and a text reaches up to the next tag. -/
def arranged (opened : List Bytes) : List Piece → Bool
  | [] => true
  | piece :: rest =>
    match piece.behind opened with
    | some after => !(piece.isText && rest.head?.any Piece.isText) && arranged after rest
    | none => false

/-- **A part is written as pieces**, with or without a byte order mark. -/
structure Spells (content : Bytes) (pieces : List Piece) : Prop where
  isContent : content = pieces.flatMap Piece.bytes ∨
    content = byteOrderMark ++ pieces.flatMap Piece.bytes
  noMark : (pieces.flatMap Piece.bytes).head? ≠ some 0xEF
  isArranged : arranged [] pieces = true

/-! ### Reading pieces -/

/-- What ends a comment or a CDATA section is found where it stands first. -/
theorem behindMark_eq {dash : UInt8} (noBracket : dash ≠ 0x3E) {content : Bytes}
    (noEnd : ¬ [dash, dash, 0x3E] <:+: content) (rest : Bytes) :
    behindMark? [dash, dash, 0x3E] (content ++ ([dash, dash, 0x3E] ++ rest)) = some rest := by
  induction content with
  | nil => simp [behindMark?]
  | cons byte content ih =>
    have later : ¬ [dash, dash, 0x3E] <:+: content := fun inside =>
      noEnd (inside.trans (List.suffix_cons byte content).isInfix)
    have notHere : ¬ [dash, dash, 0x3E] <+: byte :: (content ++ ([dash, dash, 0x3E] ++ rest)) := by
      -- The mark cannot begin in the content and end behind it, since its last byte is another.
      rintro ⟨more, same⟩
      cases content with
      | nil =>
        simp only [List.cons_append, List.nil_append, List.cons.injEq] at same
        exact noBracket same.2.2.1.symm
      | cons second content =>
        cases content with
        | nil =>
          simp only [List.cons_append, List.nil_append, List.cons.injEq] at same
          exact noBracket same.2.2.1.symm
        | cons third content =>
          simp only [List.cons_append, List.nil_append, List.cons.injEq] at same
          obtain ⟨rfl, rfl, rfl, _⟩ := same
          exact noEnd ⟨[], content, rfl⟩
    rw [List.cons_append, behindMark?, if_neg (by rwa [List.isPrefixOf_iff_prefix])]
    exact ih later

theorem closingName_eq {name trailing : Bytes} (isName : IsName name) (isGap : IsGap trailing) :
    closingName (name ++ trailing) = name := by
  have inName : ∀ byte ∈ name, isTrailing byte = false := fun byte member => by
    have named := isName.byte member
    simp only [isNameByte, Bool.and_eq_true, Bool.not_eq_true'] at named
    exact named.1
  have inTrailing : ∀ byte ∈ trailing, isTrailing byte = true := fun byte member => by
    rw [isTrailing, List.all_eq_true.1 isGap byte member]
    rfl
  obtain ⟨first, rest, isFirst, _⟩ := isName.first
  have notAll : (name ++ trailing).all isTrailing = false := by
    rw [isFirst, List.cons_append, List.all_cons, inName first (isFirst ▸ .head _)]
    rfl
  have behind : ∀ byte ∈ trailing.reverse, isTrailing byte = true := fun byte member =>
    inTrailing byte (List.mem_reverse.1 member)
  have kept := (splitWhile_append behind name.reverse fun byte isLast =>
    inName byte (List.mem_reverse.1 (List.mem_of_mem_head? isLast))).2
  rw [closingName, notAll, if_neg (by simp), List.reverse_append, kept, List.reverse_reverse]

/-- A name behind an opening bracket starts a tag. -/
theorem read_named {name : Bytes} (isName : IsName name) (opened : List Bytes) (rest : Bytes) :
    read opened (0x3C :: (name ++ rest)) = readTag opened (name ++ rest) := by
  obtain ⟨first, more, rfl, inName⟩ := isName.first
  have noBang : first ≠ 0x21 := not_mark_of_isNameByte inName rfl
  have noSlash : first ≠ 0x2F := not_mark_of_isNameByte inName rfl
  have noQuestion : first ≠ 0x3F := not_mark_of_isNameByte inName rfl
  simp [read, readMarkup, noBang, noSlash, noQuestion]

theorem read_start (tag : WrittenTag) (opened : List Bytes) (rest : Bytes) :
    read opened ((Piece.start tag).bytes ++ rest)
      = .event (.start tag.tag) (tag.name :: opened) rest := by
  have whole : (Piece.start tag).bytes ++ rest
      = 0x3C :: (tag.name ++ (tag.body ++ 0x3E :: rest)) := by
    simp [Piece.bytes, WrittenTag.content]
  rw [whole, read_named tag.isName, ← List.append_assoc, ← WrittenTag.content, readTag,
    tag.crossed.splitTag]
  simp only [if_neg tag.getLast?_content, tag.ofContent_content]
  rfl

theorem read_single (tag : WrittenTag) (opened : List Bytes) (rest : Bytes) :
    read opened ((Piece.single tag).bytes ++ rest) = .event (.single tag.tag) opened rest := by
  have whole : (Piece.single tag).bytes ++ rest
      = 0x3C :: (tag.name ++ (tag.body ++ 0x2F :: 0x3E :: rest)) := by
    simp [Piece.bytes, WrittenTag.content]
  rw [whole, read_named tag.isName, ← List.append_assoc, ← WrittenTag.content, readTag,
    tag.crossed.splitTag_single]
  simp only [List.getLast?_concat, if_true, List.dropLast_concat, tag.ofContent_content]

theorem read_close {name trailing : Bytes} (isName : IsName name) (isGap : IsGap trailing)
    (outer : List Bytes) (rest : Bytes) :
    read (name :: outer) ((Piece.close name trailing isName isGap).bytes ++ rest)
      = .event (.close name) outer rest := by
  have inside : ∀ byte ∈ name ++ trailing, (byte != 0x3E) = true := by
    intro byte member
    rw [bne_iff_ne]
    rcases List.mem_append.1 member with inName | inGap
    · exact not_mark_of_isNameByte (isName.byte inName) rfl
    · rintro rfl
      cases List.all_eq_true.1 isGap _ inGap
  obtain ⟨taken, left⟩ := splitWhile_append inside (0x3E :: rest) (by simp)
  have whole : (Piece.close name trailing isName isGap).bytes ++ rest
      = 0x3C :: 0x2F :: ((name ++ trailing) ++ 0x3E :: rest) := by
    simp [Piece.bytes]
  have markup : read (name :: outer) (0x3C :: 0x2F :: ((name ++ trailing) ++ 0x3E :: rest))
      = readClosing (name :: outer) ((name ++ trailing) ++ 0x3E :: rest) := rfl
  rw [whole, markup, readClosing, splitBracket, taken, left]
  simp only [closingName_eq isName isGap, if_true, List.drop_one, List.tail_cons]

/-- A text reaches up to the next tag, or to the end. -/
theorem read_text {content : Bytes} (nonempty : content ≠ []) (noTag : 0x3C ∉ content)
    (opened : List Bytes) {rest : Bytes} (ends : ∀ byte ∈ rest.head?, byte = 0x3C) :
    read opened (content ++ rest) = .event (.text content) opened rest := by
  have inside : ∀ byte ∈ content, (byte != 0x3C) = true := fun byte member => by
    rw [bne_iff_ne]
    rintro rfl
    exact noTag member
  obtain ⟨taken, left⟩ := splitWhile_append inside rest fun byte isFirst => by
    simp [ends byte isFirst]
  obtain ⟨first, more, rfl⟩ := List.exists_cons_of_ne_nil nonempty
  have isText : first ≠ 0x3C := by simpa using inside first (.head _)
  rw [List.cons_append, read, if_neg isText, ← List.cons_append, taken, left]

theorem read_comment {content : Bytes} (noEnd : ¬ ascii "-->" <:+: content) (opened : List Bytes)
    (rest : Bytes) :
    read opened ((Piece.comment content noEnd).bytes ++ rest) = .event .other opened rest := by
  have whole : (Piece.comment content noEnd).bytes ++ rest
      = 0x3C :: 0x21 :: 0x2D :: 0x2D :: (content ++ ([0x2D, 0x2D, 0x3E] ++ rest)) := by
    have opening : ascii "<!--" = [0x3C, 0x21, 0x2D, 0x2D] := by decide
    have closing : ascii "-->" = [0x2D, 0x2D, 0x3E] := by decide
    simp [Piece.bytes, opening, closing]
  have found : behindBang? (0x2D :: 0x2D :: (content ++ ([0x2D, 0x2D, 0x3E] ++ rest)))
      = some rest := behindMark_eq (by decide) noEnd rest
  rw [whole, read, if_pos rfl, readMarkup, if_pos rfl, found]

theorem read_cdata {content : Bytes} (noEnd : ¬ ascii "]]>" <:+: content) (opened : List Bytes)
    (rest : Bytes) :
    read opened ((Piece.cdata content noEnd).bytes ++ rest) = .event .other opened rest := by
  have whole : (Piece.cdata content noEnd).bytes ++ rest = 0x3C :: 0x21 :: (ascii "[CDATA["
      ++ (content ++ ([0x5D, 0x5D, 0x3E] ++ rest))) := by
    have opening : ascii "<![CDATA[" = 0x3C :: 0x21 :: ascii "[CDATA[" := by decide
    have closing : ascii "]]>" = [0x5D, 0x5D, 0x3E] := by decide
    simp [Piece.bytes, opening, closing]
  have found : behindBang? (ascii "[CDATA[" ++ (content ++ ([0x5D, 0x5D, 0x3E] ++ rest)))
      = some rest := behindMark_eq (by decide) noEnd rest
  rw [whole, read, if_pos rfl, readMarkup, if_pos rfl, found]

theorem read_instruction {content : Bytes} (nonempty : content ≠ []) (noEnd : 0x3E ∉ content)
    (opened : List Bytes) (rest : Bytes) :
    read opened ((Piece.instruction content nonempty noEnd).bytes ++ rest)
      = .event .other opened rest := by
  have inside : ∀ byte ∈ content ++ [0x3F], (byte != 0x3E) = true := by
    intro byte member
    rw [bne_iff_ne]
    rcases List.mem_append.1 member with inContent | isQuestion
    · rintro rfl
      exact noEnd inContent
    · cases List.mem_singleton.1 isQuestion
      decide
  obtain ⟨taken, left⟩ := splitWhile_append inside (0x3E :: rest) (by simp)
  have whole : (Piece.instruction content nonempty noEnd).bytes ++ rest
      = 0x3C :: 0x3F :: ((content ++ [0x3F]) ++ 0x3E :: rest) := by
    have opening : ascii "<?" = [0x3C, 0x3F] := by decide
    have closing : ascii "?>" = [0x3F, 0x3E] := by decide
    simp [Piece.bytes, opening, closing]
  have markup : read opened (0x3C :: 0x3F :: ((content ++ [0x3F]) ++ 0x3E :: rest))
      = readInstruction opened ((content ++ [0x3F]) ++ 0x3E :: rest) := rfl
  have long : 2 ≤ (content ++ [0x3F]).length := by
    have := List.length_pos_iff.2 nonempty
    rw [List.length_append, List.length_singleton]
    omega
  rw [whole, markup, readInstruction, splitBracket, taken, left]
  simp only [List.getLast?_concat, and_true, if_pos long, List.drop_one, List.tail_cons]

/-- **A piece is read as its event.** What follows a text must be a tag, or nothing. -/
theorem read_piece {piece : Piece} {opened after : List Bytes}
    (fits : piece.behind opened = some after) {rest : Bytes}
    (ends : piece.isText = true → ∀ byte ∈ rest.head?, byte = 0x3C) :
    read opened (piece.bytes ++ rest) = .event piece.event after rest := by
  cases piece with
  | start tag =>
    cases fits
    exact read_start tag opened rest
  | single tag =>
    cases fits
    exact read_single tag opened rest
  | close name trailing isName isGap =>
    cases opened with
    | nil => cases fits
    | cons innermost outer =>
      simp only [Piece.behind, List.head?_cons, Option.some.injEq, List.tail_cons] at fits
      split at fits
      · rename_i same
        cases fits
        subst same
        exact read_close isName isGap _ rest
      · cases fits
  | text content nonempty noTag =>
    cases fits
    exact read_text nonempty noTag opened (ends rfl)
  | comment content noEnd =>
    cases fits
    exact read_comment noEnd opened rest
  | cdata content noEnd =>
    cases fits
    exact read_cdata noEnd opened rest
  | instruction content nonempty noEnd =>
    cases fits
    exact read_instruction nonempty noEnd opened rest

/-! ### Documents -/

/-- Every piece but a text starts with an opening bracket. -/
theorem Piece.head?_bytes {piece : Piece} (noText : piece.isText = false) (rest : Bytes) :
    (piece.bytes ++ rest).head? = some 0x3C := by
  cases piece with
  | text => cases noText
  | _ => rfl

theorem readFrom_event {opened after : List Bytes} {bytes rest : Bytes} {event : Event}
    (found : read opened bytes = .event event after rest) :
    Document.readFrom opened bytes
      = ⟨event :: (Document.readFrom after rest).events,
          (Document.readFrom after rest).wellFormed⟩ := by
  rw [Document.readFrom]
  split
  · rename_i ended
    rw [ended] at found
    cases found
  · rename_i ended
    rw [ended] at found
    cases found
  · rename_i going
    rw [going] at found
    cases found
    rfl

/-- **Pieces in a row are read as their events.** -/
theorem readFrom_pieces {pieces : List Piece} {opened : List Bytes}
    (isArranged : arranged opened pieces = true) :
    Document.readFrom opened (pieces.flatMap Piece.bytes) = ⟨pieces.map Piece.event, true⟩ := by
  induction pieces generalizing opened with
  | nil =>
    rw [List.flatMap_nil, Document.readFrom]
    split
    · rfl
    · rename_i found
      cases found
    · rename_i found
      cases found
  | cons piece pieces ih =>
    rw [arranged] at isArranged
    split at isArranged
    · rename_i after fits
      rw [Bool.and_eq_true, Bool.not_eq_true'] at isArranged
      obtain ⟨apart, further⟩ := isArranged
      have ends : piece.isText = true → ∀ byte ∈ (pieces.flatMap Piece.bytes).head?,
          byte = 0x3C := by
        intro isText byte isFirst
        cases pieces with
        | nil => cases isFirst
        | cons next others =>
          have noText : next.isText = false := by simpa [isText] using apart
          rw [List.flatMap_cons, Piece.head?_bytes noText] at isFirst
          exact (Option.some.inj isFirst).symm
      rw [List.flatMap_cons, readFrom_event (read_piece fits ends), ih further, List.map_cons]
    · cases isArranged

/-- **A document is read as the events of its pieces.** -/
theorem ofBytes_of_spells {content : Bytes} {pieces : List Piece}
    (spells : Spells content pieces) :
    Document.ofBytes content = ⟨pieces.map Piece.event, true⟩ := by
  have dropped : dropByteOrderMark content = pieces.flatMap Piece.bytes := by
    rcases spells.isContent with rfl | rfl
    · have noMark := spells.noMark
      unfold dropByteOrderMark
      split
      · rename_i marked
        rw [marked] at noMark
        exact absurd rfl noMark
      · rfl
    · rfl
  rw [Document.ofBytes, dropped]
  exact readFrom_pieces spells.isArranged

end ColumnCalc.Xml
