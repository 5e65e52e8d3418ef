/-
**Documents as streams of events.**

A document is read from front to back into start tags, single tags, closing tags and texts;
comments, CDATA sections, declarations and instructions are passed over. A closing tag must have the
name of the tag that it closes. Nothing need be closed when the document ends, and a tag that the
end cuts off counts as it stands, but a comment and the like must be complete. Reading stops at the
first fault: `Document.events` are the events in front of it.
-/

import ColumnCalc.Xml.Tag

namespace ColumnCalc.Xml

open Text (Bytes)

/-- What a document is made of. -/
inductive Event where
  | start (tag : Tag)
  /-- An element that is a single tag. -/
  | single (tag : Tag)
  | close (name : Bytes)
  | text (content : Bytes)
  /-- A comment, a CDATA section, a declaration or an instruction. -/
  | other
  deriving DecidableEq, Repr

/-- Splits a tag at its end: the first closing bracket outside quotes, or the end of the document.
`inside` is the quote that is open. -/
def splitTag (inside : Option UInt8) : Bytes → Bytes × Bytes
  | [] => ([], [])
  | byte :: rest =>
    let go (inside : Option UInt8) :=
      let (content, behind) := splitTag inside rest
      (byte :: content, behind)
    match inside with
    | some mark => go (if byte = mark then none else inside)
    | none =>
      if byte = 0x3E then ([], rest)
      else go (if byte = 0x22 ∨ byte = 0x27 then some byte else none)

/-- Splits at the first closing bracket, or the end of the document. -/
def splitBracket (bytes : Bytes) : Bytes × Bytes :=
  (bytes.takeWhile (· != 0x3E), (bytes.dropWhile (· != 0x3E)).drop 1)

/-- What follows the first occurrence of a mark. -/
def behindMark? (mark : Bytes) : Bytes → Option Bytes
  | [] => none
  | byte :: rest =>
    if mark.isPrefixOf (byte :: rest) then some ((byte :: rest).drop mark.length)
    else behindMark? mark rest

/-- A lower-case ASCII letter in upper case; other bytes as they are. -/
def upper (byte : UInt8) : UInt8 :=
  if 0x61 ≤ byte ∧ byte ≤ 0x7A then byte - 0x20 else byte

/-- What follows a keyword, in whichever case it is written. -/
def behindKeyword? (keyword : String) (bytes : Bytes) : Option Bytes :=
  let word := ascii keyword
  if (bytes.take word.length).map upper = word then some (bytes.drop word.length) else none

/-- What follows a document type declaration: the first closing bracket that no bracket inside
opened. `content` is whether something other than white space was there. -/
def behindDeclaration? (depth : Nat) (content : Bool) : Bytes → Option Bytes
  | [] => none
  | byte :: rest =>
    if byte = 0x3E ∧ depth = 0 then if content then some rest else none
    else
      let depth :=
        if byte = 0x3C then depth + 1 else if byte = 0x3E then depth - 1 else depth
      behindDeclaration? depth (content || !isSpace byte) rest

/-- What follows a comment, a CDATA section or a document type declaration. `bytes` starts behind
the exclamation mark. -/
def behindBang? (bytes : Bytes) : Option Bytes :=
  if (ascii "--").isPrefixOf bytes then behindMark? (ascii "-->") (bytes.drop 2)
  else
    match behindKeyword? "[CDATA[" bytes with
    | some rest => behindMark? (ascii "]]>") rest
    | none =>
      match behindKeyword? "DOCTYPE" bytes with
      | some rest => behindDeclaration? 0 false rest
      | none => none

/-- White space behind the name of a closing tag; here a form feed is some, too. -/
def isTrailing (byte : UInt8) : Bool :=
  isSpace byte || byte == 0x0C

/-- A closing tag's name: what it holds, without the white space at its end. -/
def closingName (content : Bytes) : Bytes :=
  if content.all isTrailing then content else (content.reverse.dropWhile isTrailing).reverse

/-- What one step of reading gives. -/
inductive Reading where
  /-- The document ends here. -/
  | finished
  | malformed
  /-- An event, the tags that are open behind it, the innermost first, and the rest. -/
  | event (event : Event) (opened : List Bytes) (rest : Bytes)

/-- Reads a closing tag. `bytes` starts behind the slash. -/
def readClosing (opened : List Bytes) (bytes : Bytes) : Reading :=
  let (content, rest) := splitBracket bytes
  let name := closingName content
  match opened with
  | innermost :: outer => if name = innermost then .event (.close name) outer rest else .malformed
  | [] => .malformed

/-- Reads an instruction. `bytes` starts behind the question mark. -/
def readInstruction (opened : List Bytes) (bytes : Bytes) : Reading :=
  let (content, rest) := splitBracket bytes
  if 2 ≤ content.length ∧ content.getLast? = some 0x3F then .event .other opened rest
  else .malformed

/-- Reads a start tag or a single tag. -/
def readTag (opened : List Bytes) (bytes : Bytes) : Reading :=
  let (content, rest) := splitTag none bytes
  if content.getLast? = some 0x2F then .event (.single (Tag.ofContent content.dropLast)) opened rest
  else
    let tag := Tag.ofContent content
    .event (.start tag) (tag.name :: opened) rest

/-- Reads markup. `bytes` starts behind the opening bracket. -/
def readMarkup (opened : List Bytes) (bytes : Bytes) : Reading :=
  match bytes with
  | [] => .finished
  | byte :: rest =>
    if byte = 0x21 then
      match behindBang? rest with
      | some rest => .event .other opened rest
      | none => .malformed
    else if byte = 0x2F then readClosing opened rest
    else if byte = 0x3F then readInstruction opened rest
    else readTag opened bytes

/-- Reads one event. -/
def read (opened : List Bytes) (bytes : Bytes) : Reading :=
  match bytes with
  | [] => .finished
  | byte :: rest =>
    if byte = 0x3C then readMarkup opened rest
    else .event (.text (bytes.takeWhile (· != 0x3C))) opened (bytes.dropWhile (· != 0x3C))

theorem splitTag_length (inside : Option UInt8) (bytes : Bytes) :
    (splitTag inside bytes).2.length ≤ bytes.length := by
  induction bytes generalizing inside with
  | nil => simp [splitTag]
  | cons byte rest hypothesis =>
    simp only [splitTag]
    repeat' split
    all_goals first
      | (simp; done)
      | (have bound := hypothesis none; simp only [List.length_cons]; omega)
      | (have bound := hypothesis (some byte); simp only [List.length_cons]; omega)
      | (rename_i mark _; have bound := hypothesis (some mark); simp only [List.length_cons]; omega)

theorem splitBracket_length (bytes : Bytes) : (splitBracket bytes).2.length ≤ bytes.length := by
  have inside := length_dropWhile_le (· != 0x3E) bytes
  simp only [splitBracket, List.length_drop]
  omega

theorem behindMark_length {mark bytes rest : Bytes} (found : behindMark? mark bytes = some rest) :
    rest.length ≤ bytes.length := by
  induction bytes with
  | nil => simp [behindMark?] at found
  | cons byte more hypothesis =>
    simp only [behindMark?] at found
    split at found
    · simp only [Option.some.injEq] at found
      subst found
      simp only [List.length_drop]
      omega
    · have bound := hypothesis found
      simp only [List.length_cons]
      omega

theorem behindDeclaration_length {depth : Nat} {content : Bool} {bytes rest : Bytes}
    (found : behindDeclaration? depth content bytes = some rest) : rest.length ≤ bytes.length := by
  induction bytes generalizing depth content with
  | nil => simp [behindDeclaration?] at found
  | cons byte more hypothesis =>
    simp only [behindDeclaration?] at found
    split at found
    · split at found
      · simp only [Option.some.injEq] at found
        simp [← found]
      · contradiction
    · have bound := hypothesis found
      simp only [List.length_cons]
      omega

theorem behindKeyword_length {keyword : String} {bytes rest : Bytes}
    (found : behindKeyword? keyword bytes = some rest) : rest.length ≤ bytes.length := by
  simp only [behindKeyword?] at found
  split at found
  · simp only [Option.some.injEq] at found
    simp [← found]
  · contradiction

theorem behindBang_length {bytes rest : Bytes} (found : behindBang? bytes = some rest) :
    rest.length ≤ bytes.length := by
  unfold behindBang? at found
  split at found
  · have bound := behindMark_length found
    simp only [List.length_drop] at bound
    omega
  · split at found
    · rename_i keyword
      have bound := behindKeyword_length keyword
      have more := behindMark_length found
      omega
    · split at found
      · rename_i keyword
        have bound := behindKeyword_length keyword
        have more := behindDeclaration_length found
        omega
      · contradiction

/-- Every event takes at least one byte. -/
theorem read_shorter {opened after : List Bytes} {bytes rest : Bytes} {event : Event}
    (found : read opened bytes = .event event after rest) : rest.length < bytes.length := by
  unfold read at found
  split at found
  · contradiction
  · rename_i byte more
    split at found
    · unfold readMarkup at found
      split at found
      · contradiction
      · rename_i second behind
        split at found
        · split at found
          · rename_i bang
            have bound := behindBang_length bang
            simp only [Reading.event.injEq] at found
            simp only [← found.2.2, List.length_cons]
            omega
          · contradiction
        · split at found
          · have bound := splitBracket_length behind
            simp only [readClosing] at found
            split at found
            · split at found
              · simp only [Reading.event.injEq] at found
                simp only [← found.2.2, List.length_cons]
                omega
              · contradiction
            · contradiction
          · split at found
            · have bound := splitBracket_length behind
              simp only [readInstruction] at found
              split at found
              · simp only [Reading.event.injEq] at found
                simp only [← found.2.2, List.length_cons]
                omega
              · contradiction
            · have bound := splitTag_length none (second :: behind)
              simp only [readTag] at found
              split at found <;>
              · simp only [Reading.event.injEq] at found
                simp only [← found.2.2, List.length_cons] at bound ⊢
                omega
    · rename_i notMarkup
      have different : (byte != 0x3C) = true := by simpa using notMarkup
      have bound := length_dropWhile_le (· != 0x3C) more
      simp only [Reading.event.injEq, List.dropWhile_cons, different] at found
      simp only [← found.2.2, List.length_cons]
      simp only [if_true]
      omega

/-- A document: its events up to the end or the first fault, and whether there is none. -/
structure Document where
  events : List Event
  wellFormed : Bool
  deriving Repr

/-- Reads a document on, with tags open. -/
def Document.readFrom (opened : List Bytes) (bytes : Bytes) : Document :=
  match _found : read opened bytes with
  | .finished => ⟨[], true⟩
  | .malformed => ⟨[], false⟩
  | .event event opened rest =>
    let document := readFrom opened rest
    { document with events := event :: document.events }
termination_by bytes.length
decreasing_by exact read_shorter _found

/-- Reads a document. A byte order mark in front is passed over. -/
def Document.ofBytes (bytes : Bytes) : Document :=
  readFrom [] (Text.Utf8.dropByteOrderMark bytes)

end ColumnCalc.Xml
