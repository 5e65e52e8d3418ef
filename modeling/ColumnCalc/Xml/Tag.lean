/-
**Tags and their attributes.**

A tag is a name and the text behind it. `attributes` reads that text from left to right and passes
over what is no attribute: a name without a value, a value without quotes, a name that was there
before. A value whose quote is not closed ends the list.
-/

import ColumnCalc.Text.Utf8
import ColumnCalc.Xml.Entity

namespace ColumnCalc.Xml

open Text (Bytes)

/-- The bytes of a name or a mark. -/
def ascii (text : String) : Bytes := Text.Utf8.encode text.toList

/-- White space within markup. -/
def isSpace (byte : UInt8) : Bool :=
  byte == 0x20 || byte == 0x09 || byte == 0x0A || byte == 0x0D

/-- A byte that ends an attribute's name. -/
def endsKey (byte : UInt8) : Bool :=
  byte == 0x3D || isSpace byte

/-- A start tag, or an element that is a single tag. -/
structure Tag where
  name : Bytes
  /-- What stands behind the name. -/
  body : Bytes
  deriving DecidableEq, Repr

/-- The tag of what stands between the angle brackets. -/
def Tag.ofContent (content : Bytes) : Tag :=
  ⟨content.takeWhile (!isSpace ·), content.dropWhile (!isSpace ·)⟩

/-- An attribute; the value is as it stands in the file. -/
structure Attribute where
  key : Bytes
  value : Bytes
  deriving DecidableEq, Repr

/-- What the start of a tag's body holds: an attribute or something that is none, in both cases with
the name that was read and where to go on. -/
structure AttributeStep where
  key : Bytes
  found : Option Attribute
  rest : Bytes

/-- Reads the value behind an equals sign. `text` starts behind the sign. -/
def valueStep (key text : Bytes) : AttributeStep :=
  match text.dropWhile isSpace with
  | [] => ⟨key, none, []⟩
  | mark :: rest =>
    if mark = 0x22 ∨ mark = 0x27 then
      match rest.dropWhile (· != mark) with
      | [] => ⟨key, none, []⟩
      | _ :: behind => ⟨key, some ⟨key, rest.takeWhile (· != mark)⟩, behind⟩
    else ⟨key, none, rest.dropWhile (!isSpace ·)⟩

/-- Reads on behind a name. A name that was there before is passed over up to the next space. -/
def keyStep (seen : List Bytes) (key text : Bytes) : AttributeStep :=
  match text.dropWhile isSpace with
  | [] => ⟨[], none, []⟩
  | byte :: rest =>
    if byte = 0x3D then
      if seen.contains key then ⟨key, none, rest.dropWhile (!isSpace ·)⟩
      else valueStep key rest
    else ⟨[], none, byte :: rest⟩

/-- Reads the first thing of a tag's body whose first byte, `first`, is no space. -/
def attributeStep (seen : List Bytes) (first : UInt8) (rest : Bytes) : AttributeStep :=
  keyStep seen (first :: rest.takeWhile (!endsKey ·)) (rest.dropWhile (!endsKey ·))

theorem length_dropWhile_le {α : Type} (keep : α → Bool) (items : List α) :
    (items.dropWhile keep).length ≤ items.length :=
  (List.dropWhile_suffix keep).length_le

/-- Reading a value leaves no more than there was. -/
theorem valueStep_length (key text : Bytes) :
    (valueStep key text).rest.length ≤ text.length := by
  have spaces := length_dropWhile_le isSpace text
  unfold valueStep
  split
  · simp
  · rename_i mark rest found
    have shorter : rest.length < text.length := by
      rw [found, List.length_cons] at spaces
      omega
    split
    · have inside := length_dropWhile_le (· != mark) rest
      split
      · simp
      · simp_all; omega
    · have inside := length_dropWhile_le (!isSpace ·) rest
      simp only
      omega

/-- Reading on behind a name leaves no more than there was. -/
theorem keyStep_length (seen : List Bytes) (key text : Bytes) :
    (keyStep seen key text).rest.length ≤ text.length := by
  have spaces := length_dropWhile_le isSpace text
  unfold keyStep
  split
  · simp
  · rename_i byte rest found
    have shorter : rest.length < text.length := by
      rw [found, List.length_cons] at spaces
      omega
    split
    · split
      · have inside := length_dropWhile_le (!isSpace ·) rest
        simp only
        omega
      · have inside := valueStep_length key rest
        omega
    · simp_all

/-- The attributes of a tag's body behind those whose names were `seen`. -/
def attributesFrom (seen : List Bytes) (body : Bytes) : List Attribute :=
  match _found : body.dropWhile isSpace with
  | [] => []
  | first :: rest =>
    let step := attributeStep seen first rest
    let more := attributesFrom (step.key :: seen) step.rest
    match step.found with
    | some pair => pair :: more
    | none => more
termination_by body.length
decreasing_by
  have spaces := length_dropWhile_le isSpace body
  have name := length_dropWhile_le (!endsKey ·) rest
  have value := keyStep_length seen (first :: rest.takeWhile (!endsKey ·))
    (rest.dropWhile (!endsKey ·))
  rw [_found, List.length_cons] at spaces
  simp only [attributeStep]
  omega

/-- The attributes of a tag, in order. -/
def Tag.attributes (tag : Tag) : List Attribute :=
  attributesFrom [] tag.body

/-- The text of a stretch of markup: its characters, with the references replaced. -/
def text? (content : Bytes) : Option (List Char) :=
  Text.Utf8.text? content >>= unescape?

end ColumnCalc.Xml
