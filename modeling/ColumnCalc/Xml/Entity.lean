/-
**Character references in markup.**

`unescape?` replaces the five predefined entities and numeric references by the characters they
stand for. An ampersand that starts neither is a fault, as is a number that names no character.
`escape` writes a text so that reading gives it back.
-/

import ColumnCalc.Number.Digit

namespace ColumnCalc.Xml

/-- The character of a predefined entity. -/
def predefined? : String → Option Char
  | "lt" => some '<'
  | "gt" => some '>'
  | "amp" => some '&'
  | "apos" => some '\''
  | "quot" => some '"'
  | _ => none

/-- The number that at most `most` digits in a base write. -/
def digitsNumber? (base most : Nat) (digit? : Char → Option Nat) (digits : List Char) :
    Option Nat :=
  if most < digits.length then none
  else
    digits.foldlM (fun number digit => (digit? digit).map (base * number + ·)) 0

/-- The character of a number; zero names none. -/
def charOfNumber? (number : Nat) : Option Char :=
  if number ≠ 0 ∧ number.isValidChar then some (Char.ofNat number) else none

/-- The character of a reference, without the ampersand and the semicolon. -/
def reference? : List Char → Option Char
  | '#' :: 'x' :: digits => digitsNumber? 16 6 hexValue? digits >>= charOfNumber?
  | '#' :: digits => digitsNumber? 10 7 decimalValue? digits >>= charOfNumber?
  | name => predefined? (String.ofList name)

/-- Replaces the references of a text. `pending` holds the characters of a reference whose
semicolon is not reached yet, last first. -/
def unescapeFrom? (pending : Option (List Char)) : List Char → Option (List Char)
  | [] =>
    match pending with
    | none => some []
    | some _ => none
  | c :: rest =>
    match pending with
    | none =>
      if c = '&' then unescapeFrom? (some []) rest else (unescapeFrom? none rest).map (c :: ·)
    | some name =>
      if c = '&' then none
      else if c = ';' then do
        let referred ← reference? name.reverse
        let text ← unescapeFrom? none rest
        return referred :: text
      else unescapeFrom? (some (c :: name)) rest

/-- The text that an escaped text stands for. -/
def unescape? (text : List Char) : Option (List Char) :=
  unescapeFrom? none text

/-- A character, or the reference in its place where it would be read as markup. -/
def escapeChar (c : Char) : List Char :=
  if c = '<' then "&lt;".toList
  else if c = '>' then "&gt;".toList
  else if c = '&' then "&amp;".toList
  else if c = '\'' then "&apos;".toList
  else if c = '"' then "&quot;".toList
  else [c]

/-- A text written so that it may stand between tags or in an attribute. -/
def escape (text : List Char) : List Char :=
  text.flatMap escapeChar

/-- What is escaped reads back. -/
@[simp] theorem unescape_escape (text : List Char) : unescape? (escape text) = some text := by
  induction text with
  | nil => rfl
  | cons c rest hypothesis =>
    have later : unescapeFrom? none (List.flatMap escapeChar rest) = some rest := hypothesis
    simp only [unescape?, escape, List.flatMap_cons, escapeChar]
    split
    · subst_vars; simp [unescapeFrom?, later, reference?, predefined?]
    · split
      · subst_vars; simp [unescapeFrom?, later, reference?, predefined?]
      · split
        · subst_vars; simp [unescapeFrom?, later, reference?, predefined?]
        · split
          · subst_vars; simp [unescapeFrom?, later, reference?, predefined?]
          · split
            · subst_vars; simp [unescapeFrom?, later, reference?, predefined?]
            · simp_all [unescapeFrom?]

end ColumnCalc.Xml
