/-
**The tokens of JSON.**

A text is cut into punctuation, words, numbers and strings; white space between them is dropped.
-/

import ColumnCalc.Json.Text
import ColumnCalc.Number.Numeral

namespace ColumnCalc.Json

/-- The smallest pieces of a JSON text. -/
inductive Token where
  | leftBrace
  | rightBrace
  | leftBracket
  | rightBracket
  | colon
  | comma
  | null
  | bool (value : Bool)
  | number (literal : String)
  | string (text : StringText)
  deriving DecidableEq, Repr

/-- White space between tokens. -/
def isSpace (c : Char) : Bool :=
  c == ' ' || c == '\n' || c == '\r' || c == '\t'

/-- A non-empty run of digits at the start of a text. -/
def readDigits? (text : List Char) : Option (List Char × List Char) :=
  let (digits, rest) := splitDigits text
  if digits.isEmpty then none else some (digits, rest)

/-- The digits of a whole part: a zero alone, or digits that do not start with one. -/
def readWholePart? (text : List Char) : Option (List Char × List Char) := do
  let (digits, rest) ← readDigits? text
  if digits.length ≠ 1 ∧ digits.head? = some '0' then none else some (digits, rest)

/-- A point and digits, or nothing. -/
def readFraction? : List Char → Option (List Char × List Char)
  | '.' :: rest => (readDigits? rest).map fun (digits, rest) => ('.' :: digits, rest)
  | text => some ([], text)

/-- An exponent's mark, sign and digits, or nothing. -/
def readPower? : List Char → Option (List Char × List Char)
  | [] => some ([], [])
  | mark :: rest =>
    if mark = 'e' ∨ mark = 'E' then
      let (sign, digits) :=
        match rest with
        | '+' :: digits => (['+'], digits)
        | '-' :: digits => (['-'], digits)
        | digits => ([], digits)
      (readDigits? digits).map fun (digits, rest) => (mark :: sign ++ digits, rest)
    else some ([], mark :: rest)

/-- Reads a number: the characters of it, and what follows. -/
def readNumber? (text : List Char) : Option (List Char × List Char) := do
  let (sign, unsigned) :=
    match text with
    | '-' :: rest => (['-'], rest)
    | text => ([], text)
  let (whole, rest) ← readWholePart? unsigned
  let (fraction, rest) ← readFraction? rest
  let (power, rest) ← readPower? rest
  return (sign ++ whole ++ fraction ++ power, rest)

/-- The words, and what they are. -/
def words : List (List Char × Token) :=
  [("null".toList, .null), ("true".toList, .bool true), ("false".toList, .bool false)]

/-- The punctuation mark that a character is. -/
def punctuation? : Char → Option Token
  | '\x7b' => some .leftBrace
  | '\x7d' => some .rightBrace
  | '[' => some .leftBracket
  | ']' => some .rightBracket
  | ':' => some .colon
  | ',' => some .comma
  | _ => none

/-- Reads the token at the start of a text, and what follows it. -/
def readToken? (text : List Char) : Option (Token × List Char) :=
  match text with
  | [] => none
  | c :: rest =>
    match punctuation? c with
    | some token => some (token, rest)
    | none =>
      if c = '"' then
        (readString? rest).map fun (pieces, rest) =>
          (.string ((joinPieces? pieces).map String.ofList), rest)
      else
        match words.find? fun word => word.1.isPrefixOf text with
        | some (word, token) => some (token, text.drop word.length)
        | none =>
          (readNumber? text).map fun (literal, rest) => (.number (String.ofList literal), rest)

theorem readDigits_shorter {text digits rest : List Char}
    (found : readDigits? text = some (digits, rest)) : rest.length < text.length := by
  simp only [readDigits?] at found
  split at found
  · contradiction
  · rename_i nonempty
    simp only [Option.some.injEq, Prod.mk.injEq] at found
    obtain ⟨same, rfl⟩ := found
    have whole := congrArg List.length (splitDigits_append text)
    have some := List.length_pos_iff.2 (by simpa using nonempty : (splitDigits text).1 ≠ [])
    simp only [List.length_append] at whole
    omega

theorem readWholePart_shorter {text digits rest : List Char}
    (found : readWholePart? text = some (digits, rest)) : rest.length < text.length := by
  simp only [readWholePart?, Option.bind_eq_bind, Option.bind_eq_some_iff] at found
  obtain ⟨⟨inner, left⟩, read, same⟩ := found
  have shorter := readDigits_shorter read
  split at same <;> simp_all

theorem readFraction_length {text fraction rest : List Char}
    (found : readFraction? text = some (fraction, rest)) : rest.length ≤ text.length := by
  unfold readFraction? at found
  split at found
  · obtain ⟨⟨inner, left⟩, read, same⟩ := Option.map_eq_some_iff.1 found
    have shorter := readDigits_shorter read
    simp only [Prod.mk.injEq] at same
    simp only [List.length_cons, ← same.2]
    omega
  · simp_all

theorem readPower_length {text power rest : List Char}
    (found : readPower? text = some (power, rest)) : rest.length ≤ text.length := by
  unfold readPower? at found
  split at found
  · simp_all
  · split at found
    · obtain ⟨⟨inner, left⟩, read, same⟩ := Option.map_eq_some_iff.1 found
      have shorter := readDigits_shorter read
      simp only [Prod.mk.injEq] at same
      simp only [List.length_cons, ← same.2]
      split at shorter <;> simp_all <;> omega
    · simp_all

/-- A number takes at least one character. -/
theorem readNumber_shorter {text literal rest : List Char}
    (found : readNumber? text = some (literal, rest)) : rest.length < text.length := by
  simp only [readNumber?, Option.bind_eq_bind, Option.bind_eq_some_iff] at found
  obtain ⟨⟨whole, afterWhole⟩, readWhole, ⟨fraction, afterFraction⟩, readFraction,
    ⟨power, afterPower⟩, readPower, same⟩ := found
  have first := readWholePart_shorter readWhole
  have second := readFraction_length readFraction
  have third := readPower_length readPower
  simp only [pure, Option.some.injEq, Prod.mk.injEq] at same
  rw [← same.2]
  split at first <;> simp_all <;> omega

/-- A token takes at least one character. -/
theorem readToken_shorter {text rest : List Char} {token : Token}
    (found : readToken? text = some (token, rest)) : rest.length < text.length := by
  unfold readToken? at found
  split at found
  · contradiction
  · rename_i c behind
    split at found
    · simp_all
    · split at found
      · obtain ⟨⟨pieces, left⟩, read, same⟩ := Option.map_eq_some_iff.1 found
        have bound := readString_length read
        simp only [Prod.mk.injEq] at same
        simp only [List.length_cons, ← same.2]
        omega
      · split at found
        · rename_i word matched isWord
          have listed := List.mem_of_find?_eq_some isWord
          simp only [Option.some.injEq, Prod.mk.injEq] at found
          have long : 0 < word.length := by
            simp only [words, List.mem_cons, Prod.mk.injEq, List.not_mem_nil, or_false] at listed
            rcases listed with ⟨same, _⟩ | ⟨same, _⟩ | ⟨same, _⟩ <;> simp [same]
          simp only [← found.2, List.length_drop, List.length_cons]
          omega
        · obtain ⟨⟨literal, left⟩, read, same⟩ := Option.map_eq_some_iff.1 found
          have shorter := readNumber_shorter read
          simp only [Prod.mk.injEq] at same
          rw [← same.2]
          exact shorter

/-- The tokens of a text. -/
def tokens? (text : List Char) : Option (List Token) :=
  match text with
  | [] => some []
  | c :: rest =>
    if isSpace c then tokens? rest
    else
      match _found : readToken? (c :: rest) with
      | some (token, rest) => (tokens? rest).map (token :: ·)
      | none => none
termination_by text.length
decreasing_by
  · simp
  · exact readToken_shorter _found

end ColumnCalc.Json
