/-
**The text of JSON strings.**

A string is written within quotes; quotes, backslashes and control characters are escaped and
nothing else is. When it is read, an escape may stand for half of a surrogate pair: `joinPieces?`
puts the halves together, and a string in which one is left over has no text.

Main statement: `readString_escape` says that a text that is escaped reads back.
-/

import ColumnCalc.Number.Digit

namespace ColumnCalc.Json

/-- The text of a string; none if it holds half of a surrogate pair. -/
abbrev StringText := Option String

/-- A character within quotes. -/
def escapeChar (c : Char) : List Char :=
  if c = '"' then ['\\', '"']
  else if c = '\\' then ['\\', '\\']
  else if c = '\n' then ['\\', 'n']
  else if c = '\r' then ['\\', 'r']
  else if c = '\t' then ['\\', 't']
  else if c.toNat = 0x08 then ['\\', 'b']
  else if c.toNat = 0x0C then ['\\', 'f']
  else if c.toNat < 0x20 then
    ['\\', 'u', '0', '0', hexDigit (c.toNat / 16), hexDigit (c.toNat % 16)]
  else [c]

/-- A string in its quotes; one without a text is written as half of a pair. -/
def printText (text : StringText) : List Char :=
  match text with
  | some text => '"' :: (text.toList.flatMap escapeChar ++ ['"'])
  | none => "\"\\ud800\"".toList

/-- What a character or an escape within a string stands for. -/
inductive StringPiece where
  | char (c : Char)
  /-- Half of a surrogate pair. -/
  | half (unit : Nat)
  deriving DecidableEq, Repr

/-- The piece of a code unit. -/
def StringPiece.ofUnit (unit : Nat) : StringPiece :=
  if 0xD800 ≤ unit ∧ unit < 0xE000 then .half unit else .char (Char.ofNat unit)

/-- The text of pieces, if every half of a pair meets the other one. -/
def joinPieces? : List StringPiece → Option (List Char)
  | [] => some []
  | .char c :: rest => (joinPieces? rest).map (c :: ·)
  | .half high :: .half low :: rest =>
    if high < 0xDC00 ∧ 0xDC00 ≤ low then
      let code := 0x10000 + (high - 0xD800) * 0x400 + (low - 0xDC00)
      (joinPieces? rest).map (Char.ofNat code :: ·)
    else none
  | .half _ :: _ => none

/-- The character that a one-letter escape stands for. -/
def shortEscape? : Char → Option Char
  | '"' => some '"'
  | '\\' => some '\\'
  | '/' => some '/'
  | 'b' => some '\x08'
  | 'f' => some '\x0c'
  | 'n' => some '\n'
  | 'r' => some '\r'
  | 't' => some '\t'
  | _ => none

/-- Reads an escape behind its backslash. -/
def readEscape? : List Char → Option (StringPiece × List Char)
  | [] => none
  | mark :: rest =>
    if mark = 'u' then
      match rest with
      | first :: second :: third :: fourth :: rest => do
        let high := 16 * (← hexValue? first) + (← hexValue? second)
        let low := 16 * (← hexValue? third) + (← hexValue? fourth)
        return (.ofUnit (256 * high + low), rest)
      | _ => none
    else (shortEscape? mark).map fun c => (.char c, rest)

/-- An escape takes at least one character. -/
theorem readEscape_shorter {text rest : List Char} {piece : StringPiece}
    (found : readEscape? text = some (piece, rest)) : rest.length < text.length := by
  unfold readEscape? at found
  repeat' split at found
  all_goals simp_all [Option.bind_eq_some_iff]
  all_goals grind

/-- Reads a string behind its opening quote: its pieces, and what follows the closing quote. -/
def readString? (text : List Char) : Option (List StringPiece × List Char) :=
  match text with
  | [] => none
  | c :: rest =>
    if c = '"' then some ([], rest)
    else if c = '\\' then
      match _found : readEscape? rest with
      | some (piece, rest) => (readString? rest).map fun (pieces, rest) => (piece :: pieces, rest)
      | none => none
    else if c.toNat < 0x20 then none
    else (readString? rest).map fun (pieces, rest) => (.char c :: pieces, rest)
termination_by text.length
decreasing_by
  · have shorter := readEscape_shorter _found
    simp only [List.length_cons]
    omega
  · simp

/-- Reading a string leaves no more than there was. -/
theorem readString_length {text rest : List Char} {pieces : List StringPiece}
    (found : readString? text = some (pieces, rest)) : rest.length ≤ text.length := by
  fun_induction readString? text generalizing pieces rest with
  | case1 => contradiction
  | case2 => simp_all
  | case3 behind piece next escape _ hypothesis =>
    obtain ⟨⟨inner, left⟩, same, equal⟩ := Option.map_eq_some_iff.1 found
    have bound := hypothesis same
    have shorter := readEscape_shorter escape
    simp only [Prod.mk.injEq] at equal
    simp only [List.length_cons, ← equal.2]
    omega
  | case4 => contradiction
  | case5 => contradiction
  | case6 c rest _ _ _ hypothesis =>
    obtain ⟨⟨inner, left⟩, same, equal⟩ := Option.map_eq_some_iff.1 found
    have bound := hypothesis same
    simp only [Prod.mk.injEq] at equal
    simp only [List.length_cons, ← equal.2]
    omega

/-- Pieces that are characters are the text of these. -/
@[simp] theorem joinPieces_char (text : List Char) :
    joinPieces? (text.map .char) = some text := by
  induction text with
  | nil => rfl
  | cons c rest hypothesis => simp [joinPieces?, hypothesis]

/-- A backslash and an escape are read as one piece. -/
theorem readString_escaped {text rest : List Char} {piece : StringPiece}
    (escape : readEscape? text = some (piece, rest)) :
    readString? ('\\' :: text) =
      (readString? rest).map fun (pieces, rest) => (piece :: pieces, rest) := by
  rw [readString?, if_neg (by decide), if_pos rfl]
  split <;> simp_all

/-- A character that needs no escape is read as itself. -/
theorem readString_plain {c : Char} (rest : List Char) (noQuote : c ≠ '"')
    (noBackslash : c ≠ '\\') (noControl : ¬c.toNat < 0x20) :
    readString? (c :: rest) =
      (readString? rest).map fun (pieces, rest) => (.char c :: pieces, rest) := by
  rw [readString?, if_neg noQuote, if_neg noBackslash, if_neg noControl]

/-- The escape of a control character is read as that character. -/
theorem readEscape_control {c : Char} (rest : List Char) (control : c.toNat < 0x20) :
    readEscape? ('u' :: '0' :: '0' :: hexDigit (c.toNat / 16) :: hexDigit (c.toNat % 16) :: rest) =
      some (.char c, rest) := by
  have zero : hexValue? '0' = some 0 := by decide
  have high := hexValue_hexDigit (c.toNat / 16) (by omega)
  have low := hexValue_hexDigit (c.toNat % 16) (by omega)
  have whole : 16 * (c.toNat / 16) + c.toNat % 16 = c.toNat := by omega
  have plain : ¬(0xD800 ≤ c.toNat ∧ c.toNat < 0xE000) := by omega
  simp only [readEscape?, zero, high, low, Option.bind_eq_bind, Option.bind_some, if_true, whole,
    StringPiece.ofUnit, Nat.mul_zero, Nat.zero_add, Nat.add_zero, plain, if_false,
    Char.ofNat_toNat, pure]

/-- A written character is read as itself, whatever follows. -/
theorem readString_escapeChar (c : Char) (rest : List Char) :
    readString? (escapeChar c ++ rest) =
      (readString? rest).map fun (pieces, rest) => (.char c :: pieces, rest) := by
  unfold escapeChar
  repeat' split
  · subst_vars; exact readString_escaped rfl
  · subst_vars; exact readString_escaped rfl
  · subst_vars; exact readString_escaped rfl
  · subst_vars; exact readString_escaped rfl
  · subst_vars; exact readString_escaped rfl
  · rename_i same
    obtain rfl : c = '\x08' := Char.toNat_inj.1 same
    exact readString_escaped rfl
  · rename_i same
    obtain rfl : c = '\x0c' := Char.toNat_inj.1 same
    exact readString_escaped rfl
  · exact readString_escaped (readEscape_control rest (by assumption))
  · exact readString_plain rest (by assumption) (by assumption) (by assumption)

/-- A text that is escaped reads back, up to the closing quote. -/
theorem readString_escape (text rest : List Char) :
    readString? (text.flatMap escapeChar ++ '"' :: rest) = some (text.map .char, rest) := by
  induction text with
  | nil => simp [readString?]
  | cons c more hypothesis =>
    simp only [List.flatMap_cons, List.append_assoc, readString_escapeChar, hypothesis,
      Option.map_some, List.map_cons]

end ColumnCalc.Json
