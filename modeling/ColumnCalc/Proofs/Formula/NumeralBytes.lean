/-
**The bytes of a number.**

A number is looked for in the bytes of a formula and not in its characters: digits are counted from a
byte on, and single bytes are compared with a point, a mark or a sign. All characters of a number are
one byte each, and no byte of another character is like theirs, so as many bytes are counted as the
number has characters. Counting never starts behind the end of the bytes.

* `digitsFrom?_encode` — digits, `mantissaBytes?_encode`, `exponentBytes?_encode` — what they are part
  of, and `numberBytes?_encode` — the whole.
* `ascii_of_isNumber` — the characters of a number are one byte each.
-/

import ColumnCalc.Proofs.Formula.Numerals
import ColumnCalc.Proofs.Text.Slices

namespace ColumnCalc.Scan

open Text.Utf8 (size encode byteOf)

/-- A byte that is a digit. -/
def isDigitByte (byte : UInt8) : Bool :=
  0x30 ≤ byte && byte ≤ 0x39

/-- The number of digits in some bytes from one of them on, unless there are fewer bytes. -/
def digitsFrom? (bytes : Text.Bytes) (start : Nat) : Option Nat :=
  if start ≤ bytes.length then some ((bytes.drop start).takeWhile isDigitByte).length else none

/-- The number of bytes of digits, with a point among or behind them. -/
def mantissaBytes? (bytes : Text.Bytes) : Option Nat := do
  let whole ← digitsFrom? bytes 0
  if bytes[whole]? = some (byteOf '.') then
    let fraction ← digitsFrom? bytes (whole + 1)
    return whole + (1 + fraction)
  else return whole

/-- The number of bytes of a sign at one of some bytes. -/
def signBytes (bytes : Text.Bytes) (start : Nat) : Nat :=
  if bytes[start]? = some (byteOf '+') ∨ bytes[start]? = some (byteOf '-') then 1 else 0

/-- The number of bytes of an exponent from one of some bytes on; none of them if there is none. -/
def exponentBytes? (bytes : Text.Bytes) (start : Nat) : Option Nat :=
  if bytes[start]? = some (byteOf 'e') ∨ bytes[start]? = some (byteOf 'E') then do
    let sign := signBytes bytes (start + 1)
    let power ← digitsFrom? bytes (start + 1 + sign)
    return if 0 < power then 1 + sign + power else 0
  else some 0

/-- The number of bytes of a number. -/
def numberBytes? (bytes : Text.Bytes) : Option Nat := do
  let mantissa ← mantissaBytes? bytes
  let exponent ← exponentBytes? bytes mantissa
  return mantissa + exponent

theorem isDigitByte_byteOf {c : Char} (ascii : c.toNat < 0x80) :
    isDigitByte (byteOf c) = c.isDigit := by
  have value : (byteOf c).toNat = c.toNat := Text.Utf8.toNat_byte (by omega)
  have same : c.val.toNat = c.toNat := rfl
  simp only [isDigitByte, Char.isDigit, UInt8.le_iff_toNat_le, UInt32.le_iff_toNat_le, value, same]
  rfl

/-- A byte that is a digit is that of a character which is one. -/
theorem exists_digit {byte : UInt8} (isDigit : isDigitByte byte = true) :
    ∃ c : Char, c.isDigit = true ∧ c.toNat < 0x80 ∧ byteOf c = byte := by
  have digits : ∀ value < 10, (Char.ofNat (0x30 + value)).isDigit = true ∧
      (Char.ofNat (0x30 + value)).toNat < 0x80 ∧
      byteOf (Char.ofNat (0x30 + value)) = UInt8.ofNat (0x30 + value) := by decide
  simp only [isDigitByte, Bool.and_eq_true, decide_eq_true_eq, UInt8.le_iff_toNat_le,
    UInt8.toNat_ofNat] at isDigit
  obtain ⟨value, isValue⟩ := Nat.exists_eq_add_of_le isDigit.1
  obtain ⟨isChar, ascii, same⟩ := digits value (by omega)
  refine ⟨_, isChar, ascii, same.trans ?_⟩
  rw [← UInt8.ofNat_toNat (x := byte), isValue]

/-- **Digits are counted in bytes as in characters.** -/
theorem digitsFrom?_encode (front text : List Char) :
    digitsFrom? (encode (front ++ text)) (size front) = some (digitCount text) := by
  obtain ⟨digits, rest, rfl, count, areDigits, stops⟩ := exists_digits text
  have ascii : ∀ c ∈ digits, c.toNat < 0x80 := fun c member => ascii_of_isDigit (areDigits c member)
  have bytes : encode digits = digits.map byteOf := Text.Utf8.encode_of_ascii ascii
  have run : ∀ byte ∈ digits.map byteOf, isDigitByte byte = true := by
    refine List.forall_mem_map.2 fun c member => ?_
    rw [isDigitByte_byteOf (ascii c member), areDigits c member]
  have further : (encode rest).takeWhile isDigitByte = [] := by
    cases bytes : encode rest with
    | nil => rfl
    | cons byte more =>
      refine List.takeWhile_cons_of_neg fun isDigit => ?_
      obtain ⟨c, isChar, isAscii, rfl⟩ := exists_digit isDigit
      have isFirst := (Text.Utf8.head?_encode_iff isAscii rest).1 (by rw [bytes]; rfl)
      cases (stops c isFirst).symm.trans isChar
  have inside : size front ≤ (encode (front ++ (digits ++ rest))).length := by
    rw [Text.Utf8.length_encode, Text.Utf8.size_append]
    exact Nat.le_add_right ..
  rw [digitsFrom?, if_pos inside, Text.Utf8.encode_append, ← Text.Utf8.length_encode front,
    List.drop_left, Text.Utf8.encode_append, bytes, List.takeWhile_append_of_pos run, further,
    List.append_nil, List.length_map, count]

/-- The byte behind some characters is that of the next one, if that is one byte. -/
theorem getElem?_encode_iff {c : Char} (ascii : c.toNat < 0x80) (front text : List Char) :
    (encode (front ++ text))[size front]? = some (byteOf c) ↔ text.head? = some c := by
  rw [Text.Utf8.getElem?_encode, Text.Utf8.head?_encode_iff ascii]

theorem ascii_of_isMantissa {mantissa : List Char} (isMantissa : IsMantissa mantissa) :
    ∀ c ∈ mantissa, c.toNat < 0x80 := by
  cases isMantissa with
  | whole areDigits => exact fun c member => ascii_of_isDigit (areDigits c member)
  | point areDigits further =>
    refine List.forall_mem_append.2 ⟨fun c member => ascii_of_isDigit (areDigits c member),
      List.forall_mem_cons.2 ⟨by decide, fun c member => ascii_of_isDigit (further c member)⟩⟩

theorem ascii_of_isExponent {exponent : List Char} (isExponent : IsExponent exponent) :
    ∀ c ∈ exponent, c.toNat < 0x80 := by
  cases isExponent with
  | marked isMark isSign areDigits =>
    refine List.forall_mem_cons.2 ⟨?_, List.forall_mem_append.2 ⟨?_, fun c member =>
      ascii_of_isDigit (areDigits c member)⟩⟩
    · rcases isMark with rfl | rfl <;> decide
    · rcases isSign with rfl | rfl | rfl
      · exact List.forall_mem_nil _
      · exact List.forall_mem_singleton.2 (by decide)
      · exact List.forall_mem_singleton.2 (by decide)

/-- The characters of a number are one byte each. -/
theorem ascii_of_isNumber {number : List Char} (isNumber : IsNumber number) :
    ∀ c ∈ number, c.toNat < 0x80 := by
  obtain ⟨mantissa, exponent, rfl, isMantissa, none | isExponent⟩ := isNumber
  · subst none
    rw [List.append_nil]
    exact ascii_of_isMantissa isMantissa
  · exact List.forall_mem_append.2 ⟨ascii_of_isMantissa isMantissa, ascii_of_isExponent isExponent⟩

theorem mantissaBytes?_encode (text : List Char) :
    mantissaBytes? (encode text) = some (mantissaLength text) := by
  obtain ⟨whole, behind, rfl, count, areDigits, -⟩ := exists_digits text
  have length : size whole = whole.length :=
    Text.Utf8.size_of_ascii fun c member => ascii_of_isDigit (areDigits c member)
  have first : digitsFrom? (encode (whole ++ behind)) 0 = some whole.length := by
    rw [← count]
    exact digitsFrom?_encode [] (whole ++ behind)
  have isPoint := getElem?_encode_iff (c := '.') (by decide) whole behind
  rw [length] at isPoint
  rw [mantissaBytes?, first, mantissaLength, count, List.drop_left, Option.bind_eq_bind,
    Option.bind_some]
  by_cases point : behind.head? = some '.'
  · obtain ⟨rest, rfl⟩ := List.head?_eq_some_iff.1 point
    have fraction : digitsFrom? (encode (whole ++ '.' :: rest)) (whole.length + 1)
        = some (digitCount rest) := by
      have counted := digitsFrom?_encode (whole ++ ['.']) rest
      rwa [Text.Utf8.size_append, length, List.append_assoc] at counted
    rw [if_pos (isPoint.2 point), fraction]
    rfl
  · rw [if_neg (mt isPoint.1 point)]
    split
    · exact absurd rfl point
    · rfl

/-- The byte behind some characters is one of two exactly if the next character is. -/
theorem getElem?_encode_or {c d : Char} (ascii : c.toNat < 0x80) (ascii' : d.toNat < 0x80)
    (front text : List Char) :
    (encode (front ++ text))[size front]? = some (byteOf c) ∨
        (encode (front ++ text))[size front]? = some (byteOf d) ↔
      text.head? = some c ∨ text.head? = some d := by
  rw [getElem?_encode_iff ascii, getElem?_encode_iff ascii']

theorem signBytes_encode (front : List Char) {sign behind : List Char}
    (isSign : sign = [] ∧ (∀ c ∈ behind.head?, c ≠ '+' ∧ c ≠ '-') ∨ sign = ['+'] ∨ sign = ['-']) :
    signBytes (encode (front ++ (sign ++ behind))) (size front) = sign.length := by
  have found := @getElem?_encode_or '+' '-' (by decide) (by decide) front (sign ++ behind)
  rcases isSign with ⟨rfl, noSign⟩ | rfl | rfl
  · refine if_neg (mt found.1 (not_or.2 ⟨fun same => ?_, fun same => ?_⟩))
    · exact (noSign _ same).1 rfl
    · exact (noSign _ same).2 rfl
  · exact if_pos (found.2 (.inl rfl))
  · exact if_pos (found.2 (.inr rfl))

theorem exponentBytes?_encode (front text : List Char) :
    exponentBytes? (encode (front ++ text)) (size front) = some (exponentLength text) := by
  have mark := @getElem?_encode_or 'e' 'E' (by decide) (by decide) front text
  by_cases isMark : text.head? = some 'e' ∨ text.head? = some 'E'
  · obtain ⟨c, rest, rfl, isChar⟩ : ∃ c rest, text = c :: rest ∧ (c = 'e' ∨ c = 'E') := by
      cases text with
      | nil => rcases isMark with found | found <;> cases found
      | cons c rest => exact ⟨c, rest, rfl, isMark.imp Option.some.inj Option.some.inj⟩
    obtain ⟨sign, behind, rfl, isSign⟩ := exists_sign rest
    have one : size [c] = 1 := by rcases isChar with rfl | rfl <;> rfl
    have signSize : size sign = sign.length := by rcases isSign with ⟨rfl, -⟩ | rfl | rfl <;> rfl
    -- The sign stands behind the mark, and the digits behind both.
    have second := signBytes_encode (front ++ [c]) isSign
    have power := digitsFrom?_encode (front ++ [c] ++ sign) behind
    rw [Text.Utf8.size_append, one] at second
    rw [Text.Utf8.size_append, Text.Utf8.size_append, one, signSize, List.append_assoc] at power
    rw [List.append_assoc, List.singleton_append] at second power
    simp only [exponentBytes?, if_pos (mark.2 isMark), second, power, Option.bind_eq_bind,
      Option.bind_some]
    exact congrArg some (exponentLength_marked isChar isSign).symm
  · rw [exponentBytes?, if_neg (mt mark.1 isMark), exponentLength_of_head]
    refine fun c isFirst => ⟨?_, ?_⟩
    · rintro rfl
      exact isMark (.inl isFirst)
    · rintro rfl
      exact isMark (.inr isFirst)

/-- **The bytes of a number are counted as its characters are.** -/
theorem numberBytes?_encode (text : List Char) :
    numberBytes? (encode text) = some (numberLength text) := by
  obtain ⟨mantissa, behind, split, count, isMantissa⟩ := exists_mantissa text
  have length : size mantissa = mantissa.length :=
    Text.Utf8.size_of_ascii (ascii_of_isMantissa isMantissa)
  have exponent := exponentBytes?_encode mantissa behind
  rw [length, ← split] at exponent
  rw [numberBytes?, mantissaBytes?_encode, count, Option.bind_eq_bind, Option.bind_some, exponent,
    numberLength, count, split, List.drop_left]
  rfl

end ColumnCalc.Scan
