/-
**References, read by bytes and in words.**

A reference is cut at the byte of its first digit. The bytes in front are added up in words of 32 bits,
and one is taken off the sum and off the number behind. Where a sum, a product or the number of the row
leaves the words the text is refused. No check is made of the cut, of a letter's value and of the one
that is taken off the column, so each of these steps has to be possible whenever it is made. Here every
step says whether it is possible. None fails on any text, and what is read is the position.

* `foldlM_addLetter` — letters are added up to their value, and refused exactly if it is no word.
* `decodeReference_eq` — a reference is decoded to the position that it names.
* `reference_decoding_exact` — all of it, with what is named and the one spelling of each column.
-/

import ColumnCalc.Proofs.Failure
import ColumnCalc.Proofs.Text.Slices
import ColumnCalc.Proofs.Workbook.Numeration

namespace ColumnCalc.Workbook

open Text.Utf8 (size encode byteOf findByte? cut? cut?_size findByte?_append encodeChar_cases
  encode_of_ascii toNat_byte)

/-! ### Steps that may not be possible -/

/-- Why no position is read: the text is refused, or a step is not possible. -/
inductive Stop where
  | refused
  | impossible

/-- What is found, or a stop if there is nothing. -/
def orStop {α : Type} (stop : Stop) : Option α → Except Stop α
  | some value => .ok value
  | none => .error stop

/-- A number as a word of so many bits, or a stop if it is none. -/
def word (bits : Nat) (stop : Stop) (number : Int) : Except Stop Nat :=
  if 0 ≤ number ∧ number < twoTo bits then .ok number.toNat else .error stop

theorem word_of_lt {bits small : Nat} {number : Int} (stop : Stop) (same : number = small)
    (isWord : small < twoTo bits) : word bits stop number = .ok small := by
  rw [word, same, if_pos ⟨Int.natCast_nonneg small, Int.ofNat_lt.2 isWord⟩, Int.toNat_natCast]

theorem word_of_le {bits large : Nat} {number : Int} (stop : Stop) (same : number = large)
    (noWord : twoTo bits ≤ large) : word bits stop number = .error stop := by
  rw [word, same, if_neg fun inside => Nat.not_lt.2 noWord (Int.ofNat_lt.1 inside.2)]

/-! ### Reading -/

/-- The byte of a capital letter. -/
def isCapitalByte (byte : UInt8) : Bool :=
  byteOf 'A' ≤ byte && byte ≤ byteOf 'Z'

/-- The value of a letter. -/
def letterNumber (letter : UInt8) : Except Stop Nat := do
  let place ← word 8 .impossible (letter.toNat - (byteOf 'A').toNat)
  word 32 .impossible (place + 1)

/-- One more letter behind those that have been added up. -/
def addLetter (number : Nat) (letter : UInt8) : Except Stop Nat := do
  let shifted ← word 32 .refused (number * 26)
  let value ← letterNumber letter
  word 32 .refused (shifted + value)

/-- The number of a column, counted from one. -/
def columnNumber (letters : List Char) : Except Stop Nat :=
  if letters.isEmpty || !(encode letters).all isCapitalByte then .error .refused
  else (encode letters).foldlM addLetter 0

/-- A row, counted from zero. -/
def rowInWords (digits : List Char) : Except Stop Nat := do
  let number ← orStop .refused (readWhole? positionBound digits)
  word 32 .refused (number - 1)

/-- The position that letters and digits name. -/
def decodeParts (letters digits : List Char) : Except Stop Position := do
  let number ← columnNumber letters
  let row ← rowInWords digits
  let column ← word 32 .impossible (number - 1)
  return { row := UInt32.ofNat row, column := UInt32.ofNat column }

/-- **A reference, read by bytes and in words.** -/
def decodeReference (reference : List Char) : Except Stop Position := do
  let split ← orStop .refused (findByte? Char.isDigit reference)
  let (letters, digits) ← orStop .impossible (cut? split reference)
  decodeParts letters digits

/-! ### Letters -/

theorem isCapitalByte_ofNat {code : Nat} (isByte : code < 256) :
    isCapitalByte (UInt8.ofNat code) = true ↔ 65 ≤ code ∧ code ≤ 90 := by
  have first : (byteOf 'A').toNat = 65 := rfl
  have last : (byteOf 'Z').toNat = 90 := rfl
  rw [isCapitalByte, Bool.and_eq_true, decide_eq_true_eq, decide_eq_true_eq,
    UInt8.le_iff_toNat_le, UInt8.le_iff_toNat_le, toNat_byte isByte, first, last]

theorem isCapital_iff_toNat {c : Char} : isCapital c = true ↔ 65 ≤ c.toNat ∧ c.toNat ≤ 90 := by
  rw [isCapital, Bool.and_eq_true, decide_eq_true_eq, decide_eq_true_eq]
  exact Iff.rfl

/-- The bytes of a character are those of capital letters exactly if it is one. -/
theorem all_isCapitalByte_char (c : Char) :
    (String.utf8EncodeChar c).all isCapitalByte = isCapital c := by
  rw [Bool.eq_iff_iff, isCapital_iff_toNat]
  -- A character of more than one byte is no capital letter, and its first byte is none either.
  obtain ⟨small, bytes⟩ | ⟨large, -, bytes⟩ | ⟨large, -, bytes⟩ | ⟨large, bytes⟩ :=
    encodeChar_cases c <;> rw [bytes]
  · rw [List.all_cons, List.all_nil, Bool.and_true, isCapitalByte_ofNat (by omega)]
  all_goals
    rw [List.all_cons, Bool.and_eq_true, isCapitalByte_ofNat (by omega)]
    omega

/-- The bytes of a text are those of capital letters exactly if its characters are capital letters. -/
theorem all_isCapitalByte (letters : List Char) :
    (encode letters).all isCapitalByte = letters.all isCapital := by
  rw [encode, List.all_flatMap]
  exact congrArg _ (funext all_isCapitalByte_char)

/-- A capital letter is one byte, not below that of A. -/
theorem letter_byte : ∀ letter ∈ capitals, letter.toNat < 0x80 ∧
    (byteOf 'A').toNat ≤ (byteOf letter).toNat ∧
    (byteOf letter).toNat - (byteOf 'A').toNat + 1 = letterValue letter ∧
    letterValue letter ≤ 26 :=
  forall_symbols (by decide)

/-- **The value of a capital letter** is found from its byte. -/
theorem letterNumber_eq {letter : Char} (isLetter : letter ∈ capitals) :
    letterNumber (byteOf letter) = .ok (letterValue letter) := by
  obtain ⟨-, above, isValue, atMost⟩ := letter_byte letter isLetter
  have isByte : (byteOf letter).toNat < twoTo 8 := (byteOf letter).toNat_lt
  have isPlace : word 8 .impossible (((byteOf letter).toNat : Int) - (byteOf 'A').toNat)
      = .ok ((byteOf letter).toNat - (byteOf 'A').toNat) :=
    word_of_lt _ (by omega) (by omega)
  rw [letterNumber, bind_of_ok isPlace]
  exact word_of_lt _ (by omega) (Nat.lt_of_le_of_lt atMost (by decide))

/-- **One more letter** gives the value with it, unless that is no word. -/
theorem addLetter_eq {letter : Char} (isLetter : letter ∈ capitals) (number : Nat) :
    addLetter number (byteOf letter)
      = word 32 .refused ((26 * number + letterValue letter : Nat) : Int) := by
  have product : (number : Int) * 26 = (number * 26 : Nat) := by omega
  have sum : (26 * number + letterValue letter : Nat) = number * 26 + letterValue letter := by omega
  rw [addLetter, sum]
  by_cases small : number * 26 < twoTo 32
  · rw [bind_of_ok (word_of_lt _ product small), bind_of_ok (letterNumber_eq isLetter),
      Int.natCast_add]
  · have noWord := Nat.not_lt.1 small
    rw [bind_of_error (word_of_le _ product noWord),
      word_of_le _ rfl (Nat.le_add_right_of_le noWord)]

/-- Letters behind a number do not make it less. -/
theorem le_foldl_letters (letters : List Char) (number : Nat) :
    number ≤ letters.foldl (fun value letter => 26 * value + letterValue letter) number := by
  induction letters generalizing number with
  | nil => exact Nat.le_refl number
  | cons letter rest ih =>
    rw [List.foldl_cons]
    refine Nat.le_trans ?_ (ih _)
    omega

/-- **Letters are added up to their value**, and refused exactly if it is no word: what has left the
words does not come back, as no letter makes the sum less. -/
theorem foldlM_addLetter {letters : List Char}
    (areCapitals : ∀ letter ∈ letters, letter ∈ capitals) {number : Nat}
    (small : number < twoTo 32) :
    (letters.map byteOf).foldlM addLetter number
      = word 32 .refused
          (letters.foldl (fun value letter => 26 * value + letterValue letter) number : Nat) := by
  induction letters generalizing number with
  | nil => exact (word_of_lt _ rfl small).symm
  | cons letter rest ih =>
    obtain ⟨isLetter, further⟩ := List.forall_mem_cons.1 areCapitals
    have step := addLetter_eq isLetter number
    rw [List.map_cons, List.foldl_cons]
    by_cases isWord : 26 * number + letterValue letter < twoTo 32
    · rw [word_of_lt _ rfl isWord] at step
      rw [foldlM_cons_of_ok step, ih further isWord]
    · rw [word_of_le _ rfl (Nat.not_lt.1 isWord)] at step
      rw [List.foldlM_cons, bind_of_error step,
        word_of_le _ rfl (Nat.le_trans (Nat.not_lt.1 isWord) (le_foldl_letters rest _))]

/-- **The number of a column** is that of the column read, counted from one. -/
theorem columnNumber_eq (letters : List Char) :
    columnNumber letters = orStop .refused ((column? letters).map fun column => column.toNat + 1) := by
  unfold columnNumber column?
  rw [all_isCapitalByte]
  cases spelled : letters.isEmpty || !letters.all isCapital with
  | true => rfl
  | false =>
    obtain ⟨nonempty, areCapitals⟩ := spelled_iff.1 spelled
    have positive := lettersValue_pos nonempty
    rw [encode_of_ascii fun letter member => (letter_byte letter (areCapitals letter member)).1]
    rw [if_neg Bool.false_ne_true, if_neg Bool.false_ne_true,
      foldlM_addLetter areCapitals (by decide), ← lettersValue]
    split
    · rename_i small
      rw [word_of_lt _ rfl small, Option.map_some,
        UInt32.toNat_ofNat_of_lt' (show lettersValue letters - 1 < positionBound by omega),
        Nat.sub_add_cancel positive]
      rfl
    · rename_i large
      exact word_of_le _ rfl (Nat.not_lt.1 large)

/-! ### Digits -/

/-- **The row in words** is the row read. -/
theorem rowInWords_eq (digits : List Char) :
    rowInWords digits = orStop .refused ((row? digits).map UInt32.toNat) := by
  unfold rowInWords row?
  cases read : readWhole? positionBound digits with
  | none => rfl
  | some number =>
    have small := readWhole_lt read
    cases number with
    | zero => rfl
    | succ row =>
      have isRow : row < positionBound := by omega
      rw [Option.map_some, UInt32.toNat_ofNat_of_lt' isRow]
      exact word_of_lt _ (by omega) isRow

/-! ### References -/

/-- Letters and digits are read in words as they are read. -/
theorem decodeParts_eq (letters digits : List Char) :
    decodeParts letters digits = orStop .refused (do
      let column ← column? letters
      let row ← row? digits
      return { row, column }) := by
  rw [decodeParts, columnNumber_eq, rowInWords_eq]
  cases column? letters with
  | none => rfl
  | some column =>
    cases row? digits with
    | none => rfl
    | some row =>
      have isColumn : word 32 .impossible (((column.toNat + 1 : Nat) : Int) - 1)
          = .ok column.toNat := word_of_lt _ (by omega) column.toNat_lt
      rw [Option.map_some, Option.map_some, orStop, orStop, bind_of_ok rfl, bind_of_ok rfl,
        bind_of_ok isColumn, UInt32.ofNat_toNat, UInt32.ofNat_toNat]
      rfl

/-- The byte of the first digit is that behind the letters. -/
theorem findByte?_isDigit {letters digits : List Char}
    (areLetters : ∀ letter ∈ letters, letter.isDigit = false)
    (isFirst : ∀ digit ∈ digits.head?, digit.isDigit = true) :
    findByte? Char.isDigit (letters ++ digits)
      = if digits.isEmpty then none else some (size letters) := by
  rw [findByte?_append areLetters]
  cases digits with
  | nil => rfl
  | cons digit rest =>
    rw [findByte?, if_pos (isFirst digit rfl)]
    rfl

/-- **A reference is decoded to the position that it names.** No step fails that is not checked. -/
theorem decodeReference_eq (reference : List Char) :
    decodeReference reference = orStop .refused (Position.ofReference? reference) := by
  have areLetters : ∀ letter ∈ reference.takeWhile (!·.isDigit), letter.isDigit = false :=
    fun letter member => by simpa using List.all_eq_true.1 List.all_takeWhile letter member
  have isFirst : ∀ digit ∈ (reference.dropWhile (!·.isDigit)).head?, digit.isDigit = true :=
    fun digit member => by
      have stops := List.head?_dropWhile_not (!·.isDigit) reference
      rw [Option.mem_def.1 member] at stops
      simpa using stops
  have split : reference.takeWhile (!·.isDigit) ++ reference.dropWhile (!·.isDigit) = reference :=
    List.takeWhile_append_dropWhile
  have found := findByte?_isDigit areLetters isFirst
  have isCut := cut?_size (reference.takeWhile (!·.isDigit)) (reference.dropWhile (!·.isDigit))
  rw [split] at found isCut
  rw [decodeReference, found, Position.ofReference?, ← decodeParts_eq]
  cases digits : reference.dropWhile (!·.isDigit) with
  | nil =>
    rw [decodeParts_eq]
    cases column? (reference.takeWhile (!·.isDigit)) <;> rfl
  | cons digit rest =>
    rw [digits] at isCut
    rw [List.isEmpty_cons, if_neg Bool.false_ne_true, orStop, bind_of_ok rfl, isCut, orStop,
      bind_of_ok rfl]

/-- **References are decoded exactly.** A text is read exactly if it is capital letters and digits,
some of each, the letters being the number of a column in bijective base 26 and the digits that of a
row in decimal, both counted from one and below two to the thirty-second; and what is read is that
position. Reading by bytes, in words of 32 bits, gives the same answer for every text: all others
are refused, no number leaves the words unchecked and no character is cut. Each column has exactly one
spelling in letters, and a position that is written as a reference is read back. -/
theorem reference_decoding_exact :
    (∀ (reference : List Char) (position : Position),
      Position.ofReference? reference = some position ↔
        ∃ letters digits, reference = letters ++ digits ∧
          (NamesColumn letters position.column.toNat ∧
            position.column.toNat + 1 < positionBound) ∧
          NamesRow digits position.row.toNat ∧ position.row.toNat + 1 < positionBound) ∧
    (∀ reference, decodeReference reference = orStop .refused (Position.ofReference? reference)) ∧
    (∀ column, column + 1 < positionBound →
      ∃! letters, column? letters = some (UInt32.ofNat column)) ∧
    ∀ row column, row + 1 < positionBound → column + 1 < positionBound →
      Position.ofReference? (reference row column)
        = some ⟨UInt32.ofNat row, UInt32.ofNat column⟩ :=
  ⟨fun _ _ => ofReference?_eq_some_iff, decodeReference_eq, fun _ => existsUnique_column?,
    fun _ _ => ofReference?_reference⟩

/-- The last position that has a reference, with zeros in front of its row, and the next column, whose
number is no word. -/
theorem reference_decoding_exact_last :
    let position : Position := ⟨4294967294, 4294967294⟩
    NamesColumn "MWLQKWU".toList 4294967294 ∧ NamesRow "004294967295".toList 4294967294 ∧
    Position.ofReference? "MWLQKWU004294967295".toList = some position ∧
    decodeReference "MWLQKWU004294967295".toList = .ok position ∧
    decodeReference "MWLQKWV1".toList = .error .refused ∧
    (∃! letters, column? letters = some (UInt32.ofNat 4294967294)) ∧
    Position.ofReference? (reference 4294967294 4294967294) = some position := by
  intro position
  have isColumn : NamesColumn "MWLQKWU".toList 4294967294 :=
    (namesColumn_iff (by decide +kernel)).2 (by decide +kernel)
  have areDigits : ∀ digit ∈ "004294967295".toList, digit ∈ decimals :=
    forall_symbols (by decide +kernel)
  have isRow : NamesRow "004294967295".toList 4294967294 :=
    ⟨by decide +kernel, areDigits, (digitsValue_eq areDigits).symm.trans (by decide +kernel)⟩
  have small : 4294967294 + 1 < positionBound := by decide
  obtain ⟨reads, words, unique, back⟩ := reference_decoding_exact
  have read : Position.ofReference? "MWLQKWU004294967295".toList = some position :=
    (reads _ _).2 ⟨_, _, by decide +kernel, ⟨isColumn, small⟩, isRow, small⟩
  have past : Position.ofReference? "MWLQKWV1".toList = none := by decide +kernel
  exact ⟨isColumn, isRow, read, by rw [words, read]; rfl, by rw [words, past]; rfl,
    unique _ small, back _ _ small small⟩

end ColumnCalc.Workbook
