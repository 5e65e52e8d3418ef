/-
**Columns and rows as numerals.**

A reference is made of two numerals. Its letters are the column in bijective base 26: there is a letter
for one up to twenty-six and none for zero, so that no two texts of letters have the same value. Its
digits are the row in decimal, and zeros in front do not count. What is read is said here without
reading, by the places of symbols in an alphabet and positional values.

* `lettersValue_eq`, `digitsValue_eq` — a text that is read from the front has its positional value.
* `columnLetters_lettersValue` — letters are what is written for their value.
* `column?_eq_some_iff`, `row?_eq_some_iff`, `ofReference?_eq_some_iff` — what is read, exactly.
* `existsUnique_column?` — each column has one spelling.
-/

import ColumnCalc.Proofs.Workbook.Reference
import Mathlib.Data.List.Induction
import Mathlib.Data.Nat.Digits.Defs

namespace ColumnCalc.Workbook

/-! ### Numerals -/

/-- **A text is a numeral**: symbols of an alphabet, at least one of them, with a positional value.
The first symbol of the alphabet stands for the least digit. -/
structure IsNumeral (alphabet : List Char) (least : Nat) (text : List Char) (number : Nat) : Prop where
  nonempty : text ≠ []
  symbols : ∀ c ∈ text, c ∈ alphabet
  value : Nat.ofDigits alphabet.length (text.reverse.map fun c => alphabet.idxOf c + least) = number

/-- The capital letters. -/
def capitals : List Char :=
  ['A', 'B', 'C', 'D', 'E', 'F', 'G', 'H', 'I', 'J', 'K', 'L', 'M',
   'N', 'O', 'P', 'Q', 'R', 'S', 'T', 'U', 'V', 'W', 'X', 'Y', 'Z']

/-- The decimal digits. -/
def decimals : List Char :=
  ['0', '1', '2', '3', '4', '5', '6', '7', '8', '9']

/-- **Letters name a column**: they are its number, counted from one, in bijective base 26. -/
def NamesColumn (letters : List Char) (column : Nat) : Prop :=
  IsNumeral capitals 1 letters (column + 1)

/-- **Digits name a row**: they are its number, counted from one, in decimal. -/
def NamesRow (digits : List Char) (row : Nat) : Prop :=
  IsNumeral decimals 0 digits (row + 1)

/-- Digits that are gone through from the front have their positional value. -/
theorem foldl_eq_ofDigits (base : Nat) (value : Char → Nat) (text : List Char) :
    text.foldl (fun number c => base * number + value c) 0
      = Nat.ofDigits base (text.reverse.map value) := by
  induction text using List.reverseRecOn with
  | nil => rfl
  | append_singleton front last ih =>
    rw [List.foldl_append, List.foldl_cons, List.foldl_nil, ih, List.reverse_append,
      List.reverse_singleton, List.singleton_append, List.map_cons, Nat.ofDigits_cons,
      Nat.add_comm]

/-! ### Symbols -/

/-- What is checked for one symbol after the other holds of all of them. -/
theorem forall_symbols {alphabet : List Char} {holds : Char → Prop} [DecidablePred holds]
    (checked : (alphabet.all fun c => decide (holds c)) = true) : ∀ c ∈ alphabet, holds c :=
  fun c member => of_decide_eq_true (List.all_eq_true.1 checked c member)

/-- A character between two others has a place behind the first one. -/
theorem exists_place {first last c : Char} (within : first ≤ c ∧ c ≤ last) :
    ∃ place ≤ last.toNat - first.toNat, c = Char.ofNat (first.toNat + place) := by
  have atLeast : first.toNat ≤ c.toNat := within.1
  have atMost : c.toNat ≤ last.toNat := within.2
  refine ⟨c.toNat - first.toNat, by omega, ?_⟩
  rw [Nat.add_sub_cancel' atLeast, Char.ofNat_toNat]

theorem isCapital_iff {letter : Char} : isCapital letter = true ↔ letter ∈ capitals := by
  constructor
  · intro isLetter
    unfold isCapital at isLetter
    rw [Bool.and_eq_true, decide_eq_true_eq, decide_eq_true_eq] at isLetter
    obtain ⟨place, small, rfl⟩ := exists_place isLetter
    revert place
    decide
  · have areCapital : ∀ c ∈ capitals, isCapital c = true := forall_symbols (by decide)
    exact areCapital letter

theorem isDigit_iff {digit : Char} : digit.isDigit = true ↔ digit ∈ decimals := by
  constructor
  · intro isDigit
    have within : '0' ≤ digit ∧ digit ≤ '9' := by
      simpa [Char.isDigit, Char.le_def] using isDigit
    obtain ⟨place, small, rfl⟩ := exists_place within
    revert place
    decide
  · have areDigits : ∀ c ∈ decimals, c.isDigit = true := forall_symbols (by decide)
    exact areDigits digit

/-- A capital letter's value is its place in the alphabet, counted from one. -/
theorem letterValue_eq : ∀ letter ∈ capitals, letterValue letter = capitals.idxOf letter + 1 :=
  forall_symbols (by decide)

/-- A digit's value is its place among the digits. -/
theorem digitValue_eq : ∀ digit ∈ decimals, digit.toNat - '0'.toNat = decimals.idxOf digit :=
  forall_symbols (by decide)

/-- **Letters are read from the front** to their positional value. -/
theorem lettersValue_eq {letters : List Char} (areCapitals : ∀ letter ∈ letters, letter ∈ capitals) :
    lettersValue letters
      = Nat.ofDigits capitals.length (letters.reverse.map fun c => capitals.idxOf c + 1) := by
  rw [lettersValue, foldl_eq_ofDigits]
  refine congrArg _ (List.map_congr_left fun letter member => ?_)
  exact letterValue_eq letter (areCapitals letter (List.mem_reverse.1 member))

/-- **Digits are read from the front** to their positional value. -/
theorem digitsValue_eq {digits : List Char} (areDigits : ∀ digit ∈ digits, digit ∈ decimals) :
    digitsValue digits
      = Nat.ofDigits decimals.length (digits.reverse.map fun c => decimals.idxOf c + 0) := by
  rw [digitsValue, foldl_eq_ofDigits 10 fun digit => digit.toNat - '0'.toNat]
  refine congrArg _ (List.map_congr_left fun digit member => ?_)
  exact digitValue_eq digit (areDigits digit (List.mem_reverse.1 member))

/-! ### One spelling for each column -/

theorem lettersValue_append (front : List Char) (letter : Char) :
    lettersValue (front ++ [letter]) = 26 * lettersValue front + letterValue letter := by
  rw [lettersValue, List.foldl_append]
  rfl

theorem letterValue_pos (letter : Char) : 0 < letterValue letter := Nat.succ_pos _

/-- No letter stands for zero, so letters have a value that is positive. -/
theorem lettersValue_pos {letters : List Char} (nonempty : letters ≠ []) :
    0 < lettersValue letters := by
  rw [← List.dropLast_concat_getLast nonempty, lettersValue_append]
  exact Nat.lt_of_lt_of_le (letterValue_pos _) (Nat.le_add_left _ _)

/-- **Letters are what is written for their value**: the last one is found from the rest of a
division, as its value lies between one and twenty-six. -/
theorem columnLetters_lettersValue {letters : List Char}
    (areCapitals : ∀ letter ∈ letters, letter ∈ capitals) :
    columnLetters (lettersValue letters) = letters := by
  induction letters using List.reverseRecOn with
  | nil => simp [lettersValue, columnLetters]
  | append_singleton front last ih =>
    have isLast : last ∈ capitals := areCapitals last (by simp)
    have spelled : ∀ letter ∈ capitals, letterValue letter ≤ 26 ∧
        Char.ofNat ('A'.toNat + (letterValue letter - 1)) = letter := forall_symbols (by decide)
    obtain ⟨atMost, isLetter⟩ := spelled last isLast
    have positive := letterValue_pos last
    have quotient : (26 * lettersValue front + letterValue last - 1) / 26 = lettersValue front := by
      omega
    have rest : (26 * lettersValue front + letterValue last - 1) % 26 = letterValue last - 1 := by
      omega
    rw [lettersValue_append, columnLetters, if_neg (by omega), quotient, rest, isLetter,
      ih fun letter member => areCapitals letter (List.mem_append_left _ member)]

/-! ### What is read -/

/-- What is taken for letters are capital letters, at least one of them. -/
theorem spelled_iff {letters : List Char} : (letters.isEmpty || !letters.all isCapital) = false ↔
    letters ≠ [] ∧ ∀ letter ∈ letters, letter ∈ capitals := by
  rw [Bool.or_eq_false_iff, List.isEmpty_eq_false_iff, Bool.not_eq_false', List.all_eq_true]
  simp only [isCapital_iff]

theorem NamesColumn.spelled {letters : List Char} {column : Nat}
    (names : NamesColumn letters column) : (letters.isEmpty || !letters.all isCapital) = false :=
  spelled_iff.2 ⟨names.nonempty, names.symbols⟩

/-- Capital letters name a column exactly if their value is its number counted from one. -/
theorem namesColumn_iff {letters : List Char}
    (spelled : (letters.isEmpty || !letters.all isCapital) = false) {column : Nat} :
    NamesColumn letters column ↔ lettersValue letters = column + 1 := by
  obtain ⟨nonempty, areCapitals⟩ := spelled_iff.1 spelled
  constructor
  · intro names
    exact (lettersValue_eq areCapitals).trans names.value
  · intro value
    exact ⟨nonempty, areCapitals, (lettersValue_eq areCapitals).symm.trans value⟩

/-- **The column that letters name is read**, if it can be told apart from the others. -/
theorem column?_eq_some_iff {letters : List Char} {column : UInt32} :
    column? letters = some column ↔
      NamesColumn letters column.toNat ∧ column.toNat + 1 < positionBound := by
  unfold column?
  cases spelled : letters.isEmpty || !letters.all isCapital with
  | true =>
    refine iff_of_false nofun fun ⟨names, _⟩ => ?_
    exact nomatch spelled.symm.trans names.spelled
  | false =>
    have positive := lettersValue_pos (spelled_iff.1 spelled).1
    rw [namesColumn_iff spelled, if_neg Bool.false_ne_true]
    split
    · rename_i small
      have inWord : lettersValue letters - 1 < positionBound := by omega
      rw [Option.some.injEq, ← UInt32.toNat_inj, UInt32.toNat_ofNat_of_lt' inWord]
      omega
    · rename_i large
      refine iff_of_false nofun ?_
      rintro ⟨value, small⟩
      exact large (value ▸ small)

/-- **Each column is named by letters**, and by no others. -/
theorem existsUnique_column? {column : Nat} (small : column + 1 < positionBound) :
    ∃! letters, column? letters = some (UInt32.ofNat column) := by
  refine ⟨columnLetters (column + 1), column?_columnLetters small, fun letters read => ?_⟩
  obtain ⟨names, -⟩ := column?_eq_some_iff.1 read
  rw [UInt32.toNat_ofNat_of_lt' (show column < positionBound by omega)] at names
  rw [← (namesColumn_iff names.spelled).1 names, columnLetters_lettersValue names.symbols]

/-- Digits name a row exactly if they denote its number counted from one. -/
theorem namesRow_iff {digits : List Char} (noSign : ∀ rest, digits ≠ '+' :: rest) {row : Nat} :
    NamesRow digits row ↔ Denotes digits (row + 1) := by
  constructor
  · intro names
    exact ⟨digits, .inl rfl, names.nonempty, fun c member => isDigit_iff.2 (names.symbols c member),
      (digitsValue_eq names.symbols).trans names.value⟩
  · rintro ⟨rest, spelled, nonempty, areDigits, value⟩
    obtain rfl : digits = rest := spelled.resolve_right (noSign rest)
    have symbols : ∀ c ∈ digits, c ∈ decimals := fun c member => isDigit_iff.1 (areDigits c member)
    exact ⟨nonempty, symbols, (digitsValue_eq symbols).symm.trans value⟩

/-- **The row that digits name is read**, if it can be told apart from the others. -/
theorem row?_eq_some_iff {digits : List Char} (noSign : ∀ rest, digits ≠ '+' :: rest)
    {row : UInt32} :
    row? digits = some row ↔ NamesRow digits row.toNat ∧ row.toNat + 1 < positionBound := by
  rw [namesRow_iff noSign]
  unfold row?
  constructor
  · intro read
    split at read
    · rename_i number isNumber
      cases read
      obtain ⟨denotes, small⟩ := readWhole?_eq_some_iff.1 isNumber
      rw [UInt32.toNat_ofNat_of_lt' (show number < positionBound by omega)]
      exact ⟨denotes, small⟩
    · cases read
  · intro names
    rw [readWhole?_eq_some_iff.2 names]
    exact congrArg some UInt32.ofNat_toNat

/-- **A reference is read exactly if it is letters and digits** that name a column and a row, and the
position is theirs. -/
theorem ofReference?_eq_some_iff {reference : List Char} {position : Position} :
    Position.ofReference? reference = some position ↔
      ∃ letters digits, reference = letters ++ digits ∧
        (NamesColumn letters position.column.toNat ∧ position.column.toNat + 1 < positionBound) ∧
        NamesRow digits position.row.toNat ∧ position.row.toNat + 1 < positionBound := by
  unfold Position.ofReference?
  constructor
  · intro read
    obtain ⟨column, isColumn, read⟩ := Option.bind_eq_some_iff.1 read
    obtain ⟨row, isRow, read⟩ := Option.bind_eq_some_iff.1 read
    cases read
    refine ⟨_, _, List.takeWhile_append_dropWhile.symm, column?_eq_some_iff.1 isColumn,
      (row?_eq_some_iff fun rest signed => ?_).1 isRow⟩
    have isFirst : (reference.dropWhile (!·.isDigit)).head? = some '+' := by rw [signed]; rfl
    exact absurd (List.head?_dropWhile_not _ _) (by rw [isFirst]; decide)
  · rintro ⟨letters, digits, rfl, isColumn, isRow⟩
    have areDigits : ∀ digit ∈ digits, digit.isDigit = true := fun digit member =>
      isDigit_iff.2 (isRow.1.symbols digit member)
    have noDigits : ∀ letter ∈ capitals, letter.isDigit = false :=
      forall_symbols (by decide)
    obtain ⟨taken, dropped⟩ := split_reference
      (fun letter member => noDigits letter (isColumn.1.symbols letter member)) areDigits
    have noSign : ∀ rest, digits ≠ '+' :: rest := by
      rintro rest rfl
      exact absurd (areDigits '+' (.head _)) (by decide)
    rw [taken, dropped, column?_eq_some_iff.2 isColumn, (row?_eq_some_iff noSign).2 isRow]
    rfl

end ColumnCalc.Workbook
