/-
**References, written and read back.**

A reference is the column in letters and the row in digits, both counted from one. Letters write a
number in bijective base 26: there is no letter for zero, so every number has one spelling.

* `lettersValue_columnLetters` — letters have the value that they are written for;
* `ofReference?_reference` — a reference names the position that it is written for.
-/

import ColumnCalc.Proofs.Number.Shortest
import ColumnCalc.Workbook.Position

namespace ColumnCalc.Workbook

open Shortest (digitsOf digitsValue_digitsOf isDigit_digitsOf)

/-- The letters of a number in bijective base 26; zero has none. -/
def columnLetters (number : Nat) : List Char :=
  if number = 0 then []
  else columnLetters ((number - 1) / 26) ++ [Char.ofNat ('A'.toNat + (number - 1) % 26)]

/-- The reference of a row and a column, both counted from zero. -/
def reference (row column : Nat) : List Char :=
  columnLetters (column + 1) ++ digitsOf (row + 1)

/-- The letters in the order of their values. -/
theorem letter_spec : ∀ value < 26,
    isCapital (Char.ofNat ('A'.toNat + value)) = true ∧
      letterValue (Char.ofNat ('A'.toNat + value)) = value + 1 ∧
      (Char.ofNat ('A'.toNat + value)).isDigit = false := by
  decide

theorem mem_columnLetters {number : Nat} {letter : Char} (member : letter ∈ columnLetters number) :
    isCapital letter = true ∧ letter.isDigit = false := by
  induction number using columnLetters.induct with
  | case1 => simp [columnLetters] at member
  | case2 number nonzero ih =>
    rw [columnLetters, if_neg nonzero, List.mem_append, List.mem_singleton] at member
    rcases member with front | rfl
    · exact ih front
    · have spec := letter_spec ((number - 1) % 26) (Nat.mod_lt _ (by decide))
      exact ⟨spec.1, spec.2.2⟩

/-- **Letters have the value that they are written for.** -/
theorem lettersValue_columnLetters (number : Nat) :
    lettersValue (columnLetters number) = number := by
  induction number using columnLetters.induct with
  | case1 =>
    rw [columnLetters, if_pos rfl]
    rfl
  | case2 number nonzero ih =>
    have spec := letter_spec ((number - 1) % 26) (Nat.mod_lt _ (by decide))
    rw [lettersValue] at ih
    rw [columnLetters, if_neg nonzero, lettersValue, List.foldl_append, ih, List.foldl_cons,
      List.foldl_nil, spec.2.1]
    omega

theorem column?_columnLetters {column : Nat} (small : column + 1 < positionBound) :
    column? (columnLetters (column + 1)) = some (UInt32.ofNat column) := by
  have nonempty : (columnLetters (column + 1)).isEmpty = false := by
    rw [columnLetters, if_neg (Nat.succ_ne_zero column)]
    simp
  have capitals : (columnLetters (column + 1)).all isCapital = true :=
    List.all_eq_true.2 fun letter member => (mem_columnLetters member).1
  rw [column?, nonempty, capitals, lettersValue_columnLetters]
  simp [small]

/-- **A text denotes a whole number**: digits, perhaps behind a plus sign. -/
def Denotes (text : List Char) (number : Nat) : Prop :=
  ∃ digits, (text = digits ∨ text = '+' :: digits) ∧ digits ≠ [] ∧
    (∀ c ∈ digits, c.isDigit = true) ∧ digitsValue digits = number

theorem denotes_digitsOf (number : Nat) : Denotes (digitsOf number) number :=
  ⟨digitsOf number, .inl rfl, Nat.toDigits_ne_nil, fun _ => isDigit_digitsOf,
    digitsValue_digitsOf number⟩

/-- A whole number is read exactly if it lies below the bound. -/
theorem readWhole?_of_denotes {text : List Char} {number : Nat} (denotes : Denotes text number)
    (bound : Nat) : readWhole? bound text = if number < bound then some number else none := by
  obtain ⟨digits, spelled, nonempty, areDigits, rfl⟩ := denotes
  have isNumber : (digits.isEmpty || !digits.all Char.isDigit) = false := by
    rw [List.isEmpty_eq_false_iff.2 nonempty, List.all_eq_true.2 areDigits]
    rfl
  have noSign : ∀ rest, digits ≠ '+' :: rest := by
    rintro rest rfl
    cases areDigits '+' (.head _)
  unfold readWhole?
  rcases spelled with rfl | rfl
  · split
    · next rest => exact absurd rfl (noSign rest)
    · simp only [isNumber, Bool.false_eq_true, if_false]
  · simp only [isNumber, Bool.false_eq_true, if_false]

/-- **A text is read as a whole number** exactly if it denotes one below the bound. -/
theorem readWhole?_eq_some_iff {text : List Char} {bound number : Nat} :
    readWhole? bound text = some number ↔ Denotes text number ∧ number < bound := by
  constructor
  · intro read
    refine ⟨?_, readWhole_lt read⟩
    obtain ⟨digits, spelled, readDigits⟩ : ∃ digits, (text = digits ∨ text = '+' :: digits) ∧
        (if digits.isEmpty || !digits.all Char.isDigit then none
          else if digitsValue digits < bound then some (digitsValue digits) else none)
            = some number := by
      unfold readWhole? at read
      dsimp only at read
      split at read
      · exact ⟨_, .inr rfl, read⟩
      · exact ⟨_, .inl rfl, read⟩
    split at readDigits
    · cases readDigits
    · rename_i isNumber
      rw [Bool.not_eq_true, Bool.or_eq_false_iff, List.isEmpty_eq_false_iff, Bool.not_eq_false',
        List.all_eq_true] at isNumber
      split at readDigits
      · exact ⟨digits, spelled, isNumber.1, isNumber.2, Option.some.inj readDigits⟩
      · cases readDigits
  · rintro ⟨denotes, small⟩
    rw [readWhole?_of_denotes denotes, if_pos small]

/-- A whole number below the bound is read from its digits. -/
theorem readWhole?_digitsOf {number bound : Nat} (small : number < bound) :
    readWhole? bound (digitsOf number) = some number :=
  readWhole?_eq_some_iff.2 ⟨denotes_digitsOf number, small⟩

theorem row?_digitsOf {row : Nat} (small : row + 1 < positionBound) :
    row? (digitsOf (row + 1)) = some (UInt32.ofNat row) := by
  rw [row?, readWhole?_digitsOf small]

/-- **A reference is split where its digits start.** -/
theorem split_reference {letters digits : List Char}
    (areLetters : ∀ letter ∈ letters, letter.isDigit = false)
    (areDigits : ∀ digit ∈ digits, digit.isDigit = true) :
    (letters ++ digits).takeWhile (!·.isDigit) = letters ∧
      (letters ++ digits).dropWhile (!·.isDigit) = digits := by
  have passed : ∀ letter ∈ letters, (!letter.isDigit) = true := fun letter member => by
    rw [areLetters letter member]
    rfl
  rw [List.takeWhile_append_of_pos passed, List.dropWhile_append_of_pos passed]
  cases digits with
  | nil => exact ⟨List.append_nil letters, rfl⟩
  | cons digit rest =>
    simp [areDigits digit (.head _)]

/-- **A reference names the position that it is written for.** -/
theorem ofReference?_reference {row column : Nat} (rowSmall : row + 1 < positionBound)
    (columnSmall : column + 1 < positionBound) :
    Position.ofReference? (reference row column)
      = some ⟨UInt32.ofNat row, UInt32.ofNat column⟩ := by
  obtain ⟨taken, dropped⟩ := @split_reference (columnLetters (column + 1)) (digitsOf (row + 1))
    (fun _ member => (mem_columnLetters member).2) fun _ => isDigit_digitsOf
  rw [Position.ofReference?, reference, taken, dropped, column?_columnLetters columnSmall,
    row?_digitsOf rowSmall]
  rfl

example : reference 0 0 = "A1".toList ∧ reference 2 27 = "AB3".toList := by decide +kernel

end ColumnCalc.Workbook
