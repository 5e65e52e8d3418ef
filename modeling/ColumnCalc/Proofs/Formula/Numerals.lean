/-
**Numbers are scanned whole.**

The text of a number is a mantissa and perhaps an exponent (`IsNumber`). Scanning finds such a text
at the start of what it is given, and finds the same one wherever nothing stands behind it that
continues a number.

* `exists_mantissa`, `exists_exponent`, `exists_number` — what is found has the form of a number.
* `mantissaLength_append`, `exponentLength_append`, `numberLength_append` — a number is found again
  in front of another text, and `numberLexeme_append` — as the same token or with the same fault.
-/

import ColumnCalc.Formula.Scan
import ColumnCalc.Proofs.Number.Shortest

namespace ColumnCalc.Scan

/-- **A mantissa**: digits, with a point among or behind them or not. -/
inductive IsMantissa : List Char → Prop
  | whole {digits : List Char} : (∀ c ∈ digits, c.isDigit = true) → IsMantissa digits
  | point {whole fraction : List Char} : (∀ c ∈ whole, c.isDigit = true) →
      (∀ c ∈ fraction, c.isDigit = true) → IsMantissa (whole ++ '.' :: fraction)

/-- **An exponent**: its mark, a sign or none, and digits. -/
inductive IsExponent : List Char → Prop
  | marked {mark : Char} {sign power : List Char} : mark = 'e' ∨ mark = 'E' →
      sign = [] ∨ sign = ['+'] ∨ sign = ['-'] → (∀ c ∈ power, c.isDigit = true) → power ≠ [] →
      IsExponent (mark :: (sign ++ power))

/-- **The text of a number.** -/
def IsNumber (text : List Char) : Prop :=
  ∃ mantissa exponent, text = mantissa ++ exponent ∧ IsMantissa mantissa ∧
    (exponent = [] ∨ IsExponent exponent)

/-! ### Characters -/

theorem ascii_of_isDigit {c : Char} (digit : c.isDigit = true) : c.toNat < 0x80 := by
  simp only [Char.isDigit, Bool.and_eq_true, decide_eq_true_eq, UInt32.le_iff_toNat_le] at digit
  have below : c.toNat ≤ 57 := digit.2
  omega

theorem continuesNumber_of_isDigit {c : Char} (digit : c.isDigit = true) :
    continuesNumber c = true := by
  simp [continuesNumber, continuesName, Text.isAlphanumeric_of_ascii (ascii_of_isDigit digit),
    Char.isAlphanum, digit]

/-- Where no number goes on there is no digit, no point and no mark of an exponent. -/
theorem noPart_of_continuesNumber {c : Char} (ends : continuesNumber c = false) :
    c.isDigit = false ∧ c ≠ '.' ∧ c ≠ 'e' ∧ c ≠ 'E' := by
  refine ⟨?_, ?_, ?_, ?_⟩
  · refine Bool.eq_false_iff.2 fun digit => ?_
    rw [continuesNumber_of_isDigit digit] at ends
    cases ends
  all_goals
    rintro rfl
    exact absurd ends (by decide)

/-! ### Digits -/

theorem digitCount_append {digits rest : List Char} (areDigits : ∀ c ∈ digits, c.isDigit = true)
    (stops : ∀ c ∈ rest.head?, c.isDigit = false) :
    digitCount (digits ++ rest) = digits.length := by
  rw [digitCount, splitDigits_digits areDigits stops]

/-- Digits are counted up to the first other character. -/
theorem exists_digits (text : List Char) :
    ∃ digits rest, text = digits ++ rest ∧ digitCount text = digits.length ∧
      (∀ c ∈ digits, c.isDigit = true) ∧ ∀ c ∈ rest.head?, c.isDigit = false := by
  refine ⟨(splitDigits text).1, (splitDigits text).2, (splitDigits_append text).symm, rfl,
    List.all_eq_true.1 (splitDigits_all text), fun c isFirst => ?_⟩
  have stops := List.head?_dropWhile_not Char.isDigit text
  rw [splitDigits, Option.mem_def] at isFirst
  rw [isFirst] at stops
  simpa using stops

/-! ### Mantissas -/

theorem mantissaLength_append {mantissa rest : List Char} (isMantissa : IsMantissa mantissa)
    (stops : ∀ c ∈ rest.head?, c.isDigit = false ∧ c ≠ '.') :
    mantissaLength (mantissa ++ rest) = mantissa.length := by
  have noDigit : ∀ c ∈ rest.head?, c.isDigit = false := fun c isFirst => (stops c isFirst).1
  cases isMantissa with
  | whole areDigits =>
    rw [mantissaLength, digitCount_append areDigits noDigit, List.drop_left]
    split
    · exact absurd rfl (stops '.' rfl).2
    · rfl
  | @point whole fraction areDigits further =>
    rw [List.append_assoc, List.cons_append, mantissaLength,
      digitCount_append areDigits (fun c isFirst => by cases isFirst; rfl), List.drop_left]
    simp only [digitCount_append further noDigit, List.length_append, List.length_cons]
    omega

theorem exists_mantissa (text : List Char) :
    ∃ mantissa rest, text = mantissa ++ rest ∧ mantissaLength text = mantissa.length ∧
      IsMantissa mantissa := by
  obtain ⟨whole, behind, rfl, count, areDigits, -⟩ := exists_digits text
  rw [mantissaLength, count, List.drop_left]
  split
  · rename_i rest
    obtain ⟨fraction, further, rfl, fractionCount, areFurther, -⟩ := exists_digits rest
    refine ⟨whole ++ '.' :: fraction, further, ?_, ?_, .point areDigits areFurther⟩
    · rw [List.append_assoc, List.cons_append]
    · rw [fractionCount, List.length_append, List.length_cons]
      omega
  · exact ⟨whole, behind, rfl, rfl, .whole areDigits⟩

/-! ### Exponents -/

theorem exponentLength_of_head {text : List Char} (noMark : ∀ c ∈ text.head?, c ≠ 'e' ∧ c ≠ 'E') :
    exponentLength text = 0 := by
  cases text with
  | nil => rfl
  | cons c rest =>
    have neither : ¬(c = 'e' ∨ c = 'E') := not_or.2 (noMark c rfl)
    simp only [exponentLength, if_neg neither]

/-- Behind the mark and the sign of an exponent its digits are counted. -/
theorem exponentLength_marked {mark : Char} {sign behind : List Char}
    (isMark : mark = 'e' ∨ mark = 'E')
    (isSign : sign = [] ∧ (∀ c ∈ behind.head?, c ≠ '+' ∧ c ≠ '-') ∨ sign = ['+'] ∨ sign = ['-']) :
    exponentLength (mark :: (sign ++ behind))
      = if 0 < digitCount behind then 1 + sign.length + digitCount behind else 0 := by
  rcases isSign with ⟨rfl, noSign⟩ | rfl | rfl
  · rw [List.nil_append]
    simp only [exponentLength, if_pos isMark]
    split
    · exact absurd rfl (noSign '+' rfl).1
    · exact absurd rfl (noSign '-' rfl).2
    · rfl
  · simp only [List.cons_append, List.nil_append, exponentLength, if_pos isMark, List.drop_one,
      List.tail_cons, List.length_singleton]
  · simp only [List.cons_append, List.nil_append, exponentLength, if_pos isMark, List.drop_one,
      List.tail_cons, List.length_singleton]

theorem exponentLength_append {exponent rest : List Char} (isExponent : IsExponent exponent)
    (stops : ∀ c ∈ rest.head?, c.isDigit = false) :
    exponentLength (exponent ++ rest) = exponent.length := by
  cases isExponent with
  | @marked mark sign power isMark isSign areDigits nonempty =>
    -- The first digit of the power is no sign.
    have noSign : ∀ c ∈ (power ++ rest).head?, c ≠ '+' ∧ c ≠ '-' := by
      intro c isFirst
      cases power with
      | nil => exact absurd rfl nonempty
      | cons digit power =>
        cases isFirst
        have isDigit := areDigits c (.head _)
        refine ⟨?_, ?_⟩ <;> rintro rfl <;> cases isDigit
    have positive := List.length_pos_iff.2 nonempty
    rw [List.cons_append, List.append_assoc,
      exponentLength_marked isMark (isSign.imp_left fun none => ⟨none, noSign⟩),
      digitCount_append areDigits stops, if_pos positive, List.length_cons, List.length_append]
    omega

/-- A text starts with a sign or not. -/
theorem exists_sign (text : List Char) :
    ∃ sign behind, text = sign ++ behind ∧
      (sign = [] ∧ (∀ c ∈ behind.head?, c ≠ '+' ∧ c ≠ '-') ∨ sign = ['+'] ∨ sign = ['-']) := by
  by_cases plus : text.head? = some '+'
  · obtain ⟨behind, rfl⟩ := List.head?_eq_some_iff.1 plus
    exact ⟨['+'], behind, rfl, .inr (.inl rfl)⟩
  · by_cases minus : text.head? = some '-'
    · obtain ⟨behind, rfl⟩ := List.head?_eq_some_iff.1 minus
      exact ⟨['-'], behind, rfl, .inr (.inr rfl)⟩
    · refine ⟨[], text, rfl, .inl ⟨rfl, fun c isFirst => ⟨?_, ?_⟩⟩⟩
      · rintro rfl
        exact plus isFirst
      · rintro rfl
        exact minus isFirst

theorem exists_exponent (text : List Char) :
    ∃ exponent rest, text = exponent ++ rest ∧ exponentLength text = exponent.length ∧
      (exponent = [] ∨ IsExponent exponent) := by
  have nothing (none : exponentLength text = 0) :
      ∃ exponent rest, text = exponent ++ rest ∧ exponentLength text = exponent.length ∧
        (exponent = [] ∨ IsExponent exponent) := ⟨[], text, rfl, none, .inl rfl⟩
  cases text with
  | nil => exact nothing rfl
  | cons mark rest =>
    by_cases isMark : mark = 'e' ∨ mark = 'E'
    · obtain ⟨sign, behind, rfl, isSign⟩ := exists_sign rest
      obtain ⟨power, rest, rfl, count, areDigits, -⟩ := exists_digits behind
      have length := exponentLength_marked isMark isSign
      by_cases nonempty : power = []
      · rw [count, if_neg (by rw [nonempty]; exact Nat.lt_irrefl 0)] at length
        exact nothing length
      · rw [count, if_pos (List.length_pos_iff.2 nonempty)] at length
        refine ⟨mark :: (sign ++ power), rest, ?_, ?_,
          .inr (.marked isMark (isSign.imp_left And.left) areDigits nonempty)⟩
        · rw [List.cons_append, List.append_assoc]
        · rw [length, List.length_cons, List.length_append]
          omega
    · refine nothing (exponentLength_of_head fun c isFirst => ?_)
      cases isFirst
      exact not_or.1 isMark

/-! ### Numbers -/

theorem exists_number (text : List Char) :
    ∃ number rest, text = number ++ rest ∧ numberLength text = number.length ∧ IsNumber number := by
  obtain ⟨mantissa, behind, rfl, length, isMantissa⟩ := exists_mantissa text
  obtain ⟨exponent, rest, rfl, further, isExponent⟩ := exists_exponent behind
  refine ⟨mantissa ++ exponent, rest, (List.append_assoc ..).symm, ?_, mantissa, exponent, rfl,
    isMantissa, isExponent⟩
  rw [numberLength, length, List.drop_left, further, List.length_append]

/-- **A number is found again** wherever nothing behind it continues it. -/
theorem numberLength_append {number rest : List Char} (isNumber : IsNumber number)
    (stops : ∀ c ∈ rest.head?, continuesNumber c = false) :
    numberLength (number ++ rest) = number.length := by
  obtain ⟨mantissa, exponent, rfl, isMantissa, none | isExponent⟩ := isNumber
  · subst none
    rw [List.append_nil, numberLength,
      mantissaLength_append isMantissa fun c isFirst =>
        have ends := noPart_of_continuesNumber (stops c isFirst)
        ⟨ends.1, ends.2.1⟩,
      List.drop_left, exponentLength_of_head fun c isFirst =>
        (noPart_of_continuesNumber (stops c isFirst)).2.2]
    rfl
  · have isMark : ∀ c ∈ (exponent ++ rest).head?, c.isDigit = false ∧ c ≠ '.' := by
      cases isExponent with
      | marked isMark =>
        intro c isFirst
        cases isFirst
        rcases isMark with rfl | rfl
        · exact ⟨rfl, by decide⟩
        · exact ⟨rfl, by decide⟩
    rw [List.append_assoc, numberLength, mantissaLength_append isMantissa isMark, List.drop_left,
      exponentLength_append isExponent fun c isFirst =>
        (noPart_of_continuesNumber (stops c isFirst)).1, List.length_append]

/-! ### Tokens -/

theorem any_continuesNumber_eq_false_iff {text : List Char} :
    text.head?.any continuesNumber = false ↔ ∀ c ∈ text.head?, continuesNumber c = false := by
  cases text <;> simp

/-- **What becomes of a number** depends on nothing behind it, unless that continues it. -/
theorem numberLexeme_append {number rest : List Char} (isNumber : IsNumber number)
    (stops : ∀ c ∈ rest.head?, continuesNumber c = false) :
    numberLexeme (number ++ rest) = numberLexeme number := by
  have ends : rest.head?.any continuesNumber = false := any_continuesNumber_eq_false_iff.2 stops
  have alone : numberLength number = number.length := by
    have length := @numberLength_append number [] isNumber nofun
    rwa [List.append_nil] at length
  simp only [numberLexeme, numberLength_append isNumber stops, alone, List.take_left,
    List.drop_left, List.take_length, List.drop_length, ends, List.head?_nil, Option.any_none,
    Bool.false_eq_true, if_false]

/-- A number that is a token is taken whole, nothing that continues it stands behind it, and its value
is finite. -/
theorem token_of_numberLexeme {text : List Char} {kind : TokenKind} {taken : Nat}
    (isToken : numberLexeme text = .token kind taken) :
    taken = numberLength text ∧
      (∀ c ∈ (text.drop (numberLength text)).head?, continuesNumber c = false) ∧
      ∃ value, kind = .number value ∧ readNumber? (text.take (numberLength text)) = some value ∧
        value.isFinite = true := by
  simp only [numberLexeme] at isToken
  split at isToken
  · cases isToken
  · rename_i following
    have ends := any_continuesNumber_eq_false_iff.1 (Bool.eq_false_iff.2 following)
    split at isToken
    · cases isToken
    · rename_i value isValue
      split at isToken
      · rename_i isFinite
        cases isToken
        exact ⟨rfl, ends, value, rfl, isValue, isFinite⟩
      · cases isToken

end ColumnCalc.Scan
