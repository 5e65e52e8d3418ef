/-
**Number tokens.**

A number token starts with a digit or a point, so it has no sign, and it is refused when it is out of
range: every number of a formula's text is finite and not negative.

* `nonnegative_of_readNumber` — a finite number read from a text without a sign is not negative.
* `number_of_lexeme`, `number_of_itemsOf` — every number token comes from such a text.
-/

import ColumnCalc.Proofs.Formula.Spans
import ColumnCalc.Proofs.Number.Comparison

namespace ColumnCalc

open Binary64 (infinityRank zero_le_ofRank)

/-! ### Reading -/

theorem rankOf_le (digits : Nat) (exponent : Int) : Numeral.rankOf digits exponent ≤ infinityRank := by
  unfold Numeral.rankOf
  split
  · exact Nat.zero_le _
  · split
    · split
      · exact Nat.le_refl _
      · exact Nat.min_le_left _ _
    · split
      · exact Nat.zero_le _
      · exact Nat.min_le_left _ _

/-- The sign of a numeral is the one in front. -/
theorem negative_of_read {text : List Char} {numeral : Numeral}
    (read : Numeral.read? text = some numeral) :
    numeral.negative = (Numeral.splitSign text).1 := by
  unfold Numeral.read? at read
  simp only at read
  split at read
  all_goals
    split at read
    · cases read
    · obtain ⟨exponent, _, same⟩ := Option.map_eq_some_iff.1 read
      rw [← same]

/-- **A finite number read from a text without a sign is not negative.** -/
theorem nonnegative_of_readNumber {c : Char} {rest : List Char} {value : Float}
    (noMinus : c ≠ '-') (noPlus : c ≠ '+') (found : readNumber? (c :: rest) = some value)
    (isFinite : value.isFinite = true) : 0 ≤ value := by
  have unsigned := Numeral.splitSign_unsigned rest noMinus noPlus
  unfold readNumber? at found
  split at found
  · rename_i numeral read
    have noSign : numeral.negative = false := by
      rw [negative_of_read read, unsigned]
    cases found
    rw [Numeral.toFloat, noSign]
    exact zero_le_ofRank (rankOf_le _ _)
  · rw [unsigned] at found
    simp only at found
    split at found
    · cases found
      exact zero_le_ofRank (Nat.le_refl _)
    · split at found
      · cases found
        have notFinite : Float.isFinite (0.0 / 0.0) = false := by decide +kernel
        rw [notFinite] at isFinite
        cases isFinite
      · cases found

/-! ### Scanning -/

/-- A number is finite and, as it starts with a digit or a point, not negative. -/
theorem number_of_numberLexeme {c : Char} {rest : List Char} {value : Float} {taken : Nat}
    (starts : c = '.' ∨ c.isDigit = true)
    (found : Scan.numberLexeme (c :: rest) = .token (.number value) taken) :
    value.isFinite = true ∧ 0 ≤ value := by
  have positive := Scan.numberLength_pos rest starts
  obtain ⟨length, isLength⟩ := Nat.exists_eq_succ_of_ne_zero (Nat.ne_of_gt positive)
  have noMinus : c ≠ '-' := by
    rintro rfl
    simp at starts
  have noPlus : c ≠ '+' := by
    rintro rfl
    simp at starts
  obtain ⟨-, -, _, same, isValue, isFinite⟩ := Scan.token_of_numberLexeme found
  cases same
  rw [isLength, List.take_succ_cons] at isValue
  exact ⟨isFinite, nonnegative_of_readNumber noMinus noPlus isValue isFinite⟩

theorem keyword_ne_number (word : String) (value : Float) :
    (Scan.keyword? word).getD .name ≠ .number value := by
  intro same
  unfold Scan.keyword? at same
  split at same <;> cases same

theorem number_of_lexeme {c : Char} {rest : List Char} {value : Float} {taken : Nat}
    (found : Scan.lexeme c rest = .token (.number value) taken) :
    value.isFinite = true ∧ 0 ≤ value := by
  rcases Scan.origin_of_lexeme found with isSign | ⟨-, isName⟩ | ⟨starts, isNumber⟩
  · exact absurd rfl (isSign.2 value)
  · simp only [Scan.nameLexeme, Scan.Lexeme.token.injEq] at isName
    exact absurd isName.1 (keyword_ne_number _ value)
  · exact number_of_numberLexeme starts isNumber

/-- **Every number of a formula's text is finite and not negative.** -/
theorem number_of_itemsOf {formula : String} {token : Token} {value : Float}
    (member : .ok token ∈ itemsOf formula) (isNumber : token.kind = .number value) :
    value.isFinite = true ∧ 0 ≤ value := by
  obtain ⟨c, rest, taken, found, -⟩ := lexeme_of_itemsOf member
  rw [isNumber] at found
  exact number_of_lexeme found

end ColumnCalc
