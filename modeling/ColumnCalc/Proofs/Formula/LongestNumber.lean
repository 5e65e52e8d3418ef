/-
**The longest number is taken, and it can be read.**

A literal is digits with or without a point among or behind them, or a point with digits behind it,
and perhaps an exponent. Where a number starts, a literal is scanned, and no longer part of the text
from there on is one. Numerals are literals with or without a sign in front, so what is scanned can
be read: a text that starts as a number is refused only for a character that continues it, or
because its value is out of range.

* `length_le_numberLength` — scanning takes no less than any literal that stands there.
* `isLiteral_of_starts` — what is scanned where a number starts is a literal.
* `Numeral.isSome_read?_iff_isLiteral` — the texts that are read as numerals, and
  `exists_value` — literals are.
* `number_scanned_whole` — all of it, for every text and every formula.
-/

import ColumnCalc.Proofs.Formula.NumeralBytes
import ColumnCalc.Proofs.Formula.Spans

namespace ColumnCalc

open Text.Utf8 (size encode cut?)

namespace Scan

/-! ### Literals -/

/-- **The digits of a literal**, of which there is one at least, and its point. -/
inductive IsSignificand : List Char → Prop
  | whole {digits : List Char} : (∀ c ∈ digits, c.isDigit = true) → digits ≠ [] →
      IsSignificand digits
  | point {whole fraction : List Char} : (∀ c ∈ whole, c.isDigit = true) → whole ≠ [] →
      (∀ c ∈ fraction, c.isDigit = true) → IsSignificand (whole ++ '.' :: fraction)
  | fraction {digits : List Char} : (∀ c ∈ digits, c.isDigit = true) → digits ≠ [] →
      IsSignificand ('.' :: digits)

/-- **A literal**: digits and a point, and an exponent or none. -/
def IsLiteral (text : List Char) : Prop :=
  ∃ significand exponent, text = significand ++ exponent ∧ IsSignificand significand ∧
    (exponent = [] ∨ IsExponent exponent)

theorem IsSignificand.isMantissa {significand : List Char} (shows : IsSignificand significand) :
    IsMantissa significand := by
  cases shows with
  | whole areDigits _ => exact .whole areDigits
  | point areDigits _ further => exact .point areDigits further
  | fraction areDigits _ => exact @IsMantissa.point [] _ (List.forall_mem_nil _) areDigits

theorem IsLiteral.isNumber {text : List Char} (isLiteral : IsLiteral text) : IsNumber text := by
  obtain ⟨significand, exponent, split, shows, isExponent⟩ := isLiteral
  exact ⟨significand, exponent, split, shows.isMantissa, isExponent⟩

theorem IsSignificand.nonempty {significand : List Char} (shows : IsSignificand significand) :
    significand ≠ [] := by
  cases shows with
  | whole _ nonempty => exact nonempty
  | point _ _ _ => exact List.append_ne_nil_of_right_ne_nil _ (List.cons_ne_nil _ _)
  | fraction _ _ => exact List.cons_ne_nil _ _

/-- A literal starts with a digit or with its point. -/
theorem IsSignificand.starts {significand : List Char} (shows : IsSignificand significand) :
    ∀ c ∈ significand.head?, c = '.' ∨ c.isDigit = true := by
  intro c isFirst
  cases shows with
  | whole areDigits _ => exact .inr (areDigits c (List.mem_of_mem_head? isFirst))
  | @point whole _ areDigits nonempty _ =>
    obtain ⟨first, more, rfl⟩ := List.exists_cons_of_ne_nil nonempty
    cases isFirst
    exact .inr (areDigits c (.head _))
  | fraction _ _ =>
    cases isFirst
    exact .inl rfl

/-! ### No longer literal -/

/-- No digits are left out. -/
theorem length_le_digitCount {digits : List Char} (areDigits : ∀ c ∈ digits, c.isDigit = true)
    (rest : List Char) : digits.length ≤ digitCount (digits ++ rest) := by
  rw [digitCount, splitDigits, List.takeWhile_append_of_pos areDigits, List.length_append]
  exact Nat.le_add_right ..

theorem mantissaLength_point {whole : List Char} (areDigits : ∀ c ∈ whole, c.isDigit = true)
    (rest : List Char) :
    mantissaLength (whole ++ '.' :: rest) = whole.length + (1 + digitCount rest) := by
  rw [mantissaLength, digitCount_append areDigits (fun c isFirst => by cases isFirst; rfl),
    List.drop_left]
  rfl

theorem length_le_mantissaLength {mantissa : List Char} (isMantissa : IsMantissa mantissa)
    (rest : List Char) : mantissa.length ≤ mantissaLength (mantissa ++ rest) := by
  cases isMantissa with
  | whole areDigits =>
    have counted := length_le_digitCount areDigits rest
    simp only [mantissaLength]
    split <;> omega
  | point areDigits further =>
    have counted := length_le_digitCount further rest
    rw [List.append_assoc, List.cons_append, mantissaLength_point areDigits, List.length_append,
      List.length_cons]
    omega

/-- No sign is a digit. -/
theorem noSign_of_digits {digits : List Char} (areDigits : ∀ c ∈ digits, c.isDigit = true)
    (nonempty : digits ≠ []) (rest : List Char) :
    ∀ c ∈ (digits ++ rest).head?, c ≠ '+' ∧ c ≠ '-' := by
  obtain ⟨first, more, rfl⟩ := List.exists_cons_of_ne_nil nonempty
  have isDigit := areDigits first (.head _)
  intro c isFirst
  cases isFirst
  refine ⟨?_, ?_⟩ <;> rintro rfl <;> cases isDigit

theorem length_le_exponentLength {exponent : List Char} (isExponent : IsExponent exponent)
    (rest : List Char) : exponent.length ≤ exponentLength (exponent ++ rest) := by
  cases isExponent with
  | @marked mark sign power isMark isSign areDigits nonempty =>
    have counted := length_le_digitCount areDigits rest
    have some := List.length_pos_iff.2 nonempty
    have noSign := noSign_of_digits areDigits nonempty rest
    rw [List.cons_append, List.append_assoc,
      exponentLength_marked isMark (isSign.imp_left fun none => ⟨none, noSign⟩),
      if_pos (Nat.lt_of_lt_of_le some counted), List.length_cons, List.length_append]
    omega

/-- An exponent starts with its mark, so a mantissa in front of it ends there. -/
theorem mark_of_isExponent {exponent : List Char} (isExponent : IsExponent exponent)
    (rest : List Char) :
    ∀ c ∈ (exponent ++ rest).head?, c.isDigit = false ∧ c ≠ '.' := by
  cases isExponent with
  | marked isMark =>
    intro c isFirst
    cases isFirst
    rcases isMark with rfl | rfl
    · exact ⟨rfl, by decide⟩
    · exact ⟨rfl, by decide⟩

/-- **Scanning takes no less than any number that stands there.** -/
theorem length_le_numberLength {number : List Char} (isNumber : IsNumber number)
    (rest : List Char) : number.length ≤ numberLength (number ++ rest) := by
  obtain ⟨mantissa, exponent, rfl, isMantissa, none | isExponent⟩ := isNumber
  · have taken := length_le_mantissaLength isMantissa rest
    rw [none, List.append_nil, numberLength]
    omega
  · have taken := length_le_exponentLength isExponent rest
    rw [List.append_assoc, numberLength,
      mantissaLength_append isMantissa (mark_of_isExponent isExponent rest), List.drop_left,
      List.length_append]
    omega

/-! ### Where a number starts -/

/-- **A number starts** at a digit, and at a point in front of one. -/
def StartsNumber (c : Char) (rest : List Char) : Prop :=
  c.isDigit = true ∨ c = '.' ∧ ∃ d ∈ rest.head?, d.isDigit = true

/-- A digit or a point is nothing else that starts an item. -/
theorem startOf_of_starts {c : Char} {rest : List Char} (starts : StartsNumber c rest) :
    startOf c rest = .number := by
  have notSingle : single? c = none := by
    unfold single?
    split <;> first | rfl | simp [StartsNumber] at starts
  have notDouble : double? c = none := by
    unfold double?
    split <;> first | rfl | simp [StartsNumber] at starts
  have notQuote : ¬(c = '"' ∨ c = '\'') := by
    rintro (rfl | rfl) <;> simp [StartsNumber] at starts
  have notPoint : ¬(c = '.' ∧ !rest.head?.any Char.isDigit) := by
    rintro ⟨rfl, noDigit⟩
    rcases starts with isDigit | ⟨-, d, isFirst, isDigit⟩
    · cases isDigit
    · rw [Option.mem_def.1 isFirst, Option.any_some, isDigit] at noDigit
      cases noDigit
  have isNumber : c = '.' ∨ c.isDigit = true := starts.symm.imp_left And.left
  simp only [startOf, notSingle, notDouble, if_neg notQuote, if_neg notPoint, if_pos isNumber]

/-- Only where a number starts is one looked for. -/
theorem starts_of_startOf {c : Char} {rest : List Char} (isStart : startOf c rest = .number) :
    StartsNumber c rest := by
  have fits := startOf_fits c rest
  rw [isStart] at fits
  rcases fits with rfl | isDigit
  · refine .inr ⟨rfl, ?_⟩
    cases isFirst : rest.head? with
    | none =>
      rw [startOf] at isStart
      simp [single?, double?, isFirst] at isStart
    | some d =>
      refine ⟨d, rfl, ?_⟩
      cases isDigit : d.isDigit with
      | true => rfl
      | false =>
        rw [startOf] at isStart
        simp [single?, double?, isFirst, isDigit] at isStart
  · exact .inl isDigit

/-- **What is scanned where a number starts is a literal.** -/
theorem isLiteral_of_starts {c : Char} {rest : List Char} (starts : StartsNumber c rest) :
    ∃ number behind, c :: rest = number ++ behind ∧ numberLength (c :: rest) = number.length ∧
      IsLiteral number := by
  obtain ⟨mantissa, tail, split, length, isMantissa⟩ := exists_mantissa (c :: rest)
  obtain ⟨exponent, behind, rfl, further, isExponent⟩ := exists_exponent tail
  refine ⟨mantissa ++ exponent, behind, by rw [split, List.append_assoc], ?_, mantissa, exponent,
    rfl, ?_, isExponent⟩
  · rw [numberLength, length, split, List.drop_left, further, List.length_append]
  · -- A mantissa without digits would be shorter than what is counted.
    have positive := mantissaLength_pos rest (starts.symm.imp_left And.left)
    cases isMantissa with
    | whole areDigits => exact .whole areDigits (List.length_pos_iff.1 (length ▸ positive))
    | @point whole fraction areDigits areFurther =>
      by_cases noWhole : whole = []
      · subst noWhole
        rw [List.nil_append] at split length ⊢
        obtain ⟨rfl, isRest⟩ := List.cons_eq_cons.1 split
        refine .fraction areFurther ?_
        rintro rfl
        rcases starts with isDigit | ⟨-, d, isFirst, isDigit⟩
        · cases isDigit
        · obtain ⟨more, rfl⟩ := List.head?_eq_some_iff.1 isFirst
          have counted := digitCount_cons_pos more isDigit
          rw [← List.nil_append ('.' :: d :: more), mantissaLength_point (List.forall_mem_nil _),
            List.length_singleton, List.length_nil] at length
          omega
      · exact .point areDigits noWhole areFurther

/-! ### The parts of a literal -/

/-- A literal has the mantissa that is counted in it. -/
theorem isLiteral_append_iff {mantissa exponent : List Char}
    (length : mantissaLength (mantissa ++ exponent) = mantissa.length) :
    IsLiteral (mantissa ++ exponent) ↔
      IsSignificand mantissa ∧ (exponent = [] ∨ IsExponent exponent) := by
  constructor
  · rintro ⟨significand, tail, split, shows, isExponent⟩
    have ends : ∀ c ∈ tail.head?, c.isDigit = false ∧ c ≠ '.' := by
      rcases isExponent with rfl | isExponent
      · exact nofun
      · have isMark := mark_of_isExponent isExponent []
        rwa [List.append_nil] at isMark
    rw [split, mantissaLength_append shows.isMantissa ends] at length
    obtain ⟨rfl, rfl⟩ := List.append_inj split length.symm
    exact ⟨shows, isExponent⟩
  · rintro ⟨shows, isExponent⟩
    exact ⟨mantissa, exponent, rfl, shows, isExponent⟩

theorem IsSignificand.exists_digit {significand : List Char} (shows : IsSignificand significand) :
    ∃ c ∈ significand, c.isDigit = true := by
  have some {digits : List Char} (areDigits : ∀ c ∈ digits, c.isDigit = true)
      (nonempty : digits ≠ []) : ∃ c ∈ digits, c.isDigit = true := by
    obtain ⟨c, member⟩ := List.exists_mem_of_ne_nil digits nonempty
    exact ⟨c, member, areDigits c member⟩
  cases shows with
  | whole areDigits nonempty => exact some areDigits nonempty
  | point areDigits nonempty _ =>
    obtain ⟨c, member, isDigit⟩ := some areDigits nonempty
    exact ⟨c, List.mem_append_left _ member, isDigit⟩
  | fraction areDigits nonempty =>
    obtain ⟨c, member, isDigit⟩ := some areDigits nonempty
    exact ⟨c, .tail _ member, isDigit⟩

theorem isSignificand_point_iff {whole fraction : List Char}
    (areDigits : ∀ c ∈ whole, c.isDigit = true) (further : ∀ c ∈ fraction, c.isDigit = true) :
    IsSignificand (whole ++ '.' :: fraction) ↔ ¬(whole = [] ∧ fraction = []) := by
  constructor
  · rintro shows ⟨rfl, rfl⟩
    obtain ⟨c, member, isDigit⟩ := shows.exists_digit
    rw [List.mem_singleton.1 member] at isDigit
    cases isDigit
  · intro nonempty
    by_cases noWhole : whole = []
    · subst noWhole
      exact .fraction further fun none => nonempty ⟨rfl, none⟩
    · exact .point areDigits noWhole further

theorem isSignificand_whole_iff {digits : List Char} (areDigits : ∀ c ∈ digits, c.isDigit = true) :
    IsSignificand digits ↔ digits ≠ [] :=
  ⟨IsSignificand.nonempty, .whole areDigits⟩

end Scan

/-! ### Numerals -/

namespace Numeral

open Scan (IsExponent IsLiteral IsSignificand exists_sign exists_digits isLiteral_append_iff)

/-- A sign is split off. -/
theorem splitSign_append {sign behind : List Char}
    (isSign : sign = [] ∧ (∀ c ∈ behind.head?, c ≠ '+' ∧ c ≠ '-') ∨ sign = ['+'] ∨ sign = ['-']) :
    (splitSign (sign ++ behind)).2 = behind := by
  rcases isSign with ⟨rfl, noSign⟩ | rfl | rfl
  · cases behind with
    | nil => rfl
    | cons c rest =>
      have isOther := noSign c rfl
      rw [List.nil_append, splitSign_unsigned rest isOther.2 isOther.1]
  · rfl
  · rfl

/-- **An exponent is read exactly if it has the form of one.** -/
theorem isSome_readExponent?_iff {text : List Char} :
    (readExponent? text).isSome = true ↔ text = [] ∨ IsExponent text := by
  cases text with
  | nil => exact ⟨fun _ => .inl rfl, fun _ => rfl⟩
  | cons mark rest =>
    by_cases isMark : mark = 'e' ∨ mark = 'E'
    · have read : (readExponent? (mark :: rest)).isSome
          = (!(splitSign rest).2.isEmpty && (splitSign rest).2.all Char.isDigit) := by
        simp only [readExponent?, if_pos isMark]
        split <;> simp_all
      rw [read, Bool.and_eq_true, Bool.not_eq_true', List.isEmpty_eq_false_iff, List.all_eq_true]
      constructor
      · obtain ⟨sign, power, rfl, isSign⟩ := exists_sign rest
        rw [splitSign_append isSign]
        rintro ⟨nonempty, areDigits⟩
        exact .inr (.marked isMark (isSign.imp_left And.left) areDigits nonempty)
      · rintro (none | isExponent)
        · cases none
        · cases isExponent with
          | @marked _ sign power _ isSign areDigits nonempty =>
            have noSign := Scan.noSign_of_digits areDigits nonempty []
            rw [List.append_nil] at noSign
            rw [splitSign_append (isSign.imp_left fun none => ⟨none, noSign⟩)]
            exact ⟨nonempty, areDigits⟩
    · have read : readExponent? (mark :: rest) = none := by
        simp only [readExponent?, if_neg isMark]
      rw [read]
      constructor
      · intro impossible
        cases impossible
      · rintro (none | isExponent)
        · cases none
        · cases isExponent with
          | marked isOther => exact absurd isOther isMark

/-- **A text is read as a numeral exactly if it is a literal**, but for a sign in front. -/
theorem isSome_read?_iff_isLiteral {text : List Char} :
    (read? text).isSome = true ↔ IsLiteral (splitSign text).2 := by
  obtain ⟨whole, behind, split, count, areDigits, stops⟩ := exists_digits (splitSign text).2
  have runs : splitDigits (splitSign text).2 = (whole, behind) := by
    rw [split, splitDigits_digits areDigits stops]
  by_cases isPoint : behind.head? = some '.'
  · obtain ⟨rest, rfl⟩ := List.head?_eq_some_iff.1 isPoint
    obtain ⟨fraction, exponent, rfl, further, areFurther, ends⟩ := exists_digits rest
    have length : Scan.mantissaLength (whole ++ '.' :: fraction ++ exponent)
        = (whole ++ '.' :: fraction).length := by
      rw [List.append_assoc, List.cons_append, Scan.mantissaLength_point areDigits, further,
        List.length_append, List.length_cons]
      omega
    rw [split, ← List.cons_append, ← List.append_assoc, isLiteral_append_iff length,
      Scan.isSignificand_point_iff areDigits areFurther, ← isSome_readExponent?_iff]
    simp only [read?, runs, splitDigits_digits areFurther ends]
    by_cases nothing : whole = [] ∧ fraction = []
    · simp [nothing.1, nothing.2]
    · have some : (whole.isEmpty && fraction.isEmpty) = false := by simpa using nothing
      simp [some, nothing]
  · have length : Scan.mantissaLength (whole ++ behind) = whole.length := by
      rw [Scan.mantissaLength, Scan.digitCount_append areDigits stops, List.drop_left]
      split
      · exact absurd rfl isPoint
      · rfl
    rw [split, isLiteral_append_iff length, Scan.isSignificand_whole_iff areDigits,
      ← isSome_readExponent?_iff]
    simp only [read?, runs]
    split
    · exact absurd rfl isPoint
    · by_cases nothing : whole = []
      · simp [nothing]
      · simp [nothing]

/-- A literal has no sign in front. -/
theorem splitSign_of_isLiteral {text : List Char} (isLiteral : IsLiteral text) :
    splitSign text = (false, text) := by
  obtain ⟨significand, exponent, rfl, shows, -⟩ := isLiteral
  obtain ⟨first, more, rfl⟩ := List.exists_cons_of_ne_nil shows.nonempty
  have starts := shows.starts first rfl
  refine splitSign_unsigned _ ?_ ?_ <;> rintro rfl <;> simp at starts

/-- **Literals can be read.** -/
theorem exists_value {text : List Char} (isLiteral : IsLiteral text) :
    ∃ numeral, read? text = some numeral ∧ readNumber? text = some numeral.toFloat := by
  have isSome : (read? text).isSome = true := by
    rw [isSome_read?_iff_isLiteral, splitSign_of_isLiteral isLiteral]
    exact isLiteral
  obtain ⟨numeral, read⟩ := Option.isSome_iff_exists.1 isSome
  refine ⟨numeral, read, ?_⟩
  rw [readNumber?, read]

end Numeral

namespace Scan

/-! ### What becomes of a number -/

/-- A character that stands behind a number and continues it: a point, an underscore, a letter or a
digit. -/
def Continues (c : Char) : Prop :=
  c = '.' ∨ c = '_' ∨ Text.isAlphanumeric c = true

theorem continues_iff {c : Char} : Continues c ↔ continuesNumber c = true := by
  simp only [Continues, continuesNumber, continuesName, Bool.or_eq_true, beq_iff_eq]

/-- **What becomes of a number that can be read**: a fault if it is continued, a token if its value
is finite, and else the fault that it is out of range. -/
structure Becomes (text number behind : List Char) (value : Float) (found : Lexeme) : Prop where
  continued : (∃ c ∈ behind.head?, Continues c) →
    found = .fault (.malformedNumber (String.ofList (text.takeWhile continuesNumber)))
      (size (text.takeWhile continuesNumber)) number.length
  finite : (∀ c ∈ behind.head?, ¬Continues c) → value.isFinite = true →
    found = .token (.number value) number.length
  outOfRange : (∀ c ∈ behind.head?, ¬Continues c) → ¬value.isFinite = true →
    found = .fault (.numberOutOfRange (String.ofList number)) (size number) number.length

theorem becomes_of_read {text number behind : List Char} {value : Float}
    (split : text = number ++ behind) (length : numberLength text = number.length)
    (read : readNumber? number = some value) :
    Becomes text number behind value (numberLexeme text) := by
  have literal : text.take number.length = number := by rw [split, List.take_left]
  have following : text.drop number.length = behind := by rw [split, List.drop_left]
  have ends (apart : ∀ c ∈ behind.head?, ¬Continues c) :
      behind.head?.any continuesNumber = false :=
    any_continuesNumber_eq_false_iff.2 fun c isFirst =>
      Bool.eq_false_iff.2 (mt continues_iff.2 (apart c isFirst))
  constructor
  · rintro ⟨c, isFirst, continues⟩
    have goesOn : behind.head?.any continuesNumber = true := by
      rw [Option.mem_def.1 isFirst, Option.any_some, continues_iff.1 continues]
    simp only [numberLexeme, length, following, goesOn, if_true]
  · intro apart isFinite
    simp only [numberLexeme, length, following, ends apart, literal, read, isFinite, if_true,
      Bool.false_eq_true, if_false]
  · intro apart notFinite
    simp only [numberLexeme, length, following, ends apart, literal, read, if_neg notFinite,
      Bool.false_eq_true, if_false]

/-- A number that starts an item is no number that cannot be read. -/
theorem readable_of_numberLexeme {c : Char} {rest : List Char} (starts : StartsNumber c rest)
    {literal : String} {bytes taken : Nat} :
    numberLexeme (c :: rest) ≠ .fault (.unreadableNumber literal) bytes taken := by
  obtain ⟨number, behind, split, length, isLiteral⟩ := isLiteral_of_starts starts
  obtain ⟨numeral, -, read⟩ := Numeral.exists_value isLiteral
  have becomes := becomes_of_read split length read
  intro found
  rw [found] at becomes
  by_cases continues : ∃ c ∈ behind.head?, Continues c
  · cases becomes.continued continues
  · have apart : ∀ c ∈ behind.head?, ¬Continues c := fun c isFirst goesOn =>
      continues ⟨c, isFirst, goesOn⟩
    by_cases isFinite : numeral.toFloat.isFinite = true
    · cases becomes.finite apart isFinite
    · cases becomes.outOfRange apart isFinite

/-- **No lexeme is a number that cannot be read.** -/
theorem lexeme_readable (c : Char) (rest : List Char) (literal : String) (bytes taken : Nat) :
    lexeme c rest ≠ .fault (.unreadableNumber literal) bytes taken := by
  rw [lexeme_eq]
  cases isStart : startOf c rest <;> intro found
  case single => cases found
  case double second pair alone =>
    simp only [Start.lexeme] at found
    split at found <;> cases found
  case string =>
    simp only [Start.lexeme, stringLexeme] at found
    split at found <;> cases found
  case point => cases found
  case number => exact readable_of_numberLexeme (starts_of_startOf isStart) found
  case name => cases found
  case other => cases found

end Scan

/-- **The longest number is scanned, and it can be read.** Where a number starts, as many characters
and bytes are scanned as the longest literal has that stands there. It is not empty, it ends between
two characters, and it is read as a numeral. So there are three ways on: the number is continued by
a point, an underscore, a letter or a digit and is malformed, its value is finite and it is a token,
or its value is out of range. No formula has a number that is at fault because it cannot be read. -/
theorem number_scanned_whole :
    (∀ (c : Char) (rest : List Char), Scan.StartsNumber c rest →
      ∃ number behind, c :: rest = number ++ behind ∧ Scan.IsLiteral number ∧
        (∀ other, other <+: c :: rest → Scan.IsLiteral other → other.length ≤ number.length) ∧
        Scan.numberLength (c :: rest) = number.length ∧
        Scan.numberBytes? (encode (c :: rest)) = some (size number) ∧
        1 ≤ size number ∧
        cut? (size number) (c :: rest) = some (number, behind) ∧
        ∃ numeral, Numeral.read? number = some numeral ∧
          Scan.Becomes (c :: rest) number behind numeral.toFloat (Scan.lexeme c rest)) ∧
    ∀ (formula literal : String) (span : Span),
      .error (.malformed (.unreadableNumber literal) span) ∉ itemsOf formula := by
  refine ⟨fun c rest starts => ?_, fun formula literal span member => ?_⟩
  · obtain ⟨number, behind, split, length, isLiteral⟩ := Scan.isLiteral_of_starts starts
    obtain ⟨numeral, read, value⟩ := Numeral.exists_value isLiteral
    have bytes : size number = number.length :=
      Text.Utf8.size_of_ascii (Scan.ascii_of_isNumber isLiteral.isNumber)
    have positive := Scan.numberLength_pos rest (starts.symm.imp_left And.left)
    refine ⟨number, behind, split, isLiteral, ?_, length, ?_, ?_,
      Text.Utf8.cut?_eq_some_iff.2 ⟨split, rfl⟩, numeral, read, ?_⟩
    · rintro other ⟨more, isPrefix⟩ isOther
      rw [← length, ← isPrefix]
      exact Scan.length_le_numberLength isOther.isNumber more
    · rw [Scan.numberBytes?_encode, length, bytes]
    · rw [bytes, ← length]
      exact positive
    · rw [Scan.lexeme_eq, Scan.startOf_of_starts starts]
      exact Scan.becomes_of_read split length value
  · obtain ⟨front, c, rest, -, -, isItem⟩ := @Scan.lexeme_of_items [] _ _ member
    cases found : Scan.lexeme c rest with
    | token kind taken =>
      rw [found] at isItem
      cases isItem
    | fault cause bytes taken =>
      rw [found] at isItem
      cases isItem
      exact Scan.lexeme_readable c rest literal bytes taken found

/-- In `.5e+x` the literal is `.5`, and the letter behind it continues it. -/
theorem number_scanned_whole_continued :
    Scan.StartsNumber '.' "5e+x".toList ∧
    (∃ numeral, Numeral.read? ".5".toList = some numeral) ∧
    Scan.numberBytes? (encode ".5e+x".toList) = some 2 ∧
    Scan.lexeme '.' "5e+x".toList = .fault (.malformedNumber ".5e") 3 2 := by
  have starts : Scan.StartsNumber '.' "5e+x".toList := .inr ⟨rfl, '5', rfl, rfl⟩
  obtain ⟨number, behind, split, -, -, length, bytes, -, -, numeral, read, becomes⟩ :=
    number_scanned_whole.1 '.' "5e+x".toList starts
  obtain ⟨rfl, rfl⟩ : ".5".toList = number ∧ "e+x".toList = behind :=
    List.append_inj split (by rw [← length]; decide)
  exact ⟨starts, ⟨numeral, read⟩, bytes, becomes.continued ⟨'e', rfl, .inr (.inr (by decide))⟩⟩

end ColumnCalc
