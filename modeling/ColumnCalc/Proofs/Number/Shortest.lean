/-
**Numbers that are written read back.**

A finite number is written positionally: digits, and behind a point more digits, if any
(`IsPositional`). A text of that form is read as the numeral it shows. The decimals that are tried
are kept only when they read back, so what is to be shown concerns the exact value, which is
written when none does: it is a fraction of units without a remainder, and no shortcut of the
reader applies to it.

* `isPositional_negSucc` — what `positional` writes, and the value that it shows;
* `readRank_ofRank` — the text of a finite magnitude reads back to it;
* `readNumber_renderNumber` — the text of a finite number reads back to the number.
-/

import ColumnCalc.Number.Shortest
import ColumnCalc.Proofs.Number.Arithmetic
import ColumnCalc.Text.Blank

namespace ColumnCalc

open Binary64 (units units_lt rankOfUnits rankOfUnits_units infinityRank unitsPerOne unitsPerOne_eq
  twoTo_add twoTo_le)

/-! ### Digits -/

theorem digitsValue_append (first second : List Char) :
    digitsValue (first ++ second) = tenTo second.length * digitsValue first + digitsValue second :=
  (Nat.ofDigitChars_append (b := 10) 0).trans Nat.ofDigitChars_eq_ofDigitChars_zero

theorem digitsValue_zeros (zeros : Nat) : digitsValue (List.replicate zeros '0') = 0 := by
  have scaled : digitsValue (List.replicate zeros '0') = 10 ^ zeros * 0 :=
    Nat.ofDigitChars_replicate_zero
  rw [scaled, Nat.mul_zero]

theorem splitDigits_digits {digits rest : List Char} (isDigit : ∀ c ∈ digits, c.isDigit = true)
    (stops : ∀ c ∈ rest.head?, c.isDigit = false) :
    splitDigits (digits ++ rest) = (digits, rest) := by
  unfold splitDigits
  rw [List.takeWhile_append_of_pos isDigit, List.dropWhile_append_of_pos isDigit]
  cases rest with
  | nil => simp
  | cons c more => simp [stops c rfl]

namespace Shortest

theorem digitsValue_digitsOf (number : Nat) : digitsValue (digitsOf number) = number :=
  Nat.ofDigitChars_ten_toDigits

theorem isDigit_digitsOf {number : Nat} {c : Char} (member : c ∈ digitsOf number) :
    c.isDigit = true :=
  Nat.isDigit_of_mem_toDigits (by decide) (by decide) member

/-- What is dropped are zeros. -/
theorem dropTrailingZeros_append (digits : List Char) :
    ∃ zeros, digits = dropTrailingZeros digits ++ List.replicate zeros '0' := by
  have isZero : ∀ c ∈ digits.reverse.takeWhile (· == '0'), c = '0' := fun c member => by
    simpa using List.all_eq_true.1 List.all_takeWhile c member
  refine ⟨(digits.reverse.takeWhile (· == '0')).length, ?_⟩
  rw [← List.reverse_replicate, ← List.eq_replicate_of_mem isZero, dropTrailingZeros,
    ← List.reverse_append, List.takeWhile_append_dropWhile, List.reverse_reverse]

/-! ### Positional texts -/

/-- A text that shows digits and, behind a point, more digits, if any. -/
structure IsPositional (whole fraction text : List Char) : Prop where
  nonempty : whole ≠ []
  isWhole : ∀ c ∈ whole, c.isDigit = true
  isFraction : ∀ c ∈ fraction, c.isDigit = true
  eq : text = if fraction.isEmpty then whole else whole ++ '.' :: fraction

theorem isPositional_digitsOf (number : Nat) :
    IsPositional (digitsOf number) [] (digitsOf number) :=
  ⟨Nat.toDigits_ne_nil, fun _ => isDigit_digitsOf, by simp, rfl⟩

/-- **Digits in front of and behind the point show the value**, zeros at the end aside. -/
theorem isPositional_negSucc (digits places : Nat) :
    ∃ whole fraction, IsPositional whole fraction (positional digits (.negSucc places)) ∧
      fraction.length ≤ places + 1 ∧
      digitsValue (whole ++ fraction) * tenTo (places + 1 - fraction.length) = digits := by
  -- The padded digits are one list: the point stands at `start`, the dropped zeros at the end.
  obtain ⟨padded, isPadded⟩ : ∃ padded,
      padded = List.replicate (places + 2 - (digitsOf digits).length) '0' ++ digitsOf digits :=
    ⟨_, rfl⟩
  obtain ⟨start, isStart⟩ : ∃ start, start = padded.length - (places + 1) := ⟨_, rfl⟩
  obtain ⟨zeros, dropped⟩ := dropTrailingZeros_append (padded.drop start)
  have long : places + 2 ≤ padded.length := by
    rw [isPadded, List.length_append, List.length_replicate]
    omega
  have isDigit : ∀ c ∈ padded, c.isDigit = true := by
    intro c member
    rw [isPadded, List.mem_append] at member
    rcases member with zero | digit
    · rw [List.eq_of_mem_replicate zero]
      rfl
    · exact isDigit_digitsOf digit
  have lengths : (dropTrailingZeros (padded.drop start)).length + zeros = places + 1 := by
    have behind := congrArg List.length dropped
    rw [List.length_drop, List.length_append, List.length_replicate] at behind
    omega
  have value : digitsValue padded = digits := by
    rw [isPadded, digitsValue_append, digitsValue_zeros, Nat.mul_zero, Nat.zero_add,
      digitsValue_digitsOf]
  refine ⟨padded.take start, dropTrailingZeros (padded.drop start), ⟨?_, ?_, ?_, ?_⟩, by omega, ?_⟩
  · intro empty
    have := congrArg List.length empty
    rw [List.length_take, List.length_nil] at this
    omega
  · exact fun c member => isDigit c (List.mem_of_mem_take member)
  · intro c member
    refine isDigit c (List.mem_of_mem_drop (i := start) ?_)
    rw [dropped]
    exact List.mem_append_left _ member
  · subst isStart isPadded
    rfl
  · rw [show places + 1 - (dropTrailingZeros (padded.drop start)).length = zeros by omega]
    calc _ = digitsValue (padded.take start ++ dropTrailingZeros (padded.drop start)
          ++ List.replicate zeros '0') := by
          rw [digitsValue_append (_ ++ _), digitsValue_zeros, List.length_replicate, Nat.add_zero,
            Nat.mul_comm]
      _ = digitsValue padded := by
          rw [List.append_assoc, ← dropped, List.take_append_drop]
      _ = digits := value

theorem isPositional (digits : Nat) (exponent : Int) :
    ∃ whole fraction, IsPositional whole fraction (positional digits exponent) := by
  cases exponent with
  | ofNat zeros => exact ⟨_, _, isPositional_digitsOf (digits * tenTo zeros)⟩
  | negSucc places =>
    obtain ⟨whole, fraction, shows, _⟩ := isPositional_negSucc digits places
    exact ⟨whole, fraction, shows⟩

namespace IsPositional

variable {whole fraction text : List Char} (shows : IsPositional whole fraction text)

include shows

/-- The text starts with a digit, so no sign stands in front. -/
theorem splitSign_eq : Numeral.splitSign text = (false, text) := by
  obtain ⟨c, rest, isCons⟩ := List.exists_cons_of_ne_nil shows.nonempty
  have digit : c.isDigit = true := shows.isWhole c (isCons ▸ .head _)
  have starts : ∃ more, text = c :: more := by
    rw [shows.eq, isCons]
    split
    · exact ⟨_, rfl⟩
    · exact ⟨_, rfl⟩
  obtain ⟨more, rfl⟩ := starts
  refine Numeral.splitSign_unsigned more ?_ ?_ <;>
  · rintro rfl
    cases digit

/-- **What is shown is what is read**, with a sign and without one. -/
theorem read_eq (negative : Bool) :
    Numeral.read? ((if negative then ['-'] else []) ++ text)
      = some ⟨negative, digitsValue (whole ++ fraction), -(fraction.length : Int)⟩ := by
  have signed :
      Numeral.splitSign ((if negative then ['-'] else []) ++ text) = (negative, text) := by
    cases negative with
    | false => exact shows.splitSign_eq
    | true => rfl
  have noDigits : whole.isEmpty = false := by simpa using shows.nonempty
  by_cases noFraction : fraction = []
  · have wholeOnly : text = whole ++ [] := by
      rw [shows.eq, noFraction]
      simp
    have runs : splitDigits text = (whole, []) := by
      rw [wholeOnly]
      exact splitDigits_digits shows.isWhole (by simp)
    simp [Numeral.read?, signed, runs, noDigits, noFraction, Numeral.readExponent?]
  · have pointed : text = whole ++ '.' :: fraction := by
      rw [shows.eq, if_neg (by simpa using noFraction)]
    have runs : splitDigits text = (whole, '.' :: fraction) := by
      rw [pointed]
      exact splitDigits_digits shows.isWhole (by simp)
    have behind : splitDigits fraction = (fraction, []) := by
      simpa using @splitDigits_digits fraction [] shows.isFraction (by simp)
    simp [Numeral.read?, signed, runs, behind, noDigits, Numeral.readExponent?]

/-- Digits and a point. -/
theorem digit_or_point {c : Char} (member : c ∈ text) : c.isDigit = true ∨ c = '.' := by
  rw [shows.eq] at member
  split at member
  · exact .inl (shows.isWhole c member)
  · rcases List.mem_append.1 member with inWhole | behind
    · exact .inl (shows.isWhole c inWhole)
    · rcases List.mem_cons.1 behind with isPoint | inFraction
      · exact .inr isPoint
      · exact .inl (shows.isFraction c inFraction)

/-- No white space in it. -/
theorem notBlank {c : Char} (member : c ∈ text) : Text.isBlank c = false := by
  rcases shows.digit_or_point member with digit | rfl
  · have value : c.toNat = c.val.toNat := rfl
    have bounds : '0'.val.toNat = 0x30 ∧ '9'.val.toNat = 0x39 := ⟨rfl, rfl⟩
    simp only [Char.isDigit, ge_iff_le, Bool.and_eq_true, decide_eq_true_eq,
      UInt32.le_iff_toNat_le, bounds, ← value] at digit
    simp only [Text.isBlank, Bool.or_eq_false_iff, Bool.and_eq_false_iff, decide_eq_false_iff_not,
      beq_eq_false_iff_ne]
    omega
  · decide

end IsPositional

/-! ### Magnitudes -/

theorem exists_positional_of_neighbour {units : Nat} {exponent : Int} {text : List Char}
    (member : text ∈ neighbours units exponent) : ∃ digits, text = positional digits exponent := by
  unfold neighbours at member
  cases exponent <;>
  · dsimp only at member
    split at member <;>
    · simp only [List.mem_cons, List.not_mem_nil, or_false] at member
      rcases member with same | same <;> exact ⟨_, same⟩

theorem exists_positional_of_candidate {units : Nat} {text : List Char}
    (member : text ∈ candidates units) : ∃ digits exponent, text = positional digits exponent := by
  simp only [candidates, List.mem_flatMap] at member
  obtain ⟨count, _, isNeighbour⟩ := member
  obtain ⟨digits, same⟩ := exists_positional_of_neighbour isNeighbour
  exact ⟨digits, _, same⟩

/-- A positive magnitude is written as a decimal that reads back to it, or else as its exact
value. -/
theorem ofRank_cases {rank : Nat} (positive : rank ≠ 0) :
    (ofRank rank ∈ candidates (units rank) ∧ readRank? (ofRank rank) = some rank) ∨
      ofRank rank = exact (units rank) := by
  -- The exact value is kept as a name, or it would be computed.
  obtain ⟨fallback, isExact⟩ : ∃ fallback, exact (units rank) = fallback := ⟨_, rfl⟩
  simp only [ofRank, if_neg positive, isExact]
  cases found : (candidates (units rank)).find? fun text => readRank? text == some rank with
  | none => exact .inr rfl
  | some text => exact .inl ⟨List.mem_of_find?_eq_some found, readRank_find found⟩

theorem tenTo_add (first second : Nat) : tenTo (first + second) = tenTo first * tenTo second :=
  Nat.pow_add 10 first second

theorem twoTo_le_tenTo (exponent : Nat) : twoTo (3 * exponent) ≤ tenTo exponent := by
  induction exponent with
  | zero => exact Nat.le_refl 1
  | succ exponent ih =>
    rw [Nat.mul_succ, tenTo_succ, show 3 * exponent + 3 = 3 * exponent + 1 + 1 + 1 from rfl,
      twoTo_succ, twoTo_succ, twoTo_succ]
    omega

/-- A decimal that is exactly a finite magnitude is read as it: nothing is rounded, and it is not so
small that the reader answers zero without looking. -/
theorem rankOf_exact {digits places rank : Nat} (positive : rank ≠ 0) (small : rank < infinityRank)
    (same : digits * unitsPerOne = units rank * tenTo places) :
    Numeral.rankOf digits (-(places : Int)) = rank := by
  have atLeast : tenTo places ≤ digits * unitsPerOne := by
    rw [same]
    exact Nat.le_mul_of_pos_left _
      (Nat.lt_of_le_of_lt (Nat.zero_le _) (units_lt (Nat.pos_of_ne_zero positive)))
  have nonzero : digits ≠ 0 := by
    rintro rfl
    have := tenTo_pos places
    omega
  have rounded : Binary64.rankOfQuotient digits (tenTo places) = rank := by
    rw [Binary64.rankOfQuotient, same]
    exact rankOfUnits_units (Nat.le_of_lt small) (tenTo_pos places)
  unfold Numeral.rankOf
  rw [if_neg nonzero]
  cases places with
  | zero =>
    show (if 400 < 0 then _ else Binary64.rankOfQuotient (digits * tenTo 0) 1) = rank
    rw [if_neg (by decide), show digits * tenTo 0 = digits from Nat.mul_one _]
    exact rounded
  | succ place =>
    show (if digits.log2 + 1100 < 3 * (place + 1) then 0
      else Binary64.rankOfQuotient digits (tenTo (place + 1))) = rank
    rw [if_neg ?_, rounded]
    intro tiny
    -- So few bits would put the decimal below one unit, and no positive magnitude lies there.
    have below : digits * unitsPerOne < tenTo (place + 1) :=
      calc digits * unitsPerOne
          < twoTo (digits.log2 + 1) * twoTo 1074 :=
            Nat.mul_lt_mul_of_pos_right Nat.lt_log2_self (twoTo_pos 1074)
        _ = twoTo (digits.log2 + 1 + 1074) := (twoTo_add _ _).symm
        _ ≤ twoTo (3 * (place + 1)) := twoTo_le (by omega)
        _ ≤ tenTo (place + 1) := twoTo_le_tenTo _
    omega

/-- A magnitude that is so many tenths, hundredths and so on exactly is read back. -/
theorem readRank_positional {digits places count rank : Nat} (positive : rank ≠ 0)
    (small : rank < infinityRank) (isCount : places + 1 = count)
    (same : digits * unitsPerOne = units rank * tenTo count) :
    readRank? (positional digits (.negSucc places)) = some rank := by
  subst isCount
  obtain ⟨whole, fraction, shows, short, value⟩ := isPositional_negSucc digits places
  have read : Numeral.read? (positional digits (.negSucc places)) = _ := shows.read_eq false
  rw [readRank?, read, Option.map_some, Option.some.injEq]
  refine rankOf_exact positive small ?_
  -- The zeros that were dropped cancel.
  obtain ⟨dropped, lengths⟩ : ∃ dropped, places + 1 = fraction.length + dropped :=
    Nat.exists_eq_add_of_le short
  rw [lengths, Nat.add_sub_cancel_left] at value
  refine Nat.eq_of_mul_eq_mul_right (tenTo_pos dropped) ?_
  calc digitsValue (whole ++ fraction) * unitsPerOne * tenTo dropped
      = digits * unitsPerOne := by rw [Nat.mul_right_comm, value]
    _ = units rank * tenTo (fraction.length + dropped) := by rw [same, lengths]
    _ = units rank * tenTo fraction.length * tenTo dropped := by rw [tenTo_add, Nat.mul_assoc]

/-- **The exact value reads back.** -/
theorem readRank_exact {rank : Nat} (positive : rank ≠ 0) (small : rank < infinityRank) :
    readRank? (exact (units rank)) = some rank := by
  have exponent : (-1074 : Int) = .negSucc 1073 := rfl
  rw [exact, exponent]
  refine @readRank_positional _ 1073 1074 rank positive small rfl ?_
  rw [Nat.mul_assoc, unitsPerOne_eq, fiveTo_mul_twoTo]

/-- **The text of a magnitude is positional.** -/
theorem isPositional_ofRank (rank : Nat) :
    ∃ whole fraction, IsPositional whole fraction (ofRank rank) := by
  by_cases zero : rank = 0
  · have single : ofRank rank = digitsOf 0 := if_pos zero
    rw [single]
    exact ⟨_, _, isPositional_digitsOf 0⟩
  rcases ofRank_cases zero with ⟨tried, _⟩ | isExact
  · obtain ⟨digits, exponent, same⟩ := exists_positional_of_candidate tried
    rw [same]
    exact isPositional digits exponent
  · rw [isExact]
    exact isPositional _ _

/-- **The text of a finite magnitude reads back to it.** -/
theorem readRank_ofRank {rank : Nat} (small : rank < infinityRank) :
    readRank? (ofRank rank) = some rank := by
  by_cases zero : rank = 0
  · subst zero
    rfl
  rcases ofRank_cases zero with ⟨_, readsBack⟩ | isExact
  · exact readsBack
  · rw [isExact]
    exact readRank_exact zero small

end Shortest

/-! ### Numbers -/

/-- The text of a finite number. -/
theorem toList_renderNumber {value : Float} {negative : Bool} {rank : Nat}
    (isValue : Binary64.decompose value = .finite negative rank) :
    (renderNumber value).toList = (if negative then ['-'] else []) ++ Shortest.ofRank rank := by
  rw [renderNumber, isValue]
  cases negative with
  | false => simp
  | true => simp [numberStyle]

/-- **The text of a finite number reads back to the number.** -/
theorem readNumber_renderNumber {value : Float} (isFinite : value.isFinite = true) :
    readNumber? (renderNumber value).toList = some value := by
  obtain ⟨negative, rank, isValue⟩ := (Binary64.isFinite_iff value).1 isFinite
  have small := Binary64.rank_lt_infinity isValue
  obtain ⟨whole, fraction, shows⟩ := Shortest.isPositional_ofRank rank
  have nearest := Shortest.readRank_ofRank small
  have unsigned : Numeral.read? (Shortest.ofRank rank) = _ := shows.read_eq false
  rw [Shortest.readRank?, unsigned, Option.map_some, Option.some.injEq] at nearest
  rw [toList_renderNumber isValue, readNumber?, shows.read_eq negative]
  simp only [Numeral.toFloat, nearest, Option.some.injEq]
  exact Binary64.decompose_injective ((Binary64.decompose_ofRank negative small).trans isValue.symm)

/-- No white space in it. -/
theorem notBlank_renderNumber {value : Float} (isFinite : value.isFinite = true) {c : Char}
    (member : c ∈ (renderNumber value).toList) : Text.isBlank c = false := by
  obtain ⟨negative, rank, isValue⟩ := (Binary64.isFinite_iff value).1 isFinite
  obtain ⟨whole, fraction, shows⟩ := Shortest.isPositional_ofRank rank
  rw [toList_renderNumber isValue, List.mem_append] at member
  rcases member with inSign | inDigits
  · cases negative with
    | false => cases inSign
    | true =>
      rw [List.mem_singleton.1 inSign]
      decide
  · exact shows.notBlank inDigits

end ColumnCalc
