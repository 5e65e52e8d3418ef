/-
**Similarity is a score of how much two texts match.**

The similarity of two texts is the binary32 number nearest to twice the length of a longest common
subsequence over the number of characters of both. Up to two to the twenty-fourth characters that
nearest number is never in doubt (`not_tie`), and less than a full match stays below one after rounding,
since the quotient differs from one by more than half a step. So a text is more similar to itself than
any other text is, and a cutoff of at most one always admits it.

* `exists_scale`, `binary32Ratio_rounds` — the quotient is rounded to the nearest binary32 number.
* `similarity_rounds` — so is the similarity, as long as all characters can be counted.
* `similarity_comm`, `similarity_eq_one_iff` — its symmetry, and what a full match is.
* `similarity_matches` — all of it, and that a name among the candidates is its own closest match.
-/

import ColumnCalc.Proofs.Header.Closest
import ColumnCalc.Proofs.Header.CommonLength
import ColumnCalc.Proofs.Number.Binary32
import Mathlib.Data.Nat.Prime.Basic

namespace ColumnCalc

open Binary64 (ofRank ofQuotient units unitsPerOne infinityRank divNearest RoundsTo exactValue?)

/-! ### Counts and quotients as binary32 numbers -/

/-- Counts of up to twenty-four bits are binary32 numbers. -/
theorem binary32Count_eq {count : Nat} (small : count ≤ 2 ^ 24) : binary32Count count = count := by
  rcases Nat.lt_or_eq_of_le small with less | rfl
  · have bits : count.log2 - 23 = 0 := by
      by_cases zero : count = 0
      · rw [zero]
        rfl
      · exact Nat.sub_eq_zero_of_le (Nat.le_of_lt_succ ((Nat.log2_lt zero).2 less))
    have one : divNearest (count * 1) 1 = count := Binary64.divNearest_mul count 1 Nat.one_pos
    rw [binary32Count, bits]
    show divNearest count 1 * 1 = count
    rw [Nat.mul_one] at one ⊢
    exact one
  · decide

/-- A power of two takes a numerator next to the binade of twenty-four bits over its denominator. -/
theorem scaled_bounds {numerator denominator : Nat} (positive : numerator ≠ 0)
    (le : numerator ≤ denominator) :
    denominator * twoTo 23 < numerator * twoTo (23 + (denominator.log2 - numerator.log2)) * 2 ∧
      numerator * twoTo (23 + (denominator.log2 - numerator.log2)) < denominator * twoTo 23 * 2 := by
  have nonzero : denominator ≠ 0 := by omega
  have leFirst : twoTo numerator.log2 ≤ numerator := Nat.log2_self_le positive
  have ltFirst : numerator < twoTo numerator.log2 * 2 := Nat.lt_log2_self
  have leSecond : twoTo denominator.log2 ≤ denominator := Nat.log2_self_le nonzero
  have ltSecond : denominator < twoTo denominator.log2 * 2 := Nat.lt_log2_self
  have ordered : numerator.log2 ≤ denominator.log2 := Nat.le_of_lt_succ <|
    (Nat.pow_lt_pow_iff_right (by decide)).1
      (Nat.lt_of_le_of_lt (Nat.le_trans leFirst le) ltSecond)
  -- Both sides lie in the same binade, that of the denominator.
  have binade : twoTo numerator.log2 * twoTo (23 + (denominator.log2 - numerator.log2))
      = twoTo denominator.log2 * twoTo 23 := by
    rw [← Binary64.twoTo_add, ← Binary64.twoTo_add]
    congr 1
    omega
  constructor
  · calc denominator * twoTo 23
        < twoTo denominator.log2 * 2 * twoTo 23 := Nat.mul_lt_mul_of_pos_right ltSecond (twoTo_pos 23)
      _ = twoTo numerator.log2 * twoTo (23 + (denominator.log2 - numerator.log2)) * 2 := by
        rw [Nat.mul_right_comm, binade]
      _ ≤ numerator * twoTo (23 + (denominator.log2 - numerator.log2)) * 2 :=
        Nat.mul_le_mul_right 2 (Nat.mul_le_mul_right _ leFirst)
  · calc numerator * twoTo (23 + (denominator.log2 - numerator.log2))
        < twoTo numerator.log2 * 2 * twoTo (23 + (denominator.log2 - numerator.log2)) :=
        Nat.mul_lt_mul_of_pos_right ltFirst (twoTo_pos _)
      _ = twoTo denominator.log2 * twoTo 23 * 2 := by rw [Nat.mul_right_comm, binade]
      _ ≤ denominator * twoTo 23 * 2 :=
        Nat.mul_le_mul_right 2 (Nat.mul_le_mul_right _ leSecond)

/-- **The quotient's scale** leaves twenty-four bits in front of the point. -/
theorem exists_scale {numerator denominator : Nat} (positive : numerator ≠ 0)
    (le : numerator ≤ denominator) : ∃ exponent,
      binary32Ratio numerator denominator
        = ofQuotient false (divNearest (numerator * twoTo exponent) denominator) (twoTo exponent) ∧
      denominator * twoTo 23 ≤ numerator * twoTo exponent ∧
      numerator * twoTo exponent < denominator * twoTo 24 ∧
      23 ≤ exponent ∧ exponent ≤ denominator.log2 + 24 := by
  obtain ⟨above, below⟩ := scaled_bounds positive le
  obtain ⟨exponent, isExponent⟩ :
      ∃ exponent, exponent = 23 + (denominator.log2 - numerator.log2) := ⟨_, rfl⟩
  rw [← isExponent] at above below
  rw [twoTo_succ 23, ← Nat.mul_assoc]
  simp only [binary32Ratio, if_neg positive, ← isExponent]
  by_cases less : numerator * twoTo exponent < denominator * twoTo 23
  · -- One more bit is needed.
    refine ⟨exponent + 1, ?_, ?_, ?_, by omega, by omega⟩
    · rw [if_pos less, twoTo_succ, Nat.mul_comm 2]
    · rw [twoTo_succ exponent, ← Nat.mul_assoc]
      exact above.le
    · rw [twoTo_succ exponent, ← Nat.mul_assoc]
      exact Nat.mul_lt_mul_of_pos_right less two_pos
  · exact ⟨exponent, by rw [if_neg less], Nat.le_of_not_lt less, below, by omega, by omega⟩

/-- **A quotient of an even number is not in the middle between two steps** if these are fine. -/
theorem not_tie {matched total exponent : Nat} (positive : 0 < total) (small : total ≤ 2 ^ 24)
    (fine : 23 ≤ exponent) : 2 * (2 * matched * twoTo exponent % total) ≠ total := by
  intro tie
  have whole := Nat.div_add_mod (2 * matched * twoTo exponent) total
  -- The middle has an odd numerator over twice the total, so the total takes all powers of two.
  have odd : total * (2 * (2 * matched * twoTo exponent / total) + 1)
      = twoTo (exponent + 2) * matched := by
    have steps : twoTo (exponent + 2) * matched = 2 * (2 * matched * twoTo exponent) := by
      rw [twoTo_succ, twoTo_succ]
      ring
    rw [steps, Nat.mul_add, Nat.mul_left_comm]
    omega
  have coprime : Nat.Coprime (2 ^ (exponent + 2)) (2 * (2 * matched * twoTo exponent / total) + 1) :=
    Nat.Coprime.pow_left _ (Nat.coprime_two_left.2 ⟨_, rfl⟩)
  have divides : twoTo (exponent + 2) ∣ total := coprime.dvd_of_dvd_mul_right ⟨matched, odd⟩
  have large := Nat.le_of_dvd positive divides
  have least : twoTo 25 ≤ twoTo (exponent + 2) := Binary64.twoTo_le (by omega)
  exact absurd (Nat.le_trans least large) (Nat.not_le.2 (Nat.lt_of_le_of_lt small (by decide)))

/-- **The quotient is rounded to the nearest binary32 number.** -/
theorem binary32Ratio_rounds {matched total : Nat} (positive : 0 < total) (le : 2 * matched ≤ total)
    (small : total ≤ 2 ^ 24) : ∃ rank < infinityRank,
      binary32Ratio (2 * matched) total = ofRank false rank ∧
      RoundsTo (2 * matched / total) (units rank / unitsPerOne) := by
  have isTwice : (2 * matched : ℚ) = (2 * matched : ℕ) := by push_cast; rfl
  rw [isTwice]
  rcases Nat.eq_zero_or_pos matched with rfl | some
  · refine ⟨0, by decide, ?_, ?_⟩
    · rw [binary32Ratio, if_pos rfl, Binary64.zero_eq_ofRank]
    · rw [Nat.mul_zero, Binary64.units_zero, Nat.cast_zero, zero_div, zero_div]
      exact Binary64.isBinary32_zero.roundsTo
  · obtain ⟨exponent, isRatio, least, less, fine, bounded⟩ := exists_scale (by omega) le
    have bits : total.log2 ≤ 24 :=
      Nat.le_of_lt_succ ((Nat.log2_lt (by omega)).2 (Nat.lt_of_le_of_lt small (by decide)))
    have rounds := Binary64.roundsTo_divNearest positive (not_tie positive small fine) least less
      (by omega)
    have large : twoTo 23 ≤ divNearest (2 * matched * twoTo exponent) total :=
      Nat.le_trans ((Nat.le_div_iff_mul_le positive).2 (by rwa [Nat.mul_comm]))
        (Binary64.le_divNearest _ _)
    have fits : divNearest (2 * matched * twoTo exponent) total ≤ twoTo 24 :=
      Binary64.divNearest_le_of_le positive (by rw [Nat.mul_comm (twoTo 24)]; exact less.le)
    obtain ⟨rank, isFinite, isRank, value⟩ := Binary64.ofQuotient_twoTo
      (Nat.lt_of_lt_of_le (twoTo_pos 23) large).ne' (Nat.lt_of_le_of_lt fits (by decide))
      (show exponent ≤ 1022 by omega)
    refine ⟨rank, isFinite, isRatio.trans isRank, ?_⟩
    have same : (units rank / unitsPerOne : ℚ)
        = divNearest (2 * matched * twoTo exponent) total / twoTo exponent := by
      rw [div_eq_div_iff (Nat.cast_ne_zero.2 Decimals.unitsPerOne_pos.ne')
        (Nat.cast_ne_zero.2 (twoTo_pos exponent).ne')]
      exact_mod_cast value
    rw [same]
    exact rounds

/-! ### Similarity -/

variable {first second : String}

/-- Texts have at most all of their characters in common. -/
theorem two_mul_commonLength_le (first second : List Char) :
    2 * commonLength first second ≤ first.length + second.length := by
  have longest := isLongest_commonLength first second
  have leFirst := longest.le_length
  have leSecond := longest.comm.le_length
  omega

theorem similarity_of_empty (empty : first.length + second.length = 0) :
    similarity first second = 1 := by
  rw [← String.length_toList, ← String.length_toList] at empty
  simp only [similarity, if_pos empty]

/-- **The similarity is the nearest binary32 number** to the share of characters in common. -/
theorem similarity_rounds (nonempty : first.length + second.length ≠ 0)
    (short : first.length + second.length ≤ 2 ^ 24) : ∃ rank < infinityRank,
      similarity first second = ofRank false rank ∧
      RoundsTo (2 * commonLength first.toList second.toList / (first.length + second.length : ℕ))
        (units rank / unitsPerOne) := by
  have le := two_mul_commonLength_le first.toList second.toList
  rw [← String.length_toList, ← String.length_toList] at *
  have isRatio : similarity first second
      = binary32Ratio (2 * commonLength first.toList second.toList)
          (first.toList.length + second.toList.length) := by
    simp only [similarity, if_neg nonempty]
    rw [binary32Count_eq short, binary32Count_eq (by omega)]
  rw [isRatio]
  exact binary32Ratio_rounds (Nat.pos_of_ne_zero nonempty) le short

theorem similarity_comm (first second : String) :
    similarity first second = similarity second first := by
  simp only [similarity, commonLength_comm first.toList, Nat.add_comm first.toList.length]

theorem zero_le_similarity (first second : String) : 0 ≤ similarity first second := by
  obtain ⟨rank, small, isRank⟩ := unsigned_similarity first second
  rw [isRank]
  exact Binary64.zero_le_ofRank small

theorem similarity_le_one (short : first.length + second.length ≤ 2 ^ 24) :
    similarity first second ≤ 1 := by
  by_cases empty : first.length + second.length = 0
  · rw [similarity_of_empty empty]
    decide +kernel
  · obtain ⟨rank, small, isRank, rounds⟩ := similarity_rounds empty short
    rw [isRank, Binary64.ofRank_le_one_iff small]
    refine rounds.le_one ?_
    have le := two_mul_commonLength_le first.toList second.toList
    rw [String.length_toList, String.length_toList] at le
    rw [div_le_one₀ (Nat.cast_pos.2 (Nat.pos_of_ne_zero empty))]
    exact_mod_cast le

/-- Different texts have not everything in common. -/
theorem commonLength_lt_of_ne (different : first ≠ second) :
    2 * commonLength first.toList second.toList < first.length + second.length := by
  rw [← String.length_toList, ← String.length_toList]
  refine Nat.lt_of_not_le fun full => different (String.toList_injective ?_)
  exact (isLongest_commonLength _ _).eq_of_full full

/-- **Less than everything is not rounded to one**, as it is at least one part of all less. -/
theorem ne_one_of_partly {matched total : ℕ} {value : ℚ} (rounds : RoundsTo (2 * matched / total) value)
    (partly : 2 * matched < total) (small : total ≤ 2 ^ 24) : value ≠ 1 := by
  refine rounds.ne_one ?_
  have positive : (0 : ℚ) < total := Nat.cast_pos.2 (Nat.zero_lt_of_lt partly)
  have below : (2 * matched + 1 : ℚ) ≤ total := by exact_mod_cast Nat.succ_le_of_lt partly
  have bound : (total : ℚ) ≤ 2 ^ 24 := by exact_mod_cast small
  rw [div_le_iff₀ positive]
  linarith

/-- **A full match is a match with the text itself**, also after rounding. -/
theorem similarity_eq_one_iff (short : first.length + second.length ≤ 2 ^ 24) :
    similarity first second = 1 ↔ first = second := by
  by_cases empty : first.length + second.length = 0
  · have isFirst : first = "" := String.length_eq_zero_iff.1 (by omega)
    have isSecond : second = "" := String.length_eq_zero_iff.1 (by omega)
    exact iff_of_true (similarity_of_empty empty) (isFirst.trans isSecond.symm)
  · obtain ⟨rank, small, isRank, rounds⟩ := similarity_rounds empty short
    rw [isRank, Binary64.ofRank_eq_one_iff small]
    constructor
    · intro one
      by_contra different
      exact ne_one_of_partly rounds (commonLength_lt_of_ne different) short one
    · rintro rfl
      have full := (isLongest_commonLength _ _).unique (isLongest_self first.toList)
      have total : ((first.length + first.length : ℕ) : ℚ) ≠ 0 := Nat.cast_ne_zero.2 empty
      rw [full, String.length_toList, ← two_mul, Nat.cast_mul, Nat.cast_ofNat, div_self] at rounds
      · exact rounds.eq_of_isBinary32 Binary64.isBinary32_one
      · rwa [← two_mul, Nat.cast_mul, Nat.cast_ofNat] at total

/-- **A name that is among the candidates is its own closest match**, since no other one is a full
match. -/
theorem closestMatch_self {word : String} {candidates : List String} {cutoff : Float}
    (member : word ∈ candidates)
    (short : ∀ candidate ∈ candidates, word.length + candidate.length ≤ 2 ^ 24) (low : cutoff ≤ 1) :
    closestMatch word candidates cutoff = some word := by
  have full : similarity word word = 1 := (similarity_eq_one_iff (short word member)).2 rfl
  refine closestMatch_eq_some_iff.2 ⟨⟨member, fun candidate isOther different => .inl ?_⟩, full ▸ low⟩
  have partly : similarity word candidate ≠ 1 :=
    mt (similarity_eq_one_iff (short candidate isOther)).1 (Ne.symm different)
  rcases (unsigned_similarity word candidate).trichotomy (unsigned_similarity word word)
    with less | same | greater
  · exact less
  · exact absurd (same.trans full) partly
  · rw [full] at greater
    exact absurd (Binary64.lt_of_lt_of_le greater (similarity_le_one (short candidate isOther)))
      (Binary64.lt_irrefl 1)

/-- **A score of how much two texts match.** Two empty texts match fully. Otherwise the score is twice
the length of a longest common subsequence over the number of characters of both, rounded to the
nearest binary32 number. It does not depend on the order of the texts and lies between zero and one, and
it is one for equal texts and for no others. -/
structure IsMatchScore (first second : String) (score : Float) : Prop where
  empty : first.length + second.length = 0 → score = 1
  rounds : first.length + second.length ≠ 0 → ∃ common value,
    IsLongest first.toList second.toList common ∧ exactValue? score = some value ∧
      RoundsTo (2 * common / (first.length + second.length : ℕ)) value
  symmetric : similarity second first = score
  nonneg : 0 ≤ score
  le_one : score ≤ 1
  full : score = 1 ↔ first = second

/-- **Similarity is a match score, and an exact name always wins.** The first part is for any two texts
of at most two to the twenty-fourth characters together. The second part is for any word among any
candidates with which it has at most so many characters: at every cutoff of at most one it is its own
closest match, whatever other candidates there are and however they sort. -/
theorem similarity_matches :
    (∀ first second : String, first.length + second.length ≤ 2 ^ 24 →
      IsMatchScore first second (similarity first second)) ∧
    (∀ (word : String) (candidates : List String) (cutoff : Float), word ∈ candidates →
      (∀ candidate ∈ candidates, word.length + candidate.length ≤ 2 ^ 24) → cutoff ≤ 1 →
      closestMatch word candidates cutoff = some word) := by
  refine ⟨fun first second short => ?_, fun _ _ _ => closestMatch_self⟩
  refine ⟨similarity_of_empty, fun nonempty => ?_, similarity_comm second first,
    zero_le_similarity first second, similarity_le_one short, similarity_eq_one_iff short⟩
  obtain ⟨rank, small, isRank, rounds⟩ := similarity_rounds nonempty short
  exact ⟨_, _, isLongest_commonLength _ _, isRank ▸ Binary64.exactValue?_ofRank small, rounds⟩

/-- Texts with three of four characters in common, and a word among longer and later names. -/
theorem similarity_matches_title :
    IsMatchScore "abcd" "bcde" (similarity "abcd" "bcde") ∧ similarity "abcd" "bcde" = 0.75 ∧
    closestMatch "Title" ["Titles", "Title", "title", "Ztitle"] 1 = some "Title" := by
  obtain ⟨scores, wins⟩ := similarity_matches
  refine ⟨scores "abcd" "bcde" (by decide), ?_, wins "Title" _ 1 (by decide) (by decide) ?_⟩
  · exact Binary64.decompose_injective (by decide +kernel)
  · decide +kernel

end ColumnCalc
