/-
**Longest common subsequences.**

`commonLength` fills a table row by row, from the ends of both texts to their beginnings: a row stands
for the characters of the first text from one on, and has an entry for each suffix of the second one.
Every entry is the length of a longest common subsequence (`Row`), as three cases show: an empty text,
two texts that begin alike, and two that do not.

* `isLongest_nil`, `IsLongest.same`, `IsLongest.different` — longest common subsequences from shorter
  texts.
* `row_commonRow` — one row of the table from the one behind it.
* `isLongest_commonLength` — the whole table.
* `IsLongest.comm`, `IsLongest.eq_of_full` — which text is the first one does not matter, and only a
  text itself has all of its characters in common with it.
-/

import ColumnCalc.Header.Similarity
import Mathlib.Data.List.Forall2
import Mathlib.Order.Bounds.Basic

namespace ColumnCalc

/-- **The length of a longest common subsequence** of two texts: some common subsequence has it, and
none is longer. -/
def IsLongest (first second : List Char) (length : Nat) : Prop :=
  IsGreatest {size | ∃ shared : List Char,
    shared.Sublist first ∧ shared.Sublist second ∧ shared.length = size} length

variable {first second : List Char} {length : Nat}

theorem IsLongest.le (longest : IsLongest first second length) {shared : List Char}
    (inFirst : shared.Sublist first) (inSecond : shared.Sublist second) : shared.length ≤ length :=
  longest.2 ⟨shared, inFirst, inSecond, rfl⟩

theorem IsLongest.unique {other : Nat} (longest : IsLongest first second length)
    (isOther : IsLongest first second other) : length = other :=
  IsGreatest.unique longest isOther

/-! ### From shorter texts to longer ones -/

/-- An empty text has nothing in common with another one. -/
theorem isLongest_nil (second : List Char) : IsLongest [] second 0 := by
  refine ⟨⟨[], .slnil, List.nil_sublist second, rfl⟩, ?_⟩
  rintro _ ⟨shared, inFirst, _, rfl⟩
  rw [List.sublist_nil.1 inFirst]
  exact Nat.le_refl 0

/-- **It does not matter which text is the first one.** -/
theorem IsLongest.comm (longest : IsLongest first second length) :
    IsLongest second first length := by
  obtain ⟨shared, inFirst, inSecond, isLength⟩ := longest.1
  refine ⟨⟨shared, inSecond, inFirst, isLength⟩, ?_⟩
  rintro _ ⟨other, inSecond, inFirst, rfl⟩
  exact longest.le inFirst inSecond

/-- **Two texts that begin alike** have the first character in common, and what the rests have. -/
theorem IsLongest.same (longest : IsLongest first second length) (c : Char) :
    IsLongest (c :: first) (c :: second) (1 + length) := by
  obtain ⟨shared, inFirst, inSecond, isLength⟩ := longest.1
  refine ⟨⟨c :: shared, inFirst.cons_cons c, inSecond.cons_cons c, ?_⟩, ?_⟩
  · rw [List.length_cons, isLength, Nat.add_comm]
  · rintro _ ⟨other, inFirst, inSecond, rfl⟩
    have rest := longest.le inFirst.tail inSecond.tail
    rw [List.length_tail] at rest
    omega

/-- **Of two texts that begin differently** one character is not in common. -/
theorem IsLongest.different {left right : Char} {above before : Nat} (different : left ≠ right)
    (isAbove : IsLongest first (right :: second) above)
    (isBefore : IsLongest (left :: first) second before) :
    IsLongest (left :: first) (right :: second) (max above before) := by
  constructor
  · rcases Nat.le_total before above with le | le
    · obtain ⟨shared, inFirst, inSecond, isLength⟩ := isAbove.1
      exact ⟨shared, inFirst.cons left, inSecond, by rw [isLength, Nat.max_eq_left le]⟩
    · obtain ⟨shared, inFirst, inSecond, isLength⟩ := isBefore.1
      exact ⟨shared, inFirst, inSecond.cons right, by rw [isLength, Nat.max_eq_right le]⟩
  · rintro _ ⟨other, inFirst, inSecond, rfl⟩
    rcases List.sublist_cons_iff.1 inFirst with without | ⟨rest, rfl, _⟩
    · exact Nat.le_trans (isAbove.le without inSecond) (Nat.le_max_left _ _)
    · -- It begins with the first text's character, so it does without the second one's.
      rcases List.sublist_cons_iff.1 inSecond with without | ⟨_, same, _⟩
      · exact Nat.le_trans (isBefore.le inFirst without) (Nat.le_max_right _ _)
      · cases same
        exact absurd rfl different

/-! ### The table -/

/-- **A row of the table**: one length for each suffix of the second text. -/
def Row (first second : List Char) (row : List Nat) : Prop :=
  List.Forall₂ (fun suffix length => IsLongest first suffix length) second.tails row

theorem Row.head {row : List Nat} (isRow : Row first second row) :
    IsLongest first second (row.headD 0) := by
  cases second with
  | nil =>
    cases isRow with
    | cons isHead _ => exact isHead
  | cons c second =>
    cases isRow with
    | cons isHead _ => exact isHead

/-- The row behind the first text is all zeros. -/
theorem row_nil (second : List Char) : Row [] second (List.replicate (second.length + 1) 0) := by
  induction second with
  | nil => exact .cons (isLongest_nil []) .nil
  | cons c second ih => exact .cons (isLongest_nil (c :: second)) ih

/-- **A row comes from the one behind it.** -/
theorem row_commonRow (left : Char) {above : List Nat} (isAbove : Row first second above) :
    Row (left :: first) second (commonRow left second above) := by
  induction second generalizing above with
  | nil => exact .cons (isLongest_nil (left :: first)).comm .nil
  | cons right second ih =>
    cases isAbove with
    | cons isHead isRest =>
      rename_i head rest
      have further := ih isRest
      rw [commonRow]
      refine .cons ?_ further
      split
      · rename_i same
        exact same ▸ (Row.head isRest).same left
      · rename_i different
        exact .different different isHead further.head

theorem row_foldr (first second : List Char) : Row first second
    (first.foldr (fun left above => commonRow left second above)
      (List.replicate (second.length + 1) 0)) := by
  induction first with
  | nil => exact row_nil second
  | cons left first ih => exact row_commonRow left ih

/-- **The table gives the length of a longest common subsequence.** -/
theorem isLongest_commonLength (first second : List Char) :
    IsLongest first second (commonLength first second) :=
  (row_foldr first second).head

theorem commonLength_comm (first second : List Char) :
    commonLength first second = commonLength second first :=
  (isLongest_commonLength first second).unique (isLongest_commonLength second first).comm

/-! ### How much two texts can have in common -/

theorem IsLongest.le_length (longest : IsLongest first second length) : length ≤ first.length := by
  obtain ⟨shared, inFirst, _, rfl⟩ := longest.1
  exact inFirst.length_le

/-- A text has everything in common with itself. -/
theorem isLongest_self (text : List Char) : IsLongest text text text.length := by
  refine ⟨⟨text, .refl text, .refl text, rfl⟩, ?_⟩
  rintro _ ⟨shared, inText, _, rfl⟩
  exact inText.length_le

/-- **Only a text itself has everything in common with a text.** -/
theorem IsLongest.eq_of_full (longest : IsLongest first second length)
    (full : first.length + second.length ≤ 2 * length) : first = second := by
  have leFirst := longest.le_length
  have leSecond := longest.comm.le_length
  obtain ⟨shared, inFirst, inSecond, rfl⟩ := longest.1
  have isFirst := inFirst.eq_of_length (by omega)
  have isSecond := inSecond.eq_of_length (by omega)
  exact isFirst.symm.trans isSecond

end ColumnCalc
