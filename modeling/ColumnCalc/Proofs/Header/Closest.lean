/-
**The candidate that is closest to a word.**

Candidates are ranked by their similarity to the word, and equally similar ones by their names
(`Closer`). `closestMatch` goes through those that reach the cutoff and keeps the better one of two. As
similarities are numbers without a sign, one of two candidates always ranks above the other one
(`better_bounds`), so what is kept in the end ranks above all others, those that miss the cutoff
included.

* `unsigned_similarity` — similarities have a place among the numbers, and no sign.
* `foldl_better` — going through the candidates gives the greatest one.
* `closestMatch_eq_none_iff`, `closestMatch_eq_some_iff` — when there is an answer, and which one.
* `closestMatch_greatest` — the same, and that neither order nor repetition matters.
-/

import ColumnCalc.Header.Similarity
import ColumnCalc.Proofs.Formula.Extremes
import ColumnCalc.Proofs.Number.Decimals
import ColumnCalc.Proofs.Text.Utf8

namespace ColumnCalc

open Binary64 (Unsigned ofRank)
open Text.Utf8 (encode)

/-! ### Similarities are numbers -/

theorem unsigned_zero : Unsigned 0 :=
  ⟨0, Nat.zero_le _, Binary64.zero_eq_ofRank⟩

theorem unsigned_one : Unsigned 1 :=
  ⟨Decimals.oneRank, Nat.le_of_lt Decimals.oneRank_lt, Decimals.one_eq_ofRank⟩

theorem unsigned_binary32Ratio (numerator denominator : Nat) :
    Unsigned (binary32Ratio numerator denominator) := by
  unfold binary32Ratio
  split
  · exact unsigned_zero
  · exact ⟨_, Binary64.rankOfUnits_le _ _, rfl⟩

/-- **A similarity is a number without a sign.** -/
theorem unsigned_similarity (first second : String) : Unsigned (similarity first second) := by
  simp only [similarity]
  split
  · exact unsigned_one
  · exact unsigned_binary32Ratio _ _

/-! ### The better one of two -/

/-- A scored candidate ranks no higher than another one: its score is less, or the scores are the same
and its name is not behind the other's. -/
def RanksBelow (first second : Float × String) : Prop :=
  first.1 < second.1 ∨ first.1 = second.1 ∧ first.2 ≤ second.2

theorem RanksBelow.refl (entry : Float × String) : RanksBelow entry entry :=
  .inr ⟨rfl, String.le_refl _⟩

theorem RanksBelow.trans {first second third : Float × String} (below : RanksBelow first second)
    (above : RanksBelow second third) : RanksBelow first third := by
  rcases below with less | ⟨same, before⟩
  · rcases above with less' | ⟨same', _⟩
    · exact .inl (Binary64.lt_trans less less')
    · exact .inl (same' ▸ less)
  · rcases above with less' | ⟨same', before'⟩
    · exact .inl (same ▸ less')
    · exact .inr ⟨same.trans same', String.le_trans before before'⟩

/-- Only one of two candidates is kept. -/
theorem better_chooses (current next : Float × String) :
    better current next = current ∨ better current next = next := by
  unfold better
  split
  · exact .inr rfl
  · split
    · exact .inl rfl
    · split
      · exact .inr rfl
      · exact .inl rfl

/-- **The one that is kept ranks above both.** -/
theorem better_bounds {current next : Float × String} (isCurrent : Unsigned current.1)
    (isNext : Unsigned next.1) :
    RanksBelow current (better current next) ∧ RanksBelow next (better current next) := by
  unfold better
  split
  · rename_i less
    exact ⟨.inl less, .refl next⟩
  · rename_i notLess
    split
    · rename_i greater
      exact ⟨.refl current, .inl greater⟩
    · rename_i notGreater
      have same : current.1 = next.1 :=
        ((isCurrent.trichotomy isNext).resolve_left notLess).resolve_right notGreater
      split
      · rename_i before
        exact ⟨.inr ⟨same, before⟩, .refl next⟩
      · rename_i notBefore
        have behind := (String.le_total current.2 next.2).resolve_left notBefore
        exact ⟨.refl current, .inr ⟨same.symm, behind⟩⟩

/-- **Going through scored candidates** gives the one that ranks above all of them. -/
theorem foldl_better (rest : List (Float × String)) (first : Float × String)
    (unsigned : ∀ entry ∈ first :: rest, Unsigned entry.1) :
    rest.foldl better first ∈ first :: rest ∧
      ∀ entry ∈ first :: rest, RanksBelow entry (rest.foldl better first) :=
  Builtin.foldl_choice better_chooses (fun _ _ => better_bounds) (fun entry _ => .refl entry)
    (fun _ _ _ => .trans) rest first unsigned

/-! ### The greatest candidate -/

variable {word : String} {candidates : List String} {cutoff : Float}

/-- **One candidate is closer to a word than another one**: it is more similar, or equally similar and
its name is greater in the order of bytes. -/
def Closer (word nearer other : String) : Prop :=
  similarity word other < similarity word nearer ∨
    similarity word other = similarity word nearer ∧ encode other.toList < encode nearer.toList

theorem Closer.asymm {nearer other : String} (closer : Closer word nearer other) :
    ¬Closer word other nearer := by
  rcases closer with less | ⟨same, before⟩
  · rintro (less' | ⟨same, _⟩)
    · exact Binary64.lt_irrefl _ (Binary64.lt_trans less less')
    · exact Binary64.lt_irrefl _ (same ▸ less)
  · rintro (less' | ⟨_, before'⟩)
    · exact Binary64.lt_irrefl _ (same ▸ less')
    · exact List.lt_irrefl _ (List.lt_trans before before')

/-- **The greatest candidate** is closer to the word than any other one. -/
structure IsClosest (word : String) (candidates : List String) (answer : String) : Prop where
  isCandidate : answer ∈ candidates
  closer : ∀ candidate ∈ candidates, candidate ≠ answer → Closer word answer candidate

theorem IsClosest.unique {first second : String} (isFirst : IsClosest word candidates first)
    (isSecond : IsClosest word candidates second) : first = second := by
  refine Decidable.byContradiction fun different => ?_
  have closer := isFirst.closer second isSecond.isCandidate (Ne.symm different)
  exact closer.asymm (isSecond.closer first isFirst.isCandidate different)

/-- The greatest candidate reaches the cutoff if any candidate does. -/
theorem IsClosest.reaches {answer candidate : String} (isClosest : IsClosest word candidates answer)
    (member : candidate ∈ candidates) (reaches : cutoff ≤ similarity word candidate) :
    cutoff ≤ similarity word answer := by
  by_cases same : candidate = answer
  · exact same ▸ reaches
  · rcases isClosest.closer candidate member same with less | ⟨equal, _⟩
    · exact Binary64.le_trans reaches (Binary64.le_of_lt less)
    · exact equal ▸ reaches

/-- The candidates that reach the cutoff, with their scores. -/
def reaching (word : String) (candidates : List String) (cutoff : Float) : List (Float × String) :=
  (candidates.map fun candidate => (similarity word candidate, candidate)).filter fun entry =>
    cutoff ≤ entry.1

theorem closestMatch_eq (word : String) (candidates : List String) (cutoff : Float) :
    closestMatch word candidates cutoff =
      match reaching word candidates cutoff with
      | [] => none
      | first :: rest => some (rest.foldl better first).2 := rfl

theorem mem_reaching_iff {entry : Float × String} : entry ∈ reaching word candidates cutoff ↔
    entry.2 ∈ candidates ∧ entry.1 = similarity word entry.2 ∧ cutoff ≤ entry.1 := by
  rw [reaching, List.mem_filter, List.mem_map, decide_eq_true_eq]
  constructor
  · rintro ⟨⟨candidate, member, rfl⟩, reaches⟩
    exact ⟨member, rfl, reaches⟩
  · rintro ⟨member, isScore, reaches⟩
    exact ⟨⟨entry.2, member, by rw [← isScore]⟩, reaches⟩

/-- **There is no answer** if no candidate reaches the cutoff. -/
theorem closestMatch_eq_none_iff : closestMatch word candidates cutoff = none ↔
    ∀ candidate ∈ candidates, ¬cutoff ≤ similarity word candidate := by
  have nothing : closestMatch word candidates cutoff = none ↔
      reaching word candidates cutoff = [] := by
    rw [closestMatch_eq]
    cases reaching word candidates cutoff with
    | nil => exact iff_of_true rfl rfl
    | cons first rest => exact iff_of_false nofun nofun
  rw [nothing, List.eq_nil_iff_forall_not_mem]
  constructor
  · intro none candidate member reaches
    exact none (similarity word candidate, candidate) (mem_reaching_iff.2 ⟨member, rfl, reaches⟩)
  · intro missed entry reached
    obtain ⟨member, isScore, reaches⟩ := mem_reaching_iff.1 reached
    exact missed entry.2 member (isScore ▸ reaches)

/-- A candidate that misses the cutoff is less similar than one that reaches it. -/
theorem similarity_lt_of_missed {missing reached : String}
    (misses : ¬cutoff ≤ similarity word missing) (reaches : cutoff ≤ similarity word reached) :
    similarity word missing < similarity word reached := by
  rcases (unsigned_similarity word missing).trichotomy (unsigned_similarity word reached)
    with less | same | greater
  · exact less
  · exact absurd (same ▸ reaches) misses
  · exact absurd (Binary64.le_trans reaches (Binary64.le_of_lt greater)) misses

/-- **An answer is the greatest candidate**, and it reaches the cutoff. -/
theorem isClosest_of_closestMatch {answer : String}
    (found : closestMatch word candidates cutoff = some answer) :
    IsClosest word candidates answer ∧ cutoff ≤ similarity word answer := by
  rw [closestMatch_eq] at found
  cases entries : reaching word candidates cutoff with
  | nil =>
    rw [entries] at found
    cases found
  | cons first rest =>
    rw [entries] at found
    cases found
    have unsigned : ∀ entry ∈ first :: rest, Unsigned entry.1 := by
      intro entry member
      rw [← entries, mem_reaching_iff] at member
      exact member.2.1 ▸ unsigned_similarity word entry.2
    obtain ⟨member, above⟩ := foldl_better rest first unsigned
    rw [← entries] at member above
    generalize rest.foldl better first = best at member above ⊢
    obtain ⟨isCandidate, isScore, reaches⟩ := mem_reaching_iff.1 member
    rw [isScore] at reaches
    refine ⟨⟨isCandidate, fun candidate isOther different => ?_⟩, reaches⟩
    by_cases also : cutoff ≤ similarity word candidate
    · rcases above (similarity word candidate, candidate) (mem_reaching_iff.2 ⟨isOther, rfl, also⟩)
        with less | ⟨same, notBehind⟩
      · exact .inl (isScore ▸ less)
      · have before : candidate < best.2 := Decidable.byContradiction fun notBefore =>
          different (String.le_antisymm notBehind (String.not_lt.1 notBefore))
        exact .inr ⟨same.trans isScore, Text.Utf8.encode_lt (String.lt_iff.1 before)⟩
    · exact .inl (similarity_lt_of_missed also reaches)

/-- **The answer is the greatest candidate**, if that reaches the cutoff. -/
theorem closestMatch_eq_some_iff {answer : String} :
    closestMatch word candidates cutoff = some answer ↔
      IsClosest word candidates answer ∧ cutoff ≤ similarity word answer := by
  refine ⟨isClosest_of_closestMatch, fun ⟨isClosest, reaches⟩ => ?_⟩
  cases found : closestMatch word candidates cutoff with
  | none => exact absurd reaches (closestMatch_eq_none_iff.1 found answer isClosest.isCandidate)
  | some other => rw [(isClosest_of_closestMatch found).1.unique isClosest]

/-- The greatest candidate depends on which candidates there are, and on nothing else. -/
theorem isClosest_congr {others : List String} (same : ∀ name, name ∈ others ↔ name ∈ candidates)
    {answer : String} : IsClosest word others answer ↔ IsClosest word candidates answer := by
  constructor
  · rintro ⟨isCandidate, closer⟩
    exact ⟨(same answer).1 isCandidate, fun name member => closer name ((same name).2 member)⟩
  · rintro ⟨isCandidate, closer⟩
    exact ⟨(same answer).2 isCandidate, fun name member => closer name ((same name).1 member)⟩

/-- **The closest match is the greatest candidate.** There is none exactly if no candidate's
similarity to the word reaches the cutoff. Otherwise it is the candidate that is greatest by its
similarity, and among equally similar ones by its name in the order of bytes. So any list of the same
names, in another order or with some of them repeated, has the same closest match, and a higher cutoff
leaves it as it is or leaves none. -/
theorem closestMatch_greatest (word : String) (candidates : List String) (cutoff : Float) :
    (closestMatch word candidates cutoff = none ↔
      ∀ candidate ∈ candidates, ¬cutoff ≤ similarity word candidate) ∧
    (∀ answer, closestMatch word candidates cutoff = some answer ↔
      IsClosest word candidates answer ∧
        ∃ candidate ∈ candidates, cutoff ≤ similarity word candidate) ∧
    (∀ others, (∀ name, name ∈ others ↔ name ∈ candidates) →
      closestMatch word others cutoff = closestMatch word candidates cutoff) ∧
    (∀ higher, cutoff ≤ higher →
      closestMatch word candidates higher = closestMatch word candidates cutoff ∨
        closestMatch word candidates higher = none) := by
  refine ⟨closestMatch_eq_none_iff, fun answer => ?_, fun others same => ?_, fun higher raised => ?_⟩
  · rw [closestMatch_eq_some_iff]
    constructor
    · rintro ⟨isClosest, reaches⟩
      exact ⟨isClosest, answer, isClosest.isCandidate, reaches⟩
    · rintro ⟨isClosest, candidate, member, reaches⟩
      exact ⟨isClosest, isClosest.reaches member reaches⟩
  · refine Option.ext fun answer => ?_
    rw [closestMatch_eq_some_iff, closestMatch_eq_some_iff, isClosest_congr same]
  · cases found : closestMatch word candidates higher with
    | none => exact .inr rfl
    | some answer =>
      obtain ⟨isClosest, reaches⟩ := isClosest_of_closestMatch found
      exact .inl (closestMatch_eq_some_iff.2 ⟨isClosest, Binary64.le_trans raised reaches⟩).symm

/-- Two names with three of four characters in common with `abcd`, and one with none: the one that
sorts last is the closest match, in whichever order they stand, and none is at a cutoff of one. -/
theorem closestMatch_greatest_tie :
    closestMatch "abcd" ["bcde", "abce", "xyz"] 0.5 = some "bcde" ∧
    (∀ name, name ∈ ["xyz", "abce", "bcde", "abce"] ↔ name ∈ ["bcde", "abce", "xyz"]) ∧
    closestMatch "abcd" ["xyz", "abce", "bcde", "abce"] 0.5 = some "bcde" ∧
    (0.5 : Float) ≤ 1 ∧ closestMatch "abcd" ["bcde", "abce", "xyz"] 1 = none ∧
    IsClosest "abcd" ["bcde", "abce", "xyz"] "bcde" := by
  have found : closestMatch "abcd" ["bcde", "abce", "xyz"] 0.5 = some "bcde" := by decide +kernel
  have same : ∀ name, name ∈ ["xyz", "abce", "bcde", "abce"] ↔ name ∈ ["bcde", "abce", "xyz"] := by
    grind
  have raised : (0.5 : Float) ≤ 1 := by decide +kernel
  have missed : closestMatch "abcd" ["bcde", "abce", "xyz"] 1 ≠ some "bcde" := by decide +kernel
  obtain ⟨_, answers, anyOrder, higher⟩ :=
    closestMatch_greatest "abcd" ["bcde", "abce", "xyz"] 0.5
  refine ⟨found, same, (anyOrder _ same).trans found, raised, ?_, ((answers _).1 found).1⟩
  exact (higher 1 raised).resolve_left fun unchanged => missed (unchanged.trans found)

end ColumnCalc
