/-
**How much two texts have in common.**

The similarity of two texts is twice the length of a longest common subsequence of their characters
over the number of characters of both, as a binary32 number. `closestMatch` picks the candidate
that is most similar to a word.
-/

import ColumnCalc.Number.Binary64

namespace ColumnCalc

/-- A row of the table of common subsequence lengths: for `left` in front of the text that `above`
belongs to, the lengths for every suffix of `right`. Each entry belongs to a suffix, the empty one
last. -/
def commonRow (left : Char) : List Char → List Nat → List Nat
  | [], _ => [0]
  | _ :: _, [] => [0]
  | right :: rest, above :: aboveRest =>
    let row := commonRow left rest aboveRest
    let length :=
      if left = right then 1 + aboveRest.headD 0 else max above (row.headD 0)
    length :: row

/-- The length of a longest common subsequence. -/
def commonLength (first second : List Char) : Nat :=
  (first.foldr (fun left above => commonRow left second above)
    (List.replicate (second.length + 1) 0)).headD 0

/-- The binary32 number nearest to a count, half to even; up to two to the twenty-fourth it is the
count itself. -/
def binary32Count (count : Nat) : Nat :=
  let step := twoTo (count.log2 - 23)
  Binary64.divNearest count step * step

/-- `numerator / denominator`, at most one, rounded to twenty-four significant bits, half to even. -/
def binary32Ratio (numerator denominator : Nat) : Float :=
  if numerator = 0 then 0
  else
    let scale := twoTo (23 + (denominator.log2 - numerator.log2))
    let scale := if numerator * scale < denominator * twoTo 23 then 2 * scale else scale
    Binary64.ofQuotient false (Binary64.divNearest (numerator * scale) denominator) scale

/-- The similarity of two texts, from zero to one. Two empty texts are a full match. The counts are
binary32 numbers before they are divided. -/
def similarity (first second : String) : Float :=
  let first := first.toList
  let second := second.toList
  let total := first.length + second.length
  if total = 0 then 1
  else binary32Ratio (2 * binary32Count (commonLength first second)) (binary32Count total)

/-- Of two scored candidates the one with the greater score, and on a tie the one whose name is
greater. -/
def better (first second : Float × String) : Float × String :=
  if first.1 < second.1 then second
  else if second.1 < first.1 then first
  else if first.2 ≤ second.2 then second
  else first

/-- The candidate that is most similar to a word, of several equally similar ones the one that sorts
last; none when no similarity reaches the cutoff. -/
def closestMatch (word : String) (candidates : List String) (cutoff : Float) : Option String :=
  let scored := candidates.map fun candidate => (similarity word candidate, candidate)
  match scored.filter fun entry => cutoff ≤ entry.1 with
  | [] => none
  | first :: rest => some (rest.foldl better first).2

end ColumnCalc
