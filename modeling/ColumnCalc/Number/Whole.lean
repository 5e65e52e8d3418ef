/-
**Whole numbers written in decimal.**

A whole number is written with digits and an optional plus sign in front. `readWhole?` accepts those
below a bound.
-/

import ColumnCalc.Number.Numeral

namespace ColumnCalc

/-- The whole number below a bound that a text is. -/
def readWhole? (bound : Nat) (text : List Char) : Option Nat :=
  let digits :=
    match text with
    | '+' :: rest => rest
    | text => text
  if digits.isEmpty || !digits.all Char.isDigit then none
  else if digitsValue digits < bound then some (digitsValue digits)
  else none

/-- What is read lies below the bound. -/
theorem readWhole_lt {bound value : Nat} {text : List Char}
    (found : readWhole? bound text = some value) : value < bound := by
  simp only [readWhole?] at found
  repeat' split at found
  all_goals first
    | contradiction
    | (simp only [Option.some.injEq] at found; subst found; assumption)

end ColumnCalc
