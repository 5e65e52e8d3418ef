/-
**The shortest text of a number.**

A finite number is written with the fewest significant digits that read back to it, of these the
nearest to its exact value, and always positionally: no exponent, and no point behind a whole
number. `render` tries one, two, … seventeen digits; should none of these read back, it writes
the exact value. `readRank_find` says that what is tried is kept only when it reads back.
-/

import ColumnCalc.Number.Numeral

namespace ColumnCalc

/-- The choices of the written form of numbers, apart from the digits. -/
structure NumberStyle where
  notANumber : String
  infinity : String
  minus : String
  point : Char
  /-- Of two shortest decimals equally near to the value, take the greater. -/
  tieGoesUp : Bool

/-- Numbers are written as `12.5`, `-0`, `inf`, `NaN`; a tie between two shortest decimals goes to
the greater. -/
def numberStyle : NumberStyle :=
  { notANumber := "NaN", infinity := "inf", minus := "-", point := '.', tieGoesUp := true }

namespace Shortest

/-- The decimal digits of a whole number. -/
def digitsOf (number : Nat) : List Char := Nat.toDigits 10 number

/-- The text without the zeros at its end. -/
def dropTrailingZeros (digits : List Char) : List Char :=
  (digits.reverse.dropWhile (· == '0')).reverse

/-- `digits · 10 ^ exponent` written positionally, with a digit in front of the point and no zero
at the end behind it. -/
def positional (digits : Nat) (exponent : Int) : List Char :=
  match exponent with
  | .ofNat zeros => digitsOf (digits * tenTo zeros)
  | .negSucc places =>
    let text := digitsOf digits
    let padded := List.replicate (places + 2 - text.length) '0' ++ text
    let whole := padded.take (padded.length - (places + 1))
    let fraction := dropTrailingZeros (padded.drop (padded.length - (places + 1)))
    if fraction.isEmpty then whole else whole ++ numberStyle.point :: fraction

/-- The rank that a text reads back to. -/
def readRank? (text : List Char) : Option Nat :=
  (Numeral.read? text).map fun numeral => Numeral.rankOf numeral.digits numeral.exponent

/-- How many places of a positive value below one stand between the point and its first digit;
`fuel` bounds the count. -/
def leadingZeros : (fuel units : Nat) → Nat
  | 0, _ => 0
  | fuel + 1, units =>
    if Binary64.unitsPerOne ≤ 10 * units then 0 else 1 + leadingZeros fuel (10 * units)

/-- The decimal exponent of a positive value: the least `k` with the value below `10 ^ k`. -/
def decimalExponent (units : Nat) : Int :=
  let whole := units / Binary64.unitsPerOne
  if whole = 0 then -(leadingZeros 324 units : Int) else (digitsOf whole).length

/-- The two neighbours of the value on the grid of multiples of `10 ^ exponent`, the nearer one
first. -/
def neighbours (units : Nat) (exponent : Int) : List (List Char) :=
  let (numerator, denominator) :=
    match exponent with
    | .ofNat power => (units, Binary64.unitsPerOne * tenTo power)
    | .negSucc power => (units * tenTo (power + 1), Binary64.unitsPerOne)
  let below := numerator / denominator
  let twice := 2 * (numerator % denominator)
  let lower := positional below exponent
  let upper := positional (below + 1) exponent
  if twice < denominator ∨ (twice = denominator ∧ !numberStyle.tieGoesUp) then [lower, upper]
  else [upper, lower]

/-- The decimals to try for a positive value, fewest digits first. -/
def candidates (units : Nat) : List (List Char) :=
  let exponent := decimalExponent units
  (List.range 17).flatMap fun (count : Nat) => neighbours units (exponent - ((count : Nat) + 1 : Int))

/-- The exact value: a unit is `5 ^ 1074 / 10 ^ 1074`. -/
def exact (units : Nat) : List Char :=
  positional (units * fiveTo 1074) (-1074)

/-- The shortest text of a finite magnitude. -/
def ofRank (rank : Nat) : List Char :=
  if rank = 0 then ['0']
  else
    let units := Binary64.units rank
    ((candidates units).find? fun text => readRank? text == some rank).getD (exact units)

/-- A text found among the candidates reads back to the magnitude. -/
theorem readRank_find {units rank : Nat} {text : List Char}
    (found : ((candidates units).find? fun text => readRank? text == some rank) = some text) :
    readRank? text = some rank := by
  simpa using List.find?_some found

end Shortest

/-- The text of a number. -/
def renderNumber (value : Float) : String :=
  match Binary64.decompose value with
  | .notANumber => numberStyle.notANumber
  | .infinite negative => (if negative then numberStyle.minus else "") ++ numberStyle.infinity
  | .finite negative rank =>
    (if negative then numberStyle.minus else "") ++ String.ofList (Shortest.ofRank rank)

end ColumnCalc
