/-
**Numbers written in decimal.**

A numeral is an optional sign, digits with at most one point among them (at least one digit in
all), and an optional exponent. `Numeral.read?` takes a whole text apart, `Numeral.toFloat` gives
the binary64 number nearest to what it says. `readNumber?` also takes the words for infinity and
for what is not a number.

`splitDigits_append` and `splitDigits_all` pin down the run of digits at the start of a text.
-/

import ColumnCalc.Number.Binary64

namespace ColumnCalc

/-- The run of digits at the start of a text, and what follows it. -/
def splitDigits (text : List Char) : List Char × List Char :=
  (text.takeWhile Char.isDigit, text.dropWhile Char.isDigit)

theorem splitDigits_append (text : List Char) :
    (splitDigits text).1 ++ (splitDigits text).2 = text :=
  List.takeWhile_append_dropWhile

theorem splitDigits_all (text : List Char) : (splitDigits text).1.all Char.isDigit = true :=
  List.all_takeWhile

/-- The value of a string of decimal digits. -/
def digitsValue (digits : List Char) : Nat :=
  digits.foldl (fun value digit => 10 * value + (digit.toNat - '0'.toNat)) 0

/-- A decimal numeral: `± digits · 10 ^ exponent`. -/
structure Numeral where
  negative : Bool
  digits : Nat
  exponent : Int
  deriving DecidableEq, Repr

namespace Numeral

/-- An optional sign at the start of a text: whether it is a minus, and what follows it. -/
def splitSign : List Char → Bool × List Char
  | '-' :: rest => (true, rest)
  | '+' :: rest => (false, rest)
  | text => (false, text)

theorem splitSign_unsigned {c : Char} (rest : List Char) (noMinus : c ≠ '-') (noPlus : c ≠ '+') :
    splitSign (c :: rest) = (false, c :: rest) := by
  unfold splitSign
  split
  · rename_i same
    cases same
    exact absurd rfl noMinus
  · rename_i same
    cases same
    exact absurd rfl noPlus
  · rfl

/-- The exponent that a text states; a text without one states zero. -/
def readExponent? : List Char → Option Int
  | [] => some 0
  | mark :: rest =>
    if mark = 'e' ∨ mark = 'E' then
      let (negative, digits) := splitSign rest
      if !digits.isEmpty && digits.all Char.isDigit then
        let power : Int := digitsValue digits
        some (if negative then -power else power)
      else none
    else none

/-- The numeral that a whole text is. -/
def read? (text : List Char) : Option Numeral :=
  let (negative, unsigned) := splitSign text
  let (whole, afterWhole) := splitDigits unsigned
  let (fraction, afterFraction) :=
    match afterWhole with
    | '.' :: rest => splitDigits rest
    | rest => ([], rest)
  if whole.isEmpty && fraction.isEmpty then none
  else
    (readExponent? afterFraction).map fun exponent =>
      { negative, digits := digitsValue (whole ++ fraction),
        exponent := exponent - fraction.length }

/-- The rank nearest to `digits · 10 ^ exponent`. Exponents that leave the range of finite
magnitudes on either side whatever the digits say are answered without raising ten to them. -/
def rankOf (digits : Nat) (exponent : Int) : Nat :=
  if digits = 0 then 0
  else
    match exponent with
    | .ofNat power =>
      if 400 < power then Binary64.infinityRank
      else Binary64.rankOfQuotient (digits * tenTo power) 1
    | .negSucc power =>
      if digits.log2 + 1100 < 3 * (power + 1) then 0
      else Binary64.rankOfQuotient digits (tenTo (power + 1))

/-- The binary64 number nearest to a numeral. -/
def toFloat (numeral : Numeral) : Float :=
  Binary64.ofRank numeral.negative (rankOf numeral.digits numeral.exponent)

end Numeral

/-- The number that a text names: a numeral, or with an optional sign and in any case one of the
words `inf`, `infinity` and `nan`. -/
def readNumber? (text : List Char) : Option Float :=
  match Numeral.read? text with
  | some numeral => some numeral.toFloat
  | none =>
    let (negative, word) := Numeral.splitSign text
    let word := String.ofList (word.map Char.toLower)
    if word = "inf" ∨ word = "infinity" then
      some (Binary64.ofRank negative Binary64.infinityRank)
    else if word = "nan" then some (0.0 / 0.0)
    else none

end ColumnCalc
