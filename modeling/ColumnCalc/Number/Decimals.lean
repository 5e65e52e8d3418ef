/-
**Rounding to decimal places.**

`roundToPlaces` rounds the exact value of a number, half to even, and reads the decimal back.
`roundToMultiple` rounds to a multiple of a power of ten that is itself a binary64 number, by dividing
and multiplying with it. `powerOfTen` is that power, by repeated squaring.
-/

import ColumnCalc.Number.Binary64

namespace ColumnCalc.Decimals

/-- The number rounded to `places` decimals: the nearest decimal to its exact value, of two equally
near the one with an even last digit, read back. Not-a-number and infinities stay. -/
def roundToPlaces (value : Float) (places : Nat) : Float :=
  match Binary64.decompose value with
  | .finite negative rank =>
    let scale := tenTo places
    Binary64.ofQuotient negative
      (Binary64.divNearest (Binary64.units rank * scale) Binary64.unitsPerOne) scale
  | _ => value

/-- Multiplies `product` with `base ^ exponent` by repeated squaring. -/
def mulPower (product base : Float) (exponent : Nat) : Float :=
  let product := if exponent % 2 = 1 then product * base else product
  if exponent / 2 = 0 then product else mulPower product (base * base) (exponent / 2)
termination_by exponent

/-- Ten to a power, as repeated squaring rounds it. -/
def powerOfTen (exponent : Nat) : Float :=
  mulPower 1 10 exponent

/-- The number rounded to a multiple of `divisor`: divided by it, rounded to a whole number, half
to even, and multiplied with it. -/
def roundToMultiple (value divisor : Float) : Float :=
  roundToPlaces (value / divisor) 0 * divisor

end ColumnCalc.Decimals
