import FlatChart.Number.Binary64

/-!
# Decimals and binary64 numbers

`Decimal` is a natural number scaled by a power of ten. It becomes a binary64 number in two ways:
`Decimal.nearest?` rounds its exact value once, and `Decimal.scaled?` rounds the digits and then
scales them by powers of ten that are binary64 numbers themselves, rounding at each step, which is
quicker and may end at a neighbour of the nearest number. `Binary64.shortest` is the way back for
`Decimal.nearest?`: of the decimals that round to the number it has the fewest digits, and of those
it is the nearest one.
-/

namespace FlatChart

/-- The number `digits * 10^exponent`. -/
structure Decimal where
  /-- The digits, read as one natural number. -/
  digits : Nat
  /-- The power of ten of the last digit. -/
  exponent : Int
  deriving DecidableEq, Repr

namespace Decimal

/-- The binary64 number nearest to a decimal, with a sign; there is none when it is too large.
Beyond `10^400` every decimal is too large, and far enough below `10^(-400)` every one rounds to
zero, so no power of ten outside these bounds is computed. -/
def nearest? (d : Decimal) (negative : Bool) : Option Binary64 :=
  if d.digits = 0 then some (.zero negative)
  else if 400 < d.exponent then none
  else if (d.digits.log2 : Int) + d.exponent < -401 then some (.zero negative)
  else if 0 ≤ d.exponent then
    Binary64.ofFraction? negative (d.digits * Nat.pow 10 d.exponent.toNat) 1
  else Binary64.ofFraction? negative d.digits (Nat.pow 10 d.exponent.natAbs)

/-- The binary64 number that a decimal is scaled to, with a sign: its rounded digits times a power
of ten, or divided by one, or by `10^308` and then by another when the exponent is below -308. There
is none when the exponent is above 308 or the product is too large, and below an exponent of -616
the number is zero. -/
def scaled? (d : Decimal) (negative : Bool) : Option Binary64 :=
  if d.digits = 0 then some (.zero negative)
  else if 308 < d.exponent then none
  else if d.exponent < -616 then some (.zero negative)
  else do
    let digits ← Binary64.ofFraction? negative d.digits 1
    if 0 ≤ d.exponent then digits.mul? (← Binary64.powTen? d.exponent.toNat)
    else if -308 ≤ d.exponent then digits.div? (← Binary64.powTen? d.exponent.natAbs)
    else
      let quotient ← digits.div? (← Binary64.powTen? 308)
      quotient.div? (← Binary64.powTen? (d.exponent.natAbs - 308))

/-- Digits without trailing zeros, with the exponent raised for each one dropped. -/
def dropZeros : (fuel digits : Nat) → Int → Decimal
  | 0, digits, exponent => ⟨digits, exponent⟩
  | fuel + 1, digits, exponent =>
    if digits % 10 = 0 then dropZeros fuel (digits / 10) (exponent + 1) else ⟨digits, exponent⟩

/-- The same number without trailing zeros. -/
def normalize (d : Decimal) : Decimal :=
  if d.digits = 0 then ⟨0, 0⟩ else dropZeros (Nat.toDigits 10 d.digits).length d.digits d.exponent

end Decimal

namespace Binary64

/-- The two integers around a quotient, the nearer one first and the even one first on a tie. -/
def neighbours (num den : Nat) : List Nat :=
  let low := num / den
  if roundQuotient num den = low then [low, low + 1] else [low + 1, low]

/-- Whether the number is the nearest one to a decimal. -/
def isNearestTo (x : Binary64) (d : Decimal) : Bool := d.nearest? x.negative = some x

/-- The decimal nearest to the number on the grid of multiples of `10^(drop - 324)`, or its other
neighbour there, if it rounds to the number. -/
def onGrid? (x : Binary64) (drop : Nat) : Option Decimal :=
  ((neighbours (x.units * Nat.pow 10 324) (Nat.pow 10 drop <<< 1074)).map
    fun digits => ⟨digits, (drop : Int) - 324⟩).find? x.isNearestTo

/-- The decimal with the same value. -/
def exactDecimal (x : Binary64) : Decimal := ⟨x.units * Nat.pow 5 1074, -1074⟩

/-- The shortest decimal that rounds to the number, and the nearest of several. The grids are tried
from one digit on; the least number is above `10^(-324)`, so the last grid is finer than any. -/
def shortest (x : Binary64) : Decimal :=
  let count := (Nat.toDigits 10 (x.units * Nat.pow 10 324 / (1 <<< 1074))).length
  (((List.range count).findSome? fun n => x.onGrid? (count - 1 - n)).getD x.exactDecimal).normalize

end Binary64

end FlatChart
