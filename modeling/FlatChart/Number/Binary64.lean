/-!
# Finite binary64 numbers

A finite floating point number in exact integer form: a sign, a significand below `2^53` and a
shift, standing for `± significand * 2^shift` units of `2^(-1074)`. Every value has one such form,
and both zeros are present. `ofFraction?` rounds an exact non-negative fraction to the nearest such
number, a tie going to the even significand; it has no answer where the value is too large.
Products and quotients are the exact ones, rounded once.
-/

namespace FlatChart

/-- A finite binary64 number, `± significand * 2^shift` units of `2^(-1074)`. -/
structure Binary64 where
  /-- Whether the sign is a minus; a zero has a sign too. -/
  negative : Bool
  /-- The significand, an integer of at most 53 bits. -/
  significand : Nat
  /-- The power of two by which the significand exceeds the least unit. -/
  shift : Nat
  /-- The significand uses all its bits, or the unit is the least one. -/
  canonical : significand < 1 <<< 53 ∧ shift ≤ 2045 ∧ (shift = 0 ∨ 1 <<< 52 ≤ significand)
  deriving DecidableEq

namespace Binary64

/-- The magnitude in units of `2^(-1074)`. -/
def units (x : Binary64) : Nat := x.significand <<< x.shift

/-- Zero with a sign. -/
def zero (negative : Bool) : Binary64 := ⟨negative, 0, 0, by decide⟩

/-- Whether the number is one of the two zeros. -/
def isZero (x : Binary64) : Bool := x.significand == 0

/-- Two numbers compare equal when they are the same or both are zero. -/
instance : BEq Binary64 := ⟨fun x y => decide (x = y) || (x.isZero && y.isZero)⟩

/-- The integer nearest to a quotient, the even one of two equally near. -/
def roundQuotient (num den : Nat) : Nat :=
  let low := num / den
  let rest := num % den
  if 2 * rest < den then low
  else if den < 2 * rest then low + 1
  else low + low % 2

/-- The number with a sign, significand and shift, where a significand of `2^53` is carried into
the shift; there is none when the shift is too large. -/
def ofParts? (negative : Bool) (significand shift : Nat) : Option Binary64 :=
  let (significand, shift) :=
    if significand = 1 <<< 53 then (1 <<< 52, shift + 1) else (significand, shift)
  if h : significand < 1 <<< 53 ∧ shift ≤ 2045 ∧ (shift = 0 ∨ 1 <<< 52 ≤ significand) then
    some ⟨negative, significand, shift, h⟩
  else none

/-- The number nearest to `± num / den`, a tie going to the even significand; there is none when
the fraction rounds to `2^1024` or more. -/
def ofFraction? (negative : Bool) (num den : Nat) : Option Binary64 :=
  let units := num <<< 1074
  -- What is left of the value is a significand of 53 bits, or of fewer in the least unit.
  let shift := (units / den).log2 - 52
  ofParts? negative (roundQuotient units (den <<< shift)) shift

/-- The number nearest to an integer. -/
def ofInt? (n : Int) : Option Binary64 := ofFraction? (n < 0) n.natAbs 1

/-- The number nearest to a power of ten. -/
def powTen? (exponent : Nat) : Option Binary64 := ofFraction? false (Nat.pow 10 exponent) 1

/-- The number nearest to the product of two; there is none when the product is too large. -/
def mul? (x y : Binary64) : Option Binary64 :=
  ofFraction? (x.negative != y.negative) (x.units * y.units) (1 <<< 2148)

/-- The number nearest to the quotient of a number and one that is not zero; there is none when the
quotient is too large. -/
def div? (x y : Binary64) : Option Binary64 :=
  ofFraction? (x.negative != y.negative) x.units y.units

end Binary64

end FlatChart
