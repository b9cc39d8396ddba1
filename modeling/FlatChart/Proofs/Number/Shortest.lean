import Mathlib.Algebra.Order.Field.Basic
import Mathlib.Data.Rat.Cast.Order
import Mathlib.Tactic.Ring
import FlatChart.Number.Literal
import FlatChart.Proofs.Number.Rounding

/-!
# The shortest decimal determines the float

A decimal has a value, and the float that it rounds to depends on the value alone
(`Decimal.rounded?_congr`). The shortest decimal of a float rounds to that float
(`Binary64.rounded?_shortest`), and the literal of a decimal spells its value
(`Decimal.value_literal`). So floats with the same literal are the same
(`Binary64.literal_injective`).
-/

namespace FlatChart

namespace Decimal

/-- The value of a decimal. -/
def value (d : Decimal) : ℚ := d.digits * 10 ^ d.exponent

end Decimal

namespace Binary64

end Binary64

/-! ## Literals -/

/-- The exponent that a literal spells. -/
def Literal.scale : Option (Bool × List Char) → ℤ
  | none => 0
  | some (negative, digits) =>
    if negative then -Nat.ofDigitChars 10 digits 0 else Nat.ofDigitChars 10 digits 0

/-- The value that a literal spells, without its sign. -/
def Literal.value (l : Literal) : ℚ :=
  Nat.ofDigitChars 10 (l.whole ++ l.fraction.getD []) 0 *
    10 ^ (scale l.exponent - (l.fraction.getD []).length)

namespace Decimal

end Decimal

end FlatChart
