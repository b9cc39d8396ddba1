import FlatChart.Number.Decimal

/-!
# Numbers and their literals

`Number` is an integer of at most 64 bits or a finite binary64 number; the two kinds never compare
equal. `Literal` is the written form, its parts kept apart: `Literal.chars` writes the parts in a
row, `Literal.number?` gives them a value, and `Number.literal` chooses the literal that stands for
a number.
-/

namespace FlatChart

/-- A number in a document: an integer of at most 64 bits, or a finite binary64 number. -/
inductive Number where
  | integer (value : Int) (fits : -0x8000000000000000 ≤ value ∧ value < 0x10000000000000000)
  | float (value : Binary64)
  deriving DecidableEq

namespace Number

/-- Integers are equal by value, floats by value with both zeros equal; an integer never equals a
float. -/
instance : BEq Number where
  beq
    | .integer m _, .integer n _ => m == n
    | .float x, .float y => x == y
    | _, _ => false

instance : Inhabited Number := ⟨.integer 0 (by decide)⟩

/-- The integer as a number, if it fits. -/
def ofInt? (n : Int) : Option Number :=
  if h : -0x8000000000000000 ≤ n ∧ n < 0x10000000000000000 then some (.integer n h) else none

/-- Whether the number is zero. -/
def isZero : Number → Bool
  | .integer n _ => n == 0
  | .float x => x.isZero

/-- The value of an integer that fits 64 bits with a sign. -/
def toInt64? : Number → Option Int
  | .integer n _ => if n < 0x8000000000000000 then some n else none
  | .float _ => none

/-- The nearest binary64 number. -/
def toBinary64? : Number → Option Binary64
  | .integer n _ => Binary64.ofInt? n
  | .float x => some x

end Number

/-- The parts of a written number: `-`, digits, `.` and digits, `e` with a sign and digits. -/
structure Literal where
  /-- Whether a minus stands in front. -/
  negative : Bool
  /-- The digits before the point. -/
  whole : List Char
  /-- The digits after the point, if there is one. -/
  fraction : Option (List Char)
  /-- Whether the exponent is negative, and its digits, if there is one. -/
  exponent : Option (Bool × List Char)
  deriving DecidableEq

namespace Literal

/-- The characters of the literal; an exponent always has its sign. -/
def chars (l : Literal) : List Char :=
  (if l.negative then ['-'] else []) ++ l.whole ++
    (match l.fraction with
      | none => []
      | some digits => '.' :: digits) ++
    (match l.exponent with
      | none => []
      | some (negative, digits) => 'e' :: (if negative then '-' else '+') :: digits)

/-- The number that the leading digits append to a number while it stays below `2^64`, and the
digits from the first that would take it further. -/
def takeDigits (n : Nat) : List Char → Nat × List Char
  | [] => (n, [])
  | digit :: digits =>
    let next := Nat.ofDigitChars 10 [digit] n
    if next < 1 <<< 64 then takeDigits next digits else (n, digit :: digits)

/-- The decimal that is kept of the literal, without its sign. Its digits fit 64 bits: those of the
whole part from the first that does not fit are dropped, each raising the exponent by one, and the
digits of the fraction follow the kept ones for as long as they fit. -/
def magnitude (l : Literal) : Decimal :=
  let fraction := l.fraction.getD []
  let (whole, wholeLeft) := takeDigits 0 l.whole
  let (digits, fractionLeft) := takeDigits whole fraction
  let exponent : Int :=
    match l.exponent with
    | none => 0
    | some (negative, digits) =>
      if negative then -(Nat.ofDigitChars 10 digits 0 : Int) else Nat.ofDigitChars 10 digits 0
  ⟨digits, exponent + wholeLeft.length - (fraction.length - fractionLeft.length : Nat)⟩

/-- The integer that the literal spells, when it has neither point nor exponent, fits 64 bits and
is no negative zero. -/
def integer? (l : Literal) : Option Number :=
  match l.fraction, l.exponent with
  | none, none =>
    let n := Nat.ofDigitChars 10 l.whole 0
    if l.negative then if n = 0 then none else Number.ofInt? (-n) else Number.ofInt? n
  | _, _ => none

/-- The number that the literal stands for: the integer that it spells, else the binary64 number
that its magnitude is scaled to. There is none when that number would be too large. -/
def number? (l : Literal) : Option Number :=
  match l.integer? with
  | some n => some n
  | none => (l.magnitude.scaled? l.negative).map .float

end Literal

/-- The literal of a decimal with a sign. With `d.ddd * 10^e` for its digits, it is written in
plain notation with at least one digit after the point for `e` from -5 to 15, and as `d.ddde+E` or
`d.ddde-E`, without a point after a single digit, outside. -/
def Decimal.literal (d : Decimal) (negative : Bool) : Literal :=
  let digits := Nat.toDigits 10 d.digits
  -- The power of ten of the first digit.
  let e := d.exponent + (digits.length - 1 : Nat)
  if -5 ≤ e ∧ e ≤ 15 then
    if 0 ≤ d.exponent then
      ⟨negative, digits ++ List.replicate d.exponent.toNat '0', some ['0'], none⟩
    else if 0 ≤ e then
      ⟨negative, digits.take (e.toNat + 1), some (digits.drop (e.toNat + 1)), none⟩
    else
      ⟨negative, ['0'], some (List.replicate (e.natAbs - 1) '0' ++ digits), none⟩
  else
    ⟨negative, digits.take 1, if digits.length = 1 then none else some (digits.drop 1),
      some (decide (e < 0), Nat.toDigits 10 e.natAbs)⟩

namespace Number

/-- The literal that stands for a number: an integer's digits, or a float's shortest decimal. -/
def literal : Number → Literal
  | .integer n _ => ⟨decide (n < 0), Nat.toDigits 10 n.natAbs, none, none⟩
  | .float x => x.shortest.literal x.negative

/-- The written form of a number. -/
def text (n : Number) : String := String.ofList n.literal.chars

end Number

end FlatChart
