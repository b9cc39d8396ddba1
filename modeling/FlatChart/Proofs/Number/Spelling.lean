import Mathlib.Data.Int.Order.Basic
import Mathlib.Data.List.Basic
import FlatChart.Number.Literal

/-!
# How numbers are spelled

The literal of a number keeps the rules that a reader of numbers relies on (`WellFormed`): digits
stand wherever digits must stand, and no zero stands before other digits of the whole part
(`Number.literal_wellFormed`). An integer is read off its literal again
(`Number.number?_literal_integer`). For a float this depends on how its digits are scaled, and
`Binary64.ReadsBack` says that it holds of one.
-/

namespace FlatChart

/-! ## Digits -/

/-- A run of at least one digit. -/
def IsDigits (cs : List Char) : Prop := cs ≠ [] ∧ ∀ c ∈ cs, c.isDigit = true

/-- The decimal digits of a natural number. -/
theorem isDigits_toDigits (n : ℕ) : IsDigits (Nat.toDigits 10 n) := by
  refine ⟨Nat.toDigits_ne_nil, fun c hc => ?_⟩
  exact Nat.isDigit_of_mem_toDigits (by decide) (by decide) hc

/-- Digits before digits are digits. -/
theorem IsDigits.append {cs ds : List Char} (hc : ∀ c ∈ cs, c.isDigit = true) (hd : IsDigits ds) :
    IsDigits (cs ++ ds) := by
  refine ⟨by simp [hd.1], fun c h => ?_⟩
  rcases List.mem_append.1 h with h | h
  · exact hc c h
  · exact hd.2 c h

/-- A beginning of digits that is not empty is made of digits. -/
theorem IsDigits.take {ds : List Char} (hd : IsDigits ds) {n : ℕ} (hn : 0 < n) :
    IsDigits (ds.take n) := by
  refine ⟨?_, fun c hc => hd.2 c (List.mem_of_mem_take hc)⟩
  rw [ne_eq, List.take_eq_nil_iff]
  rintro (h | h)
  · omega
  · exact hd.1 h

/-- An end of digits that is not empty is made of digits. -/
theorem IsDigits.drop {ds : List Char} (hd : IsDigits ds) {n : ℕ} (hn : n < ds.length) :
    IsDigits (ds.drop n) := by
  refine ⟨?_, fun c hc => hd.2 c (List.mem_of_mem_drop hc)⟩
  rw [ne_eq, List.drop_eq_nil_iff]
  omega

/-- A run of zeros is made of digits. -/
theorem isDigit_of_mem_zeros {n : ℕ} {c : Char} (hc : c ∈ List.replicate n '0') :
    c.isDigit = true := by
  rw [(List.mem_replicate.1 hc).2]
  rfl

/-- The digits of a number that is not zero do not begin with a zero. -/
theorem head?_toDigits_ne_zero (n : ℕ) (hn : n ≠ 0) : (Nat.toDigits 10 n).head? ≠ some '0' := by
  induction n using Nat.strongRecOn with
  | ind n ih =>
    by_cases h : n < 10
    · rw [Nat.toDigits_of_lt_base h]
      intro h0
      have hv : n.digitChar.toNat = 48 + n := Nat.toNat_digitChar_of_lt_ten h
      have h0' : n.digitChar = '0' := by simpa using h0
      rw [h0'] at hv
      have h48 : '0'.toNat = 48 := rfl
      omega
    · -- All digits but the last are those of `n / 10`, which is not zero either.
      rw [Nat.toDigits_of_base_le (by decide) (by omega),
        List.head?_append_of_ne_nil _ Nat.toDigits_ne_nil]
      exact ih (n / 10) (by omega) (by omega)

/-! ## Literals -/

/-- The form of a literal that can be read: every part that is present has digits, and a whole part
that begins with a zero is just that zero. -/
structure Literal.WellFormed (l : Literal) : Prop where
  /-- The whole part has digits. -/
  whole : IsDigits l.whole
  /-- A leading zero stands alone. -/
  leading : l.whole.head? = some '0' → l.whole = ['0']
  /-- Digits follow the point. -/
  fraction : ∀ digits ∈ l.fraction, IsDigits digits
  /-- Digits follow the sign of the exponent. -/
  exponent : ∀ e ∈ l.exponent, IsDigits e.2

/-- The characters of a fraction that may be absent. -/
def Literal.fractionChars : Option (List Char) → List Char
  | none => []
  | some digits => '.' :: digits

/-- The characters of an exponent that may be absent. -/
def Literal.exponentChars : Option (Bool × List Char) → List Char
  | none => []
  | some (negative, digits) => 'e' :: (if negative then '-' else '+') :: digits

/-- The characters of a literal are those of its parts in a row. -/
theorem Literal.chars_eq (l : Literal) :
    l.chars = (if l.negative then ['-'] else []) ++
      (l.whole ++ (fractionChars l.fraction ++ exponentChars l.exponent)) := by
  obtain ⟨negative, whole, fraction, exponent⟩ := l
  cases fraction <;> cases exponent <;> simp [chars, fractionChars, exponentChars]

/-- A decimal is spelled with a well-formed literal, provided that zero has no exponent. -/
theorem Decimal.literal_wellFormed (d : Decimal) (negative : Bool)
    (hzero : d.digits = 0 → d.exponent = 0) : (d.literal negative).WellFormed := by
  have hdigits := isDigits_toDigits d.digits
  have hlen : 0 < (Nat.toDigits 10 d.digits).length := Nat.length_toDigits_pos
  -- Only zero begins with a zero, and zero is spelled in plain notation.
  have hlead : (Nat.toDigits 10 d.digits).head? = some '0' →
      Nat.toDigits 10 d.digits = ['0'] ∧ d.exponent = 0 := by
    intro h
    by_cases h0 : d.digits = 0
    · exact ⟨by rw [h0]; rfl, hzero h0⟩
    · exact absurd h (head?_toDigits_ne_zero _ h0)
  unfold Decimal.literal
  generalize Nat.toDigits 10 d.digits = D at *
  have hsingle : D = ['0'] → D.length = 1 := fun h => by rw [h]; rfl
  have htake : ∀ n, 0 < n → (D.take n).head? = some '0' → D.length = 1 ∧ d.exponent = 0 := by
    intro n hn h
    rw [List.head?_take, if_neg (by omega)] at h
    exact ⟨hsingle (hlead h).1, (hlead h).2⟩
  dsimp only
  split_ifs with hplain hexp hpoint hone
  · -- Trailing zeros, and a zero after the point.
    refine ⟨⟨by simp [hdigits.1], fun c hc => ?_⟩, fun hl => ?_, by simp [IsDigits], by simp⟩
    · rcases List.mem_append.1 hc with hc | hc
      · exact hdigits.2 c hc
      · exact isDigit_of_mem_zeros hc
    · rw [List.head?_append_of_ne_nil _ hdigits.1] at hl
      obtain ⟨hd, he⟩ := hlead hl
      simp [hd, he]
  · -- The point stands between the digits.
    refine ⟨hdigits.take (by omega), fun hl => ?_, fun f hf => ?_, by simp⟩
    · have := htake _ (by omega) hl
      omega
    · obtain rfl := Option.some.inj hf
      exact hdigits.drop (by omega)
  · -- Zeros before the digits, after a zero and a point.
    refine ⟨by simp [IsDigits], fun _ => rfl, fun f hf => ?_, by simp⟩
    obtain rfl := Option.some.inj hf
    exact .append (fun c hc => isDigit_of_mem_zeros hc) hdigits
  · -- A single digit with an exponent.
    refine ⟨hdigits.take (by omega), fun hl => ?_, by simp, by simp [isDigits_toDigits]⟩
    have := htake _ (by omega) hl
    omega
  · -- Several digits with an exponent.
    refine ⟨hdigits.take (by omega), fun hl => ?_, fun f hf => ?_, by simp [isDigits_toDigits]⟩
    · have := htake _ (by omega) hl
      omega
    · obtain rfl := Option.some.inj hf
      exact hdigits.drop (by omega)

/-- Dropping trailing zeros leaves digits that are not zero not zero. -/
theorem Decimal.dropZeros_ne_zero :
    ∀ (fuel digits : ℕ) (exponent : ℤ), digits ≠ 0 →
      (dropZeros fuel digits exponent).digits ≠ 0
  | 0, digits, exponent, h => h
  | fuel + 1, digits, exponent, h => by
    unfold dropZeros
    split_ifs with h10
    · exact dropZeros_ne_zero fuel _ _ (by omega)
    · exact h

/-- Without trailing zeros, zero has no exponent. -/
theorem Decimal.exponent_normalize (d : Decimal) (h : d.normalize.digits = 0) :
    d.normalize.exponent = 0 := by
  unfold normalize at h ⊢
  split_ifs at h ⊢ with h0
  · rfl
  · exact absurd h (dropZeros_ne_zero _ _ _ h0)

namespace Number

/-- Every number is spelled with a well-formed literal. -/
theorem literal_wellFormed : ∀ n : Number, n.literal.WellFormed
  | .integer n _ => by
    refine ⟨isDigits_toDigits _, fun hl => ?_, by simp [literal], by simp [literal]⟩
    by_cases h0 : n.natAbs = 0
    · simp [literal, h0]
    · exact absurd hl (head?_toDigits_ne_zero _ h0)
  | .float x => Decimal.literal_wellFormed _ _ (Decimal.exponent_normalize _)

/-- An integer is the number that its literal stands for. -/
theorem number?_literal_integer (n : ℤ) (fits : -0x8000000000000000 ≤ n ∧ n < 0x10000000000000000) :
    (Number.integer n fits).literal.number? = some (.integer n fits) := by
  have hint : (Number.integer n fits).literal.integer? = some (.integer n fits) := by
    unfold literal Literal.integer?
    simp only [Nat.ofDigitChars_ten_toDigits, decide_eq_true_eq]
    -- A minus stands only before a number that is not zero, so no negative zero is spelled.
    by_cases hneg : n < 0
    · rw [if_pos hneg, if_neg (by omega), show -(n.natAbs : ℤ) = n by omega, ofInt?, dif_pos fits]
    · rw [if_neg hneg, show (n.natAbs : ℤ) = n by omega, ofInt?, dif_pos fits]
  unfold Literal.number?
  rw [hint]

end Number

/-- The literal of the float stands for that same float. -/
def Binary64.ReadsBack (x : Binary64) : Prop :=
  (Number.float x).literal.number? = some (.float x)

instance (x : Binary64) : Decidable x.ReadsBack := inferInstanceAs (Decidable (_ = _))

end FlatChart
