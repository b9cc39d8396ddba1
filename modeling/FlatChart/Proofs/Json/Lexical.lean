import FlatChart.Json.Document
import FlatChart.Json.Reader.Lexical
import FlatChart.Proofs.Json.Layout

/-!
# Reading written numbers and texts

A literal and a quoted text are read back from the characters that are written for them, in front
of anything that may follow a value (`Ends`). A text is also found where it is only passed over:
the two ways of reading differ in the escapes that they admit, and a written text uses none of
those in doubt.
-/

namespace FlatChart.Reader

/-! ## Results -/

variable {α β : Type}

/-- A result, and the characters that are left after it. -/
def leaving (rest : List Char) (r : Except ReadError α) : Except ReadError (α × List Char) :=
  r.map fun a => (a, rest)

/-- A result is gone on with. -/
@[simp] theorem ok_bind (a : α) (f : α → Except ReadError β) : (Except.ok a >>= f) = f a := rfl

/-- An error is gone on with by nothing. -/
@[simp] theorem error_bind (e : ReadError) (f : α → Except ReadError β) :
    (Except.error e >>= f) = .error e := rfl

/-- A result leaves the rest. -/
@[simp] theorem leaving_ok (rest : List Char) (a : α) :
    leaving rest (.ok a) = .ok (a, rest) := rfl

/-- An error leaves nothing. -/
@[simp] theorem leaving_error (rest : List Char) (e : ReadError) :
    leaving rest (.error e : Except ReadError α) = .error e := rfl

/-- Going on after a result that leaves the rest is going on before it is said what is left. -/
theorem leaving_bind (rest : List Char) (r : Except ReadError α)
    (f : α → Except ReadError β) (g : α × List Char → Except ReadError (β × List Char))
    (h : ∀ a, g (a, rest) = leaving rest (f a)) :
    (leaving rest r >>= g) = leaving rest (r >>= f) := by
  cases r with
  | error e => rfl
  | ok a => exact h a

/-! ## What follows a value -/

/-- What may follow a value: the end of the text, a comma, a closing bracket, or a blank. -/
def Ends (rest : List Char) : Prop :=
  ∀ c ∈ rest.head?, c = ',' ∨ c = ']' ∨ c = '\x7d' ∨ isBlank c = true

/-- A value may stand at the end. -/
theorem ends_nil : Ends [] := by simp [Ends]

/-- A comma may follow a value. -/
theorem ends_comma (rest : List Char) : Ends (',' :: rest) := by simp [Ends]

/-- The closing bracket of an array may follow a value. -/
theorem ends_bracket (rest : List Char) : Ends (']' :: rest) := by simp [Ends]

/-- The closing bracket of an object may follow a value. -/
theorem ends_brace (rest : List Char) : Ends ('\x7d' :: rest) := by simp [Ends]

/-- Blanks may follow a value. -/
theorem ends_gap (g : Gap) {rest : List Char} (hr : Ends rest) : Ends (g.chars ++ rest) := by
  cases g with
  | nil => exact hr
  | cons b g => cases b <;> simp [Ends, Gap.chars, Blank.char, isBlank]

/-- A character that may follow a value goes on with no number. -/
theorem Ends.ne {rest : List Char} (h : Ends rest) {c : Char} (hc : c ∈ rest.head?) :
    c.isDigit = false ∧ c ≠ '.' ∧ c ≠ 'e' ∧ c ≠ 'E' := by
  have hblank : isBlank c = true → c = ' ' ∨ c = '\n' ∨ c = '\t' ∨ c = '\r' := by
    intro hb
    simpa [isBlank, or_assoc] using hb
  rcases h c hc with rfl | rfl | rfl | hb
  iterate 3 exact ⟨rfl, by decide, by decide, by decide⟩
  rcases hblank hb with rfl | rfl | rfl | rfl <;> exact ⟨rfl, by decide, by decide, by decide⟩

/-- The first character that is left is no digit. -/
def NoDigit (rest : List Char) : Prop := ∀ c ∈ rest.head?, c.isDigit = false

/-- No digit follows a value. -/
theorem Ends.noDigit {rest : List Char} (h : Ends rest) : NoDigit rest := fun _ hc => (h.ne hc).1

/-! ## Numbers -/

/-- A run of digits is read up to the first character that is no digit. -/
theorem readDigits_append (atEnd : ReadError) {ds rest : List Char} (hd : IsDigits ds)
    (hr : NoDigit rest) : readDigits atEnd (ds ++ rest) = .ok (ds, rest) := by
  obtain ⟨c, cs, rfl⟩ := List.exists_cons_of_ne_nil hd.1
  have hc : c.isDigit = true := hd.2 c (List.mem_cons_self ..)
  have hcs : ∀ d ∈ cs, d.isDigit = true := fun d h => hd.2 d (List.mem_cons_of_mem _ h)
  have hnone : rest.takeWhile Char.isDigit = [] ∧ rest.dropWhile Char.isDigit = rest := by
    cases rest with
    | nil => simp
    | cons d rest => simp [hr d rfl]
  rw [List.cons_append, readDigits, if_pos hc, List.takeWhile_append_of_pos hcs,
    List.dropWhile_append_of_pos hcs, hnone.1, hnone.2, List.append_nil]

/-- The whole part is read, whether it is a single zero or begins with another digit. -/
theorem readWhole_append (atEnd : ReadError) {ds rest : List Char} (hd : IsDigits ds)
    (hlead : ds.head? = some '0' → ds = ['0']) (hr : NoDigit rest) :
    readWhole atEnd (ds ++ rest) = .ok (ds, rest) := by
  by_cases h0 : ds.head? = some '0'
  · rw [hlead h0]
    cases rest with
    | nil => rfl
    | cons c rest => simp [readWhole, hr c rfl]
  · obtain ⟨c, cs, rfl⟩ := List.exists_cons_of_ne_nil hd.1
    have hc : c ≠ '0' := by simpa using h0
    rw [readWhole.eq_2]
    · exact readDigits_append atEnd hd hr
    · rintro d ds h
      exact hc (List.cons.inj h).1

/-- What is written for a fraction is read as that fraction. -/
theorem readFraction_append (atEnd : ReadError) {f : Option (List Char)} {rest : List Char}
    (hf : ∀ digits ∈ f, IsDigits digits) (hr : NoDigit rest) (hdot : rest.head? ≠ some '.') :
    readFraction atEnd (Literal.fractionChars f ++ rest) = .ok (f, rest) := by
  cases f with
  | none =>
    rw [Literal.fractionChars, List.nil_append]
    exact readFraction.eq_2 _ _ fun _ hc => hdot (by rw [hc]; rfl)
  | some digits =>
    simp only [Literal.fractionChars, List.cons_append, readFraction]
    rw [readDigits_append atEnd (hf digits rfl) hr]
    rfl

/-- What is written for an exponent is read as that exponent. -/
theorem readExponent_append (atEnd : ReadError) (n : Numeral) {rest : List Char} (hr : Ends rest) :
    readExponent atEnd (n.exponentChars ++ rest) = .ok (n.literal.exponent, rest) := by
  unfold Numeral.exponentChars
  cases he : n.literal.exponent with
  | none =>
    cases rest with
    | nil => rfl
    | cons c rest =>
      obtain ⟨-, -, hsmall, hcapital⟩ := hr.ne (c := c) rfl
      simp [readExponent, hsmall, hcapital]
  | some p =>
    obtain ⟨negative, digits⟩ := p
    have hdigits : IsDigits digits := n.wellFormed.exponent _ he
    have hd : readDigits atEnd (digits ++ rest) = .ok (digits, rest) :=
      readDigits_append atEnd hdigits hr.noDigit
    -- Without a sign the first digit stands next, which no sign is.
    obtain ⟨c, cs, rfl⟩ := List.exists_cons_of_ne_nil hdigits.1
    have hc : c.isDigit = true := hdigits.2 c (List.mem_cons_self ..)
    have hplus : c ≠ '+' := by
      rintro rfl
      exact absurd hc (by decide)
    have hminus : c ≠ '-' := by
      rintro rfl
      exact absurd hc (by decide)
    rw [List.cons_append] at hd
    cases n.capital <;> cases negative <;> cases n.signed <;>
      simp [readExponent, hd, hplus, hminus]

/-- An exponent, or what follows without one, begins with no digit and no point. -/
theorem noDigit_exponentChars (n : Numeral) {rest : List Char} (hr : Ends rest) :
    NoDigit (n.exponentChars ++ rest) ∧ (n.exponentChars ++ rest).head? ≠ some '.' := by
  unfold Numeral.exponentChars
  cases n.literal.exponent with
  | none => exact ⟨hr.noDigit, fun hdot => (hr.ne hdot).2.1 rfl⟩
  | some p => cases n.capital <;> simp [NoDigit]

/-- A fraction, or what follows without one, begins with no digit. -/
theorem noDigit_fractionChars (f : Option (List Char)) {rest : List Char} (hr : NoDigit rest) :
    NoDigit (Literal.fractionChars f ++ rest) := by
  cases f with
  | none => exact hr
  | some digits => simp [NoDigit, Literal.fractionChars]

/-- The parts of a number are read from its characters, in whatever way its exponent is written. -/
theorem readLiteral_numeral (atEnd : ReadError) (n : Numeral) {rest : List Char} (hr : Ends rest) :
    readLiteral atEnd (n.chars ++ rest) = .ok (n.literal, rest) := by
  obtain ⟨hwhole, hlead, hfraction, -⟩ := n.wellFormed
  have hexp := readExponent_append atEnd n hr
  -- From the last part to the first: each one ends where the next cannot continue it.
  obtain ⟨hdigit, hdot⟩ := noDigit_exponentChars n hr
  have hfrac := readFraction_append atEnd hfraction hdigit hdot
  have hwh := readWhole_append atEnd hwhole hlead
    (noDigit_fractionChars n.literal.fraction hdigit)
  unfold readLiteral Numeral.chars
  simp only [List.append_assoc] at hexp hfrac hwh ⊢
  cases hnegative : n.literal.negative with
  | true =>
    simp [hwh, hfrac, hexp]
    simp [← hnegative]
  | false =>
    obtain ⟨c, cs, hcs⟩ := List.exists_cons_of_ne_nil hwhole.1
    have hminus : c ≠ '-' := by
      rintro rfl
      exact absurd (hwhole.2 '-' (by rw [hcs]; exact List.mem_cons_self ..)) (by decide)
    simp only [hcs, List.cons_append] at hwh ⊢
    simp [hminus, hwh, hfrac, hexp]
    simp [← hcs, ← hnegative]

/-- A literal is a number whose exponent is written with a small letter and always with a sign. -/
theorem chars_numeral {l : Literal} (hl : l.WellFormed) :
    (Numeral.mk l hl false true).chars = l.chars := by
  have hexponent : (Numeral.mk l hl false true).exponentChars =
      Literal.exponentChars l.exponent := by
    unfold Numeral.exponentChars
    cases l.exponent with
    | none => rfl
    | some p =>
      obtain ⟨negative, digits⟩ := p
      cases negative <;> rfl
  rw [Literal.chars_eq, Numeral.chars, hexponent]

/-- A well-formed literal is read back from its characters. -/
theorem readLiteral_chars (atEnd : ReadError) {l : Literal} (hl : l.WellFormed) {rest : List Char}
    (hr : Ends rest) : readLiteral atEnd (l.chars ++ rest) = .ok (l, rest) := by
  rw [← chars_numeral hl]
  exact readLiteral_numeral atEnd _ hr

/-- A number begins with a minus or a digit. -/
theorem exists_cons_numeral (n : Numeral) :
    ∃ c cs, n.chars = c :: cs ∧ (c = '-' ∨ c.isDigit = true) := by
  obtain ⟨c, cs, hc⟩ := List.exists_cons_of_ne_nil n.wellFormed.whole.1
  have hdigit : c.isDigit = true :=
    n.wellFormed.whole.2 c (by rw [hc]; exact List.mem_cons_self ..)
  rw [Numeral.chars, hc]
  cases n.literal.negative with
  | true => exact ⟨'-', _, rfl, .inl rfl⟩
  | false => exact ⟨c, _, rfl, .inr hdigit⟩

/-- A written literal begins with a minus or a digit. -/
theorem exists_cons_chars {l : Literal} (hl : l.WellFormed) :
    ∃ c cs, l.chars = c :: cs ∧ (c = '-' ∨ c.isDigit = true) := by
  rw [← chars_numeral hl]
  exact exists_cons_numeral _

/-! ## Texts -/

/-- The digits of a number below sixteen are read as that number. -/
theorem hexValue?_digitChar : ∀ n < 16, hexValue? (Nat.digitChar n) = some n := by decide

/-- The four digits that stand for a control character are read as its number. -/
theorem readHex_control {c : Char} (hc : c.toNat < 0x20) (rest : List Char) :
    readHex ('0' :: '0' :: Nat.digitChar (c.toNat / 16) :: Nat.digitChar (c.toNat % 16) :: rest) =
      .ok (c.toNat, rest) := by
  have hhigh := hexValue?_digitChar (c.toNat / 16) (by omega)
  have hlow := hexValue?_digitChar (c.toNat % 16) (by omega)
  have hzero : hexValue? '0' = some 0 := by decide
  -- Four characters are at least four bytes.
  have hsize : ∀ d : Char, 0 < d.utf8Size := Char.utf8Size_pos
  have h0 := hsize '0'
  have h1 := hsize (Nat.digitChar (c.toNat / 16))
  have h2 := hsize (Nat.digitChar (c.toNat % 16))
  unfold readHex
  rw [if_neg (by simp only [List.foldr_cons]; omega)]
  simp only [hzero, hhigh, hlow]
  congr 2
  omega

/-- `unit` reads the numbers of control characters as these characters. Both ways of reading a
number after an escape mark do so. -/
def ReadsControls (unit : Reader Char) : Prop :=
  ∀ (c : Char) (rest : List Char), c.toNat < 0x20 →
    unit ('0' :: '0' :: Nat.digitChar (c.toNat / 16) :: Nat.digitChar (c.toNat % 16) :: rest) =
      .ok (c, rest)

/-- Reading a number after an escape mark reads control characters. -/
theorem readsControls_readUnit : ReadsControls readUnit := by
  intro c rest hc
  have htrailing : isTrailing c.toNat = false := by
    simp only [isTrailing, Bool.and_eq_false_iff, decide_eq_false_iff_not]
    omega
  have hleading : isLeading c.toNat = false := by
    simp only [isLeading, Bool.and_eq_false_iff, decide_eq_false_iff_not]
    omega
  simp [readUnit, readHex_control hc, htrailing, hleading]

/-- Passing over a number after an escape mark reads control characters. -/
theorem readsControls_skipUnit : ReadsControls skipUnit := by
  intro c rest hc
  simp [skipUnit, readHex_control hc]

/-- A character is read from what is written for it inside a quoted text. -/
theorem readChar?_escapeChar {unit : Reader Char} (hunit : ReadsControls unit) (c : Char)
    (rest : List Char) : readChar? unit (escapeChar c ++ rest) = .ok (some c, rest) := by
  unfold escapeChar
  split
  -- Only the characters that are not escaped by name are told apart by their number.
  case h_8 hquote hslash _ _ _ _ _ =>
    split_ifs with hc
    · simp [readChar?, readEscape, hunit _ rest hc]
    · rw [List.singleton_append, readChar?.eq_4 _ _ _ hquote hslash, if_neg hc]
  all_goals rfl

/-- Every character of a text takes at least one in its written form. -/
theorem length_le_flatMap_escapeChar (cs : List Char) :
    cs.length ≤ (cs.flatMap escapeChar).length := by
  induction cs with
  | nil => simp
  | cons c cs ih =>
    have hpos : 0 < (escapeChar c).length := by
      unfold escapeChar
      split
      case h_8 => split_ifs <;> simp
      all_goals simp
    simp only [List.flatMap_cons, List.length_append, List.length_cons]
    omega

/-- The characters that are written after the opening quote of a text. -/
def quoted (s : String) : List Char := s.toList.flatMap escapeChar ++ ['"']

/-- A quoted text is its opening quote and what is written after that. -/
theorem quote_eq (s : String) : quote s = '"' :: quoted s := rfl

/-- Written characters are read up to the closing quote. -/
theorem readChars_flatMap {unit : Reader Char} (hunit : ReadsControls unit) (rest : List Char) :
    ∀ (cs : List Char) (fuel : ℕ), cs.length < fuel →
      readChars unit fuel (cs.flatMap escapeChar ++ '"' :: rest) = .ok (cs, rest)
  | [], fuel + 1, _ => by simp [readChars, readChar?]
  | c :: cs, fuel + 1, h => by
    have ih := readChars_flatMap hunit rest cs fuel (by simpa using h)
    rw [List.flatMap_cons, List.append_assoc]
    simp [readChars, readChar?_escapeChar hunit, ih]

/-- The characters of a quoted text are read with its length as fuel. -/
theorem readChars_quoted {unit : Reader Char} (hunit : ReadsControls unit) (s : String)
    (rest : List Char) :
    readChars unit (quoted s ++ rest).length (quoted s ++ rest) = .ok (s.toList, rest) := by
  have hfuel : s.toList.length < (quoted s ++ rest).length := by
    have h := length_le_flatMap_escapeChar s.toList
    simp only [quoted, List.length_append, List.length_singleton]
    omega
  have happ : quoted s ++ rest = s.toList.flatMap escapeChar ++ '"' :: rest := by simp [quoted]
  rw [happ] at hfuel ⊢
  exact readChars_flatMap hunit rest s.toList _ hfuel

/-- A text is read back after its opening quote. -/
theorem readText_quoted (s : String) (rest : List Char) :
    readText (quoted s ++ rest) = .ok (s, rest) := by
  rw [readText, readChars_quoted readsControls_readUnit]
  simp

/-- A text is passed over after its opening quote. -/
theorem skipText_quoted (s : String) (rest : List Char) :
    skipText (quoted s ++ rest) = .ok rest := by
  rw [skipText, readChars_quoted readsControls_skipUnit]
  simp

end FlatChart.Reader
