import FlatChart.Proofs.Json.Given
import FlatChart.Proofs.Json.Layout

/-!
# What stands where something is read

Where a word, a number or a text is read or passed over, it stands in the text, in one of the ways
in which it may be laid out, and what is left is what follows it. No two ways of reading differ in
this: a unit of a text that is read may take both halves of a pair, and one that is passed over only
takes itself, but both take units (`TakesUnit`).
-/

namespace FlatChart.Reader

/-! ## Blanks and words -/

/-- The blanks at the front of a text are a gap. -/
theorem exists_gap (text : List Char) : ∃ gap : Gap, text = gap.chars ++ skipBlank text := by
  induction text with
  | nil => exact ⟨[], rfl⟩
  | cons c text ih =>
    cases hc : isBlank c with
    | false => exact ⟨[], by simp [Gap.chars, skipBlank, hc]⟩
    | true =>
      obtain ⟨gap, hgap⟩ := ih
      obtain ⟨b, rfl⟩ : ∃ b : Blank, b.char = c := by
        simp only [isBlank, Bool.or_eq_true, beq_iff_eq, or_assoc] at hc
        rcases hc with rfl | rfl | rfl | rfl
        exacts [⟨.space, rfl⟩, ⟨.newline, rfl⟩, ⟨.tab, rfl⟩, ⟨.carriage, rfl⟩]
      refine ⟨b :: gap, ?_⟩
      have hskip : skipBlank (b.char :: text) = skipBlank text := by simp [skipBlank, hc]
      rw [hskip, Gap.chars, List.map_cons, List.cons_append, ← Gap.chars, ← hgap]

/-- A word stands at the front where it is read. -/
theorem of_readWord {word text rest : List Char} (h : readWord word text = .ok rest) :
    text = word ++ rest := by
  induction word generalizing text with
  | nil => exact Except.ok.inj h
  | cons w word ih =>
    cases text with
    | nil => cases h
    | cons c text =>
      rw [readWord] at h
      split at h
      · next hc => rw [hc, ih h, List.cons_append]
      · cases h

/-- A colon stands after the blanks where one is read. -/
theorem of_readColon {text rest : List Char} (h : readColon text = .ok rest) :
    ∃ gap : Gap, text = gap.chars ++ ':' :: rest := by
  obtain ⟨gap, hgap⟩ := exists_gap text
  rw [readColon] at h
  split at h
  · cases h
  · next hskip =>
    cases h
    exact ⟨gap, by rw [← hskip, ← hgap]⟩
  · cases h

/-! ## Numbers -/

/-- Digits stand where they are read. -/
theorem of_readDigits {atEnd : ReadError} {text ds rest : List Char}
    (h : readDigits atEnd text = .ok (ds, rest)) : IsDigits ds ∧ text = ds ++ rest := by
  cases text with
  | nil => cases h
  | cons c text =>
    rw [readDigits] at h
    split at h
    · next hc =>
      cases h
      refine ⟨⟨List.cons_ne_nil _ _, List.forall_mem_cons.2 ⟨hc, fun d hd => ?_⟩⟩, ?_⟩
      · exact List.mem_takeWhile_imp hd
      · rw [List.cons_append, List.takeWhile_append_dropWhile]
    · cases h

/-- The digits of a whole part stand where it is read, and a zero at their front stands alone. -/
theorem of_readWhole {atEnd : ReadError} {text ds rest : List Char}
    (h : readWhole atEnd text = .ok (ds, rest)) :
    IsDigits ds ∧ (ds.head? = some '0' → ds = ['0']) ∧ text = ds ++ rest := by
  rw [readWhole.eq_def] at h
  split at h
  · split at h
    · cases h
    · cases h
      exact ⟨⟨List.cons_ne_nil _ _, by simp⟩, fun _ => rfl, rfl⟩
  · next hzero =>
    obtain ⟨hds, rfl⟩ := of_readDigits h
    refine ⟨hds, fun hhead => ?_, rfl⟩
    -- A zero at the front is followed by nothing at all.
    cases ds with
    | nil => cases hhead
    | cons d ds =>
      obtain rfl : d = '0' := Option.some.inj hhead
      cases ds with
      | nil => rfl
      | cons d ds => exact (hzero d (ds ++ rest) rfl).elim

/-- A fraction stands where one is read. -/
theorem of_readFraction {atEnd : ReadError} {text rest : List Char} {f : Option (List Char)}
    (h : readFraction atEnd text = .ok (f, rest)) :
    (∀ digits ∈ f, IsDigits digits) ∧ text = Literal.fractionChars f ++ rest := by
  rw [readFraction.eq_def] at h
  split at h
  · obtain ⟨⟨digits, _⟩, hread, h⟩ := bind_eq_ok.1 h
    cases h
    obtain ⟨hdigits, rfl⟩ := of_readDigits hread
    exact ⟨fun _ hmem => Option.some.inj hmem ▸ hdigits, rfl⟩
  · cases h
    exact ⟨nofun, rfl⟩

/-- An exponent stands where one is read, in one of the ways in which it may be written. -/
theorem of_readExponent {atEnd : ReadError} {text rest : List Char} {e : Option (Bool × List Char)}
    (h : readExponent atEnd text = .ok (e, rest)) :
    (∀ p ∈ e, IsDigits p.2) ∧ ∃ capital signed, ∀ n : Numeral, n.literal.exponent = e →
      n.capital = capital → n.signed = signed → text = n.exponentChars ++ rest := by
  have habsent : ∀ n : Numeral, n.literal.exponent = none → n.exponentChars = [] := by
    intro n hn
    rw [Numeral.exponentChars, hn]
  cases text with
  | nil =>
    cases h
    exact ⟨nofun, false, false, fun n hn _ _ => by rw [habsent n hn]; rfl⟩
  | cons c text =>
    rw [readExponent.eq_def] at h
    dsimp only at h
    split at h
    · next hc =>
      -- The letter and the sign, as they stand in the text.
      have hletter : c = if decide (c = 'E') then 'E' else 'e' := by
        rcases hc with rfl | rfl <;> rfl
      obtain ⟨negative, signed, after, hsign, hafter⟩ :
          ∃ (negative signed : Bool) (after : List Char),
          text = (if negative then ['-'] else if signed then ['+'] else []) ++ after ∧
            (readDigits atEnd after >>= fun digits =>
              .ok (some (negative, digits.1), digits.2)) = Except.ok (e, rest) := by
        split at h
        · exact ⟨false, true, _, rfl, h⟩
        · exact ⟨true, true, _, rfl, h⟩
        · exact ⟨false, false, _, rfl, h⟩
      obtain ⟨⟨digits, _⟩, hread, heq⟩ := bind_eq_ok.1 hafter
      cases heq
      obtain ⟨hdigits, rfl⟩ := of_readDigits hread
      refine ⟨fun _ hmem => Option.some.inj hmem ▸ hdigits, decide (c = 'E'), signed,
        fun n hn hcapital hsigned => ?_⟩
      rw [Numeral.exponentChars, hn, hcapital, hsigned, hsign]
      simp only [← hletter, List.cons_append, List.append_assoc]
    · cases h
      exact ⟨nofun, false, false, fun n hn _ _ => by rw [habsent n hn]; rfl⟩

/-- A number stands where one is read. -/
theorem of_readLiteral {atEnd : ReadError} {text rest : List Char} {l : Literal}
    (h : readLiteral atEnd text = .ok (l, rest)) :
    ∃ n : Numeral, n.literal = l ∧ text = n.chars ++ rest := by
  obtain ⟨negative, after, hsign, hafter⟩ : ∃ (negative : Bool) (after : List Char),
      text = (if negative then ['-'] else []) ++ after ∧
        (readWhole atEnd after >>= fun whole => readFraction atEnd whole.2 >>= fun fraction =>
          readExponent atEnd fraction.2 >>= fun exponent =>
            .ok (⟨negative, whole.1, fraction.1, exponent.1⟩, exponent.2)) =
          Except.ok (l, rest) := by
    by_cases hminus : text.head? = some '-'
    · obtain ⟨after, rfl⟩ := List.head?_eq_some_iff.1 hminus
      exact ⟨true, after, rfl, h⟩
    · refine ⟨false, text, rfl, ?_⟩
      unfold readLiteral at h
      split at h
      next heq =>
        split at heq
        · exact absurd rfl hminus
        · cases heq
          exact h
  obtain ⟨⟨whole, _⟩, hwhole, hafter⟩ := bind_eq_ok.1 hafter
  obtain ⟨⟨fraction, _⟩, hfraction, hafter⟩ := bind_eq_ok.1 hafter
  obtain ⟨⟨exponent, _⟩, hexponent, heq⟩ := bind_eq_ok.1 hafter
  dsimp only at hfraction hexponent heq
  cases heq
  obtain ⟨hdigits, hlead, rfl⟩ := of_readWhole hwhole
  obtain ⟨hfrac, rfl⟩ := of_readFraction hfraction
  obtain ⟨hexp, capital, signed, hchars⟩ := of_readExponent hexponent
  have hwell : Literal.WellFormed ⟨negative, whole, fraction, exponent⟩ :=
    ⟨hdigits, hlead, hfrac, hexp⟩
  refine ⟨⟨_, hwell, capital, signed⟩, rfl, ?_⟩
  rw [hsign, hchars ⟨_, hwell, capital, signed⟩ rfl rfl rfl, Numeral.chars]
  simp only [List.append_assoc]

/-- A number stands where one with a value is read. -/
theorem of_readNumber {text rest : List Char} {v : Number} (h : readNumber text = .ok (v, rest)) :
    ∃ n : Numeral, text = n.chars ++ rest := by
  obtain ⟨⟨l, _⟩, hl, h⟩ := bind_eq_ok.1 h
  obtain ⟨n, -, hn⟩ := of_readLiteral hl
  cases hv : l.number? with
  | none =>
    simp only [hv] at h
    cases h
  | some v =>
    simp only [hv] at h
    cases h
    exact ⟨n, hn⟩

/-- A number stands where one is passed over. -/
theorem of_skipNumber {text rest : List Char} (h : skipNumber text = .ok rest) :
    ∃ n : Numeral, text = n.chars ++ rest := by
  obtain ⟨⟨l, _⟩, hl, h⟩ := bind_eq_ok.1 h
  cases h
  obtain ⟨n, -, hn⟩ := of_readLiteral hl
  exact ⟨n, hn⟩

/-! ## Texts -/

/-- A character with a hexadecimal value is a hexadecimal digit. -/
theorem isHex_of_hexValue? {c : Char} {v : ℕ} (h : hexValue? c = some v) : IsHex c := by
  unfold hexValue? at h
  split_ifs at h with hdigit hsmall hcapital
  · exact .inl hdigit
  · exact .inr (.inl hsmall)
  · exact .inr (.inr hcapital)

/-- Four hexadecimal digits stand where the number of a unit is read. -/
theorem of_readHex {text rest : List Char} {v : ℕ} (h : readHex text = .ok (v, rest)) :
    ∃ a b c d : { c : Char // IsHex c }, text = a.1 :: b.1 :: c.1 :: d.1 :: rest := by
  unfold readHex at h
  split at h
  · cases h
  · split at h
    · split at h
      · next ha hb hc hd =>
        cases h
        exact ⟨⟨_, isHex_of_hexValue? ha⟩, ⟨_, isHex_of_hexValue? hb⟩,
          ⟨_, isHex_of_hexValue? hc⟩, ⟨_, isHex_of_hexValue? hd⟩, rfl⟩
      · cases h
    · cases h

/-- The reader of a unit takes the digits of one, and maybe all of a second one. -/
def TakesUnit (unit : Reader Char) : Prop :=
  ∀ ⦃text c rest⦄, unit text = .ok (c, rest) →
    ∃ p pieces, '\\' :: 'u' :: text = Piece.chars p ++ (List.flatMap Piece.chars pieces ++ rest)

/-- A unit that is read takes one unit, or two that are the halves of a pair. -/
theorem takesUnit_readUnit : TakesUnit readUnit := by
  intro text char rest h
  obtain ⟨⟨first, left⟩, hfirst, hread⟩ := bind_eq_ok.1 h
  obtain ⟨a, b, c, d, rfl⟩ := of_readHex hfirst
  dsimp only at hread
  split_ifs at hread with htrailing hleading
  · obtain ⟨more, hmark, hread⟩ := bind_eq_ok.1 hread
    obtain ⟨⟨second, _⟩, hsecond, hread⟩ := bind_eq_ok.1 hread
    split_ifs at hread with hpair
    obtain ⟨-, rfl⟩ := Prod.mk.inj (Except.ok.inj hread)
    obtain ⟨a', b', c', d', rfl⟩ := of_readHex hsecond
    obtain rfl := of_readWord hmark
    exact ⟨.unit a b c d, [.unit a' b' c' d'], rfl⟩
  · cases hread
    exact ⟨.unit a b c d, [], rfl⟩

/-- A unit that is passed over is one unit. -/
theorem takesUnit_skipUnit : TakesUnit skipUnit := by
  intro text char rest h
  obtain ⟨⟨v, _⟩, hv, h⟩ := bind_eq_ok.1 h
  cases h
  obtain ⟨a, b, c, d, rfl⟩ := of_readHex hv
  exact ⟨.unit a b c d, [], rfl⟩

/-- The closing quote or pieces stand where a character is read. -/
theorem of_readChar? {unit : Reader Char} (hunit : TakesUnit unit) {text rest : List Char}
    {o : Option Char} (h : readChar? unit text = .ok (o, rest)) :
    (o = none ∧ text = '"' :: rest) ∨
      o ≠ none ∧ ∃ pieces, text = List.flatMap Piece.chars pieces ++ rest := by
  rw [readChar?.eq_def] at h
  split at h
  · cases h
  · cases h
    exact .inl ⟨rfl, rfl⟩
  · obtain ⟨⟨c, _⟩, hescape, h⟩ := bind_eq_ok.1 h
    cases h
    refine .inr ⟨nofun, ?_⟩
    rw [readEscape.eq_def] at hescape
    split at hescape
    · cases hescape
    iterate 8
      · cases hescape
        exact ⟨[.short _ (by decide)], rfl⟩
    · obtain ⟨p, pieces, hp⟩ := hunit hescape
      exact ⟨p :: pieces, by rw [hp, List.flatMap_cons, List.append_assoc]⟩
    · cases hescape
  · next c text hquote hslash =>
    split_ifs at h with hcontrol
    cases h
    exact .inr ⟨nofun, [.plain c ⟨hquote, hslash, by omega⟩], by simp [Piece.chars]⟩

/-- Pieces up to a closing quote stand where characters are read. -/
theorem of_readChars {unit : Reader Char} (hunit : TakesUnit unit) (fuel : ℕ) :
    ∀ {text cs rest}, readChars unit fuel text = .ok (cs, rest) →
      ∃ pieces, text = closing pieces ++ rest := by
  induction fuel with
  | zero => exact fun h => nomatch h
  | succ fuel ih =>
    intro text cs rest h
    rw [readChars] at h
    obtain ⟨⟨o, after⟩, hchar, h⟩ := bind_eq_ok.1 h
    rcases of_readChar? hunit hchar with ⟨rfl, rfl⟩ | ⟨hsome, pieces, rfl⟩
    · cases h
      exact ⟨[], rfl⟩
    · obtain ⟨c, rfl⟩ := Option.ne_none_iff_exists'.1 hsome
      obtain ⟨⟨cs, _⟩, hcs, h⟩ := bind_eq_ok.1 h
      cases h
      obtain ⟨more, rfl⟩ := ih hcs
      exact ⟨pieces ++ more, by simp [closing]⟩

/-- A quoted text stands where one is read. -/
theorem of_readText {text rest : List Char} {s : String} (h : readText text = .ok (s, rest)) :
    ∃ pieces, text = closing pieces ++ rest := by
  obtain ⟨⟨cs, _⟩, hcs, h⟩ := bind_eq_ok.1 h
  cases h
  exact of_readChars takesUnit_readUnit _ hcs

/-- A quoted text stands where one is passed over. -/
theorem of_skipText {text rest : List Char} (h : skipText text = .ok rest) :
    ∃ pieces, text = closing pieces ++ rest := by
  obtain ⟨⟨cs, _⟩, hcs, h⟩ := bind_eq_ok.1 h
  cases h
  exact of_readChars takesUnit_skipUnit _ hcs

end FlatChart.Reader
