import FlatChart.Proofs.Json.Lexical

/-!
# Reading texts that someone else laid out

A quoted text may hold escapes that no written text holds: names for characters that need none, and
16-bit units, among them halves of surrogate pairs. Whether such a text is read, and as what,
depends on its pieces alone and never on what follows it (`readText_closing`). It is passed over
whatever its pieces are (`skipText_closing`).
-/

namespace FlatChart.Reader

/-! ## Units -/

/-- A hexadecimal digit has a value. -/
theorem exists_hexValue? {c : Char} (hc : IsHex c) : ∃ n, hexValue? c = some n := by
  unfold hexValue?
  rcases hc with hdigit | hsmall | hcapital
  · exact ⟨_, if_pos hdigit⟩
  · split_ifs <;> exact ⟨_, rfl⟩
  · split_ifs <;> exact ⟨_, rfl⟩

/-- Four hexadecimal digits spell a number, whatever follows them. -/
theorem exists_readHex (a b c d : { c : Char // IsHex c }) :
    ∃ n, ∀ rest, readHex (a :: b :: c :: d :: rest) = .ok (n, rest) := by
  obtain ⟨na, ha⟩ := exists_hexValue? a.2
  obtain ⟨nb, hb⟩ := exists_hexValue? b.2
  obtain ⟨nc, hc⟩ := exists_hexValue? c.2
  obtain ⟨nd, hd⟩ := exists_hexValue? d.2
  refine ⟨((na * 16 + nb) * 16 + nc) * 16 + nd, fun rest => ?_⟩
  have hsize : ∀ c : Char, 0 < c.utf8Size := Char.utf8Size_pos
  have h1 := hsize a
  have h2 := hsize b
  have h3 := hsize c
  have h4 := hsize d
  unfold readHex
  rw [if_neg (by simp only [List.foldr_cons]; omega)]
  simp only [ha, hb, hc, hd]

/-! ## Pieces -/

/-- The closing quote ends a text. -/
@[simp] theorem closing_nil : closing [] = ['"'] := rfl

/-- A piece stands in front of the others. -/
@[simp] theorem closing_cons (p : Piece) (pieces : List Piece) :
    closing (p :: pieces) = p.chars ++ closing pieces := by simp [closing]

/-- There is a closing quote after the pieces. -/
theorem length_lt_closing (pieces : List Piece) (rest : List Char) :
    pieces.length < (closing pieces ++ rest).length := by
  induction pieces with
  | nil => simp
  | cons p pieces ih =>
    have hp : 0 < p.chars.length := by cases p <;> simp [Piece.chars]
    simp only [closing_cons, List.append_assoc, List.length_append, List.length_cons] at ih ⊢
    omega

/-- A piece that is no unit is one character, whatever follows it. -/
theorem exists_readChar?_piece (unit : Reader Char) (p : Piece) :
    (∃ a b c d, p = .unit a b c d) ∨
      ∃ c, ∀ rest, readChar? unit (p.chars ++ rest) = .ok (some c, rest) := by
  cases p with
  | plain c free =>
    obtain ⟨hquote, hslash, hsize⟩ := free
    refine .inr ⟨c, fun rest => ?_⟩
    rw [Piece.chars, List.singleton_append, readChar?.eq_4 _ _ _ hquote hslash, if_neg (by omega)]
  | short name known =>
    simp only [List.mem_cons, List.not_mem_nil, or_false] at known
    rcases known with rfl | rfl | rfl | rfl | rfl | rfl | rfl | rfl <;>
      exact .inr ⟨_, fun rest => rfl⟩
  | unit a b c d => exact .inl ⟨a, b, c, d, rfl⟩

/-- Only another unit begins with the mark of one. -/
theorem exists_readWord_unit (pieces : List Piece) :
    (∃ a b c d more, pieces = .unit a b c d :: more) ∨
      ∀ rest, readWord ['\\', 'u'] (closing pieces ++ rest) = .error .malformed := by
  rcases pieces with _ | ⟨p, more⟩
  · exact .inr fun rest => rfl
  · cases p with
    | plain c free =>
      refine .inr fun rest => ?_
      simp [Piece.chars, readWord, free.2.1]
    | short name known =>
      refine .inr fun rest => ?_
      have hu : name ≠ 'u' := by
        rintro rfl
        exact absurd known (by decide)
      simp [Piece.chars, readWord, hu]
    | unit a b c d => exact .inl ⟨a, b, c, d, more, rfl⟩

/-- Whether a unit is read, and which character it is with its other half, depends on the pieces
alone. -/
theorem exists_readUnit_closing (a b c d : { c : Char // IsHex c }) (pieces : List Piece) :
    (∃ e, ∀ rest, readUnit (a :: b :: c :: d :: (closing pieces ++ rest)) = .error e) ∨
      ∃ char left, left.length ≤ pieces.length ∧ ∀ rest,
        readUnit (a :: b :: c :: d :: (closing pieces ++ rest)) =
          .ok (char, closing left ++ rest) := by
  obtain ⟨n, hn⟩ := exists_readHex a b c d
  by_cases htrailing : isTrailing n = true
  · exact .inl ⟨.malformed, fun rest => by simp [readUnit, hn, htrailing]⟩
  by_cases hleading : isLeading n = true
  · -- The other half must be the next piece.
    rcases exists_readWord_unit pieces with ⟨a', b', c', d', more, rfl⟩ | hword
    · obtain ⟨m, hm⟩ := exists_readHex a' b' c' d'
      have hmark : ∀ rest, readWord ['\\', 'u'] (closing (.unit a' b' c' d' :: more) ++ rest) =
          .ok (a' :: b' :: c' :: d' :: (closing more ++ rest)) := fun rest => by
        rw [closing_cons, List.append_assoc]
        rfl
      by_cases hpair : isTrailing m = true
      · refine .inr ⟨Char.ofNat (0x10000 + (n - 0xD800) * 0x400 + (m - 0xDC00)), more,
          Nat.le_succ _, fun rest => ?_⟩
        rw [readUnit, hn]
        simp only [ok_bind, hmark, hm, if_neg htrailing, if_pos hleading, if_pos hpair]
      · refine .inl ⟨.malformed, fun rest => ?_⟩
        rw [readUnit, hn]
        simp only [ok_bind, hmark, hm, if_neg htrailing, if_pos hleading, if_neg hpair]
    · refine .inl ⟨.malformed, fun rest => ?_⟩
      rw [readUnit, hn]
      simp only [ok_bind, error_bind, hword, if_neg htrailing, if_pos hleading]
  · exact .inr ⟨Char.ofNat n, pieces, Nat.le_refl _, fun rest => by
      simp [readUnit, hn, htrailing, hleading]⟩

/-- The first character of a text that is read depends on its pieces alone, and so does what is left
of them. -/
theorem exists_readChar?_closing (p : Piece) (pieces : List Piece) :
    (∃ e, ∀ rest, readChar? readUnit (closing (p :: pieces) ++ rest) = .error e) ∨
      ∃ c left, left.length ≤ pieces.length ∧ ∀ rest,
        readChar? readUnit (closing (p :: pieces) ++ rest) =
          .ok (some c, closing left ++ rest) := by
  rcases exists_readChar?_piece readUnit p with ⟨a, b, c, d, rfl⟩ | ⟨c, hc⟩
  · rcases exists_readUnit_closing a b c d pieces with ⟨e, he⟩ | ⟨char, left, hleft, hchar⟩
    · exact .inl ⟨e, fun rest => by simp [Piece.chars, readChar?, readEscape, he]⟩
    · exact .inr ⟨char, left, hleft, fun rest => by
        simp [Piece.chars, readChar?, readEscape, hchar]⟩
  · exact .inr ⟨c, pieces, Nat.le_refl _, fun rest => by simp [hc]⟩

/-- The first character of a text that is passed over is there whatever it is. -/
theorem exists_skipUnit_closing (p : Piece) (pieces : List Piece) :
    ∃ c, ∀ rest, readChar? skipUnit (closing (p :: pieces) ++ rest) =
      .ok (some c, closing pieces ++ rest) := by
  rcases exists_readChar?_piece skipUnit p with ⟨a, b, c, d, rfl⟩ | ⟨c, hc⟩
  · obtain ⟨n, hn⟩ := exists_readHex a b c d
    exact ⟨Char.ofNat n, fun rest => by simp [Piece.chars, readChar?, readEscape, skipUnit, hn]⟩
  · exact ⟨c, fun rest => by simp [hc]⟩

/-- The characters of a text that is read depend on its pieces alone. -/
theorem exists_readChars_closing (pieces : List Piece) :
    ∃ r, ∀ (rest : List Char) (fuel : ℕ), pieces.length < fuel →
      readChars readUnit fuel (closing pieces ++ rest) = leaving rest r := by
  -- By induction on the number of pieces, as two of them can be one character.
  induction hlength : pieces.length using Nat.strongRecOn generalizing pieces with
  | ind length ih =>
    subst hlength
    rcases pieces with _ | ⟨p, pieces⟩
    · refine ⟨.ok [], fun rest fuel hfuel => ?_⟩
      obtain ⟨fuel, rfl⟩ := Nat.exists_eq_add_of_lt hfuel
      rfl
    rcases exists_readChar?_closing p pieces with ⟨e, he⟩ | ⟨c, left, hleft, hc⟩
    · refine ⟨.error e, fun rest fuel hfuel => ?_⟩
      obtain ⟨fuel, rfl⟩ : ∃ n, fuel = n + 1 := ⟨fuel - 1, by omega⟩
      rw [readChars, he]
      rfl
    · have hshort : left.length < (p :: pieces).length := Nat.lt_succ_of_le hleft
      obtain ⟨r, hr⟩ := ih left.length hshort left rfl
      refine ⟨r.map (c :: ·), fun rest fuel hfuel => ?_⟩
      obtain ⟨fuel, rfl⟩ : ∃ n, fuel = n + 1 := ⟨fuel - 1, by omega⟩
      rw [readChars, hc]
      simp only [ok_bind]
      rw [hr rest fuel (by omega)]
      cases r <;> rfl

/-! ## Texts -/

/-- What a text is read as when nothing follows it. -/
def spelled (pieces : List Piece) : Except ReadError String :=
  (readText (closing pieces)).map Prod.fst

/-- A text is read as what its pieces spell, whatever follows it. -/
theorem readText_closing (pieces : List Piece) (rest : List Char) :
    readText (closing pieces ++ rest) = leaving rest (spelled pieces) := by
  obtain ⟨r, hr⟩ := exists_readChars_closing pieces
  have htext : ∀ rest, readText (closing pieces ++ rest) = leaving rest (r.map String.ofList) := by
    intro rest
    rw [readText, hr rest _ (length_lt_closing pieces rest)]
    cases r <;> rfl
  have hspelled : spelled pieces = r.map String.ofList := by
    have h := htext []
    rw [List.append_nil] at h
    rw [spelled, h]
    cases r <;> rfl
  rw [htext, hspelled]

/-- A text is passed over whatever its pieces are. -/
theorem skipText_closing (pieces : List Piece) (rest : List Char) :
    skipText (closing pieces ++ rest) = .ok rest := by
  have hchars : ∀ (pieces : List Piece) (fuel : ℕ), pieces.length < fuel →
      ∃ cs, readChars skipUnit fuel (closing pieces ++ rest) = .ok (cs, rest) := by
    intro pieces
    induction pieces with
    | nil =>
      intro fuel hfuel
      obtain ⟨fuel, rfl⟩ := Nat.exists_eq_add_of_lt hfuel
      exact ⟨[], rfl⟩
    | cons p pieces ih =>
      intro fuel hfuel
      obtain ⟨fuel, rfl⟩ : ∃ n, fuel = n + 1 := ⟨fuel - 1, by omega⟩
      obtain ⟨c, hc⟩ := exists_skipUnit_closing p pieces
      obtain ⟨cs, hcs⟩ := ih fuel (by simpa using hfuel)
      exact ⟨c :: cs, by rw [readChars, hc]; simp [hcs]⟩
  obtain ⟨cs, hcs⟩ := hchars pieces _ (length_lt_closing pieces rest)
  rw [skipText, hcs]
  rfl

end FlatChart.Reader
