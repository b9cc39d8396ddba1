import FlatChart.Proofs.Number.Spelling

/-!
# Documents as they are laid out

A `Document` is what a text holds; a `Layout` is the text itself, with everything that is left to
whoever writes it: blanks between the parts, escapes in quoted texts that need none, halves of
surrogate pairs, and numbers of any size in any spelling. The layouts are just the well-formed
texts: `Layout.chars` follows the grammar of the format rule by rule, and no reader plays a part in
it. That the readers agree is a theorem (`Reader.skipValue_eq_ok_iff`).
-/

namespace FlatChart

/-! ## Blanks -/

/-- A character that may stand between the parts of a document. -/
inductive Blank where
  | space
  | newline
  | tab
  | carriage

/-- The character of a blank. -/
def Blank.char : Blank → Char
  | .space => ' '
  | .newline => '\n'
  | .tab => '\t'
  | .carriage => '\r'

/-- Any number of blanks. -/
abbrev Gap := List Blank

/-- The characters of a gap. -/
def Gap.chars (g : Gap) : List Char := g.map Blank.char

/-- Whether a character is a hexadecimal digit. -/
def IsHex (c : Char) : Prop := c.isDigit = true ∨ 'a' ≤ c ∧ c ≤ 'f' ∨ 'A' ≤ c ∧ c ≤ 'F'

/-! ## Texts and numbers -/

/-- One character of a quoted text, in one of the ways in which it may be written. -/
inductive Piece where
  /-- A character that stands for itself. -/
  | plain (c : Char) (free : c ≠ '"' ∧ c ≠ '\\' ∧ 0x20 ≤ c.toNat)
  /-- A character that is escaped by its name. -/
  | short (name : Char) (known : name ∈ ['"', '\\', '/', 'b', 'f', 'n', 'r', 't'])
  /-- A 16-bit unit that is escaped by its number, whatever it is a half of. -/
  | unit (a b c d : { c : Char // IsHex c })

/-- The characters of a piece. -/
def Piece.chars : Piece → List Char
  | .plain c _ => [c]
  | .short name _ => ['\\', name]
  | .unit a b c d => ['\\', 'u', a, b, c, d]

/-- The characters of a quoted text after its opening quote. -/
def closing (pieces : List Piece) : List Char := pieces.flatMap Piece.chars ++ ['"']

/-- A number as it is written. -/
structure Numeral where
  /-- Its parts. -/
  literal : Literal
  /-- There are digits wherever there must be, and a leading zero stands alone. -/
  wellFormed : literal.WellFormed
  /-- Whether the letter of the exponent is a capital. -/
  capital : Bool
  /-- Whether an exponent that is not negative has a sign. -/
  signed : Bool

namespace Numeral

/-- The characters of the exponent, if there is one. -/
def exponentChars (n : Numeral) : List Char :=
  match n.literal.exponent with
  | none => []
  | some (negative, digits) =>
    (if n.capital then 'E' else 'e') ::
      ((if negative then ['-'] else if n.signed then ['+'] else []) ++ digits)

/-- The characters of a written number. -/
def chars (n : Numeral) : List Char :=
  (if n.literal.negative then ['-'] else []) ++
    (n.literal.whole ++ (Literal.fractionChars n.literal.fraction ++ n.exponentChars))

end Numeral

/-! ## Layouts -/

/-- Entries between brackets, each after its two gaps, with a comma between the gaps of all entries
but the first one. -/
def spaced {ε : Type} (gaps : ε → Gap × Gap) (text : ε → List Char) :
    (first : Bool) → List ε → List Char
  | _, [] => []
  | first, e :: rest =>
    (gaps e).1.chars ++ ((if first then [] else [',']) ++ ((gaps e).2.chars ++
      (text e ++ spaced gaps text false rest)))

/-- What stands in front of the value of a member. -/
structure Label where
  /-- The blanks on either side of the comma before the member. -/
  gaps : Gap × Gap
  /-- The name. -/
  name : List Piece
  /-- The blanks before the colon. -/
  colon : Gap
  /-- The blanks after the colon. -/
  value : Gap

/-- Whether a text may be written without escapes. -/
def isUnescaped (s : String) : Bool :=
  s.toList.all fun c => decide (c ≠ '"' ∧ c ≠ '\\' ∧ 0x20 ≤ c.toNat)

/-- A text that is written without escapes. -/
def unescaped (s : String) (h : isUnescaped s = true) : List Piece :=
  s.toList.pmap Piece.plain fun c hc => of_decide_eq_true (List.all_eq_true.1 h c hc)

/-- A name that is written without escapes, and no blanks around it. -/
def Label.tight (s : String) (h : isUnescaped s = true) : Label :=
  ⟨([], []), unescaped s h, [], []⟩

/-- A document as it is laid out, from its first character to its last. -/
inductive Layout where
  | null
  | bool (value : Bool)
  | num (numeral : Numeral)
  | str (pieces : List Piece)
  /-- The items, each with the blanks on either side of the comma before it, and the blanks before
  the closing bracket. -/
  | arr (items : List ((Gap × Gap) × Layout)) (last : Gap)
  /-- The members, and the blanks before the closing bracket. -/
  | obj (members : List (Label × Layout)) (last : Gap)

namespace Layout

instance : Inhabited Layout := ⟨.null⟩

mutual
/-- The characters of a layout. -/
def chars : Layout → List Char
  | .null => ['n', 'u', 'l', 'l']
  | .bool true => ['t', 'r', 'u', 'e']
  | .bool false => ['f', 'a', 'l', 's', 'e']
  | .num n => n.chars
  | .str pieces => '"' :: closing pieces
  | .arr items last => '[' :: (itemsChars true items ++ (last.chars ++ [']']))
  | .obj members last => '\x7b' :: (membersChars true members ++ (last.chars ++ ['\x7d']))

/-- The characters of items. -/
def itemsChars : (first : Bool) → List ((Gap × Gap) × Layout) → List Char
  | _, [] => []
  | first, (gaps, w) :: rest =>
    gaps.1.chars ++ ((if first then [] else [',']) ++ (gaps.2.chars ++
      (w.chars ++ itemsChars false rest)))

/-- The characters of members. -/
def membersChars : (first : Bool) → List (Label × Layout) → List Char
  | _, [] => []
  | first, (l, w) :: rest =>
    l.gaps.1.chars ++ ((if first then [] else [',']) ++ (l.gaps.2.chars ++
      (('"' :: (closing l.name ++ (l.colon.chars ++ ':' :: (l.value.chars ++ w.chars)))) ++
        membersChars false rest)))
end

/-- The characters of a member, from the quote of its name on. -/
def memberChars (m : Label × Layout) : List Char :=
  '"' :: (closing m.1.name ++ (m.1.colon.chars ++ ':' :: (m.1.value.chars ++ m.2.chars)))

/-- Items are spaced entries. -/
theorem itemsChars_eq (first : Bool) (items : List ((Gap × Gap) × Layout)) :
    itemsChars first items = spaced Prod.fst (fun e => e.2.chars) first items := by
  induction items generalizing first with
  | nil => rfl
  | cons e rest ih =>
    rw [itemsChars, spaced, ih]

/-- Members are spaced entries. -/
theorem membersChars_eq (first : Bool) (members : List (Label × Layout)) :
    membersChars first members = spaced (fun m => m.1.gaps) memberChars first members := by
  induction members generalizing first with
  | nil => rfl
  | cons m rest ih =>
    rw [membersChars, spaced, ih]
    rfl

end Layout

end FlatChart
