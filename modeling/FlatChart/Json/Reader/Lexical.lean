import FlatChart.Number.Literal
import FlatChart.Json.ReadError

/-!
# Reading characters, numbers and texts

Readers take the characters that remain and return what they read with the characters after it. A
number or text is either read, when it must have a value, or passed over, when only its form is
checked.
-/

namespace FlatChart

/-- A reader takes the remaining characters and gives a result with the characters after it. -/
abbrev Reader (α : Type) := List Char → Except ReadError (α × List Char)

namespace Reader

/-! ## Characters -/

/-- Whether a character may stand between the parts of a document. -/
def isBlank (c : Char) : Bool := c == ' ' || c == '\n' || c == '\t' || c == '\r'

/-- The text from its first character that is not blank. -/
def skipBlank (text : List Char) : List Char := text.dropWhile isBlank

/-- The text after a word that must stand at its front. -/
def readWord : (word text : List Char) → Except ReadError (List Char)
  | [], text => .ok text
  | _ :: _, [] => .error .truncated
  | w :: word, c :: text => if c = w then readWord word text else .error .malformed

/-- The text after the colon between a name and its value. -/
def readColon (text : List Char) : Except ReadError (List Char) :=
  match skipBlank text with
  | [] => .error .truncated
  | ':' :: rest => .ok rest
  | _ => .error .malformed

/-- Nothing but blanks may follow the document. -/
def readEnd (text : List Char) : Except ReadError Unit :=
  match skipBlank text with
  | [] => .ok ()
  | _ => .error .malformed

/-! ## Numbers -/

/-- A run of at least one digit; `atEnd` is the error where the text ends before it. -/
def readDigits (atEnd : ReadError) : Reader (List Char)
  | [] => .error atEnd
  | c :: rest =>
    if c.isDigit then .ok (c :: rest.takeWhile Char.isDigit, rest.dropWhile Char.isDigit)
    else .error .malformed

/-- The digits before the point: a zero stands alone. -/
def readWhole (atEnd : ReadError) : Reader (List Char)
  | '0' :: c :: rest => if c.isDigit then .error .malformed else .ok (['0'], c :: rest)
  | text => readDigits atEnd text

/-- The digits after a point, if a point follows. -/
def readFraction (atEnd : ReadError) : Reader (Option (List Char))
  | '.' :: rest => do
    let (digits, rest) ← readDigits atEnd rest
    .ok (some digits, rest)
  | text => .ok (none, text)

/-- The sign and digits of an exponent, if one follows. -/
def readExponent (atEnd : ReadError) : Reader (Option (Bool × List Char))
  | c :: rest =>
    if c = 'e' ∨ c = 'E' then do
      let (negative, rest) :=
        match rest with
        | '+' :: rest => (false, rest)
        | '-' :: rest => (true, rest)
        | rest => (false, rest)
      let (digits, rest) ← readDigits atEnd rest
      .ok (some (negative, digits), rest)
    else .ok (none, c :: rest)
  | [] => .ok (none, [])

/-- The parts of a number. -/
def readLiteral (atEnd : ReadError) (text : List Char) :
    Except ReadError (Literal × List Char) := do
  let (negative, text) :=
    match text with
    | '-' :: rest => (true, rest)
    | text => (false, text)
  let (whole, text) ← readWhole atEnd text
  let (fraction, text) ← readFraction atEnd text
  let (exponent, text) ← readExponent atEnd text
  .ok (⟨negative, whole, fraction, exponent⟩, text)

/-- A number that has a finite value. -/
def readNumber : Reader Number := fun text => do
  let (l, rest) ← readLiteral .truncated text
  match l.number? with
  | some n => .ok (n, rest)
  | none => .error .malformed

/-- The text after a number of any value. -/
def skipNumber (text : List Char) : Except ReadError (List Char) := do
  let (_, rest) ← readLiteral .malformed text
  .ok rest

/-! ## Texts -/

/-- The value of a hexadecimal digit. -/
def hexValue? (c : Char) : Option Nat :=
  if c.isDigit then some (c.toNat - '0'.toNat)
  else if 'a' ≤ c ∧ c ≤ 'f' then some (c.toNat - 'a'.toNat + 10)
  else if 'A' ≤ c ∧ c ≤ 'F' then some (c.toNat - 'A'.toNat + 10)
  else none

/-- The number that four hexadecimal digits spell. Fewer than four bytes end the text too early,
whatever they are. -/
def readHex (text : List Char) : Except ReadError (Nat × List Char) :=
  if text.foldr (fun c bytes => c.utf8Size + bytes) 0 < 4 then .error .truncated
  else
    match text with
    | a :: b :: c :: d :: rest =>
      match hexValue? a, hexValue? b, hexValue? c, hexValue? d with
      | some a, some b, some c, some d => .ok (((a * 16 + b) * 16 + c) * 16 + d, rest)
      | _, _, _, _ => .error .malformed
    | _ => .error .malformed

/-- Whether a 16-bit unit is the first half of a surrogate pair. -/
def isLeading (unit : Nat) : Bool := 0xD800 ≤ unit && unit ≤ 0xDBFF

/-- Whether a 16-bit unit is the second half of a surrogate pair. -/
def isTrailing (unit : Nat) : Bool := 0xDC00 ≤ unit && unit ≤ 0xDFFF

/-- The character whose number follows an escape mark. A number of the first half of a pair needs a
second escape with the other half, and no half may stand alone. -/
def readUnit (text : List Char) : Except ReadError (Char × List Char) := do
  let (unit, rest) ← readHex text
  if isTrailing unit then .error .malformed
  else if isLeading unit then
    let rest ← readWord ['\\', 'u'] rest
    let (second, rest) ← readHex rest
    -- Each half carries ten bits of what the code point is above the first plane.
    if isTrailing second then
      .ok (Char.ofNat (0x10000 + (unit - 0xD800) * 0x400 + (second - 0xDC00)), rest)
    else .error .malformed
  else .ok (Char.ofNat unit, rest)

/-- The character that an escape after its backslash stands for; `unit` reads the one that is
written by its number. -/
def readEscape (unit : Reader Char) : Reader Char
  | [] => .error .truncated
  | '"' :: rest => .ok ('"', rest)
  | '\\' :: rest => .ok ('\\', rest)
  | '/' :: rest => .ok ('/', rest)
  | 'b' :: rest => .ok ('\x08', rest)
  | 'f' :: rest => .ok ('\x0c', rest)
  | 'n' :: rest => .ok ('\n', rest)
  | 'r' :: rest => .ok ('\r', rest)
  | 't' :: rest => .ok ('\t', rest)
  | 'u' :: rest => unit rest
  | _ => .error .malformed

/-- The next character of a quoted text, none at its closing quote. -/
def readChar? (unit : Reader Char) : Reader (Option Char)
  | [] => .error .truncated
  | '"' :: rest => .ok (none, rest)
  | '\\' :: rest => do
    let (c, rest) ← readEscape unit rest
    .ok (some c, rest)
  | c :: rest => if c.toNat < 0x20 then .error .malformed else .ok (some c, rest)

/-- The characters of a quoted text up to its closing quote. Every character takes some of the
text, so its length is fuel enough. -/
def readChars (unit : Reader Char) : (fuel : Nat) → Reader (List Char)
  | 0, _ => .error .truncated
  | fuel + 1, text => do
    match ← readChar? unit text with
    | (none, rest) => .ok ([], rest)
    | (some c, rest) =>
      let (cs, rest) ← readChars unit fuel rest
      .ok (c :: cs, rest)

/-- A text after its opening quote. -/
def readText (text : List Char) : Except ReadError (String × List Char) := do
  let (cs, rest) ← readChars readUnit text.length text
  .ok (String.ofList cs, rest)

/-- A character's number in a text that is passed over, where half of a pair may stand alone. -/
def skipUnit (text : List Char) : Except ReadError (Char × List Char) := do
  let (unit, rest) ← readHex text
  .ok (Char.ofNat unit, rest)

/-- The remaining characters after a text that is passed over, from its opening quote on. -/
def skipText (text : List Char) : Except ReadError (List Char) := do
  let (_, rest) ← readChars skipUnit text.length text
  .ok rest

end Reader

end FlatChart
