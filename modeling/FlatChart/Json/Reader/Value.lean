import FlatChart.Json.Document
import FlatChart.Json.Reader.Lexical

/-!
# Reading values

`readItems` and `readMembers` are the loops over arrays and objects, for any reader of one item or
member. A value is either read (`readDocument`: its brackets count against a limit, its numbers must
be finite, its texts must be made of characters) or passed over (`skipValue`: only its form is
checked, to any depth).
-/

namespace FlatChart.Reader

/-! ## Arrays and objects -/

/-- What follows inside brackets. -/
inductive Next where
  /-- The closing bracket, with the characters after it. -/
  | closed (rest : List Char)
  /-- An entry, with the characters from it on. -/
  | entry (text : List Char)

/-- What follows an opening bracket or an entry. A comma stands between entries and nowhere
else. -/
def readNext (close : Char) (first : Bool) (text : List Char) : Except ReadError Next :=
  match skipBlank text with
  | [] => .error .truncated
  | c :: rest =>
    if c = close then .ok (.closed rest)
    else if first then .ok (.entry (c :: rest))
    else if c = ',' then
      match skipBlank rest with
      | [] => .error .truncated
      | d :: rest => if d = close then .error .malformed else .ok (.entry (d :: rest))
    else .error .malformed

/-- The items of an array after its opening bracket. Every item takes some of the text, so its
length is fuel enough. -/
def readItems {α : Type} (item : Reader α) : (fuel : Nat) → (first : Bool) → Reader (List α)
  | 0, _, _ => .error .truncated
  | fuel + 1, first, text => do
    match ← readNext ']' first text with
    | .closed rest => .ok ([], rest)
    | .entry text =>
      let (x, rest) ← item text
      let (xs, rest) ← readItems item fuel false rest
      .ok (x :: xs, rest)

/-- The members of an object after its opening bracket: each name is read as a text by `name`, and
`member` goes on from there with what the members before gave. -/
def readMembers {κ σ : Type} (name : Reader κ) (member : σ → κ → Reader σ) :
    (fuel : Nat) → (first : Bool) → σ → Reader σ
  | 0, _, _, _ => .error .truncated
  | fuel + 1, first, s, text => do
    match ← readNext '\x7d' first text with
    | .closed rest => .ok (s, rest)
    | .entry ('"' :: text) =>
      let (k, rest) ← name text
      let (s, rest) ← member s k rest
      readMembers name member fuel false s rest
    | .entry _ => .error .malformed

/-! ## Values -/

/-- The deepest that brackets may nest in a document. -/
def maxDepth : Nat := 127

/-- The members read so far with one more, of this name, whose value is read by `value`. -/
def readNamed (value : Reader Document) (members : List (String × Document)) (k : String) :
    Reader (List (String × Document)) := fun text => do
  let text ← readColon text
  let (d, rest) ← value text
  .ok ((k, d) :: members, rest)

/-- A document in which brackets nest at most `depth` deep. -/
def readDocument : (depth : Nat) → Reader Document
  | depth, text =>
    match skipBlank text with
    | [] => .error .truncated
    | 'n' :: rest => do
      let rest ← readWord ['u', 'l', 'l'] rest
      .ok (.null, rest)
    | 't' :: rest => do
      let rest ← readWord ['r', 'u', 'e'] rest
      .ok (.bool true, rest)
    | 'f' :: rest => do
      let rest ← readWord ['a', 'l', 's', 'e'] rest
      .ok (.bool false, rest)
    | '"' :: rest => do
      let (s, rest) ← readText rest
      .ok (.str s, rest)
    | '[' :: rest =>
      match depth with
      | 0 => .error .malformed
      | depth + 1 => do
        let (items, rest) ← readItems (readDocument depth) rest.length true rest
        .ok (.arr items, rest)
    | '\x7b' :: rest =>
      match depth with
      | 0 => .error .malformed
      | depth + 1 => do
        let member := readNamed (readDocument depth)
        let (members, rest) ← readMembers readText member rest.length true [] rest
        .ok (.obj members.reverse, rest)
    | c :: rest =>
      if c = '-' ∨ c.isDigit then do
        let (n, rest) ← readNumber (c :: rest)
        .ok (.num n, rest)
      else .error .malformed

/-- The remaining characters after a value that is passed over, brackets nesting at most `depth`
deep. -/
def skipNested : (depth : Nat) → List Char → Except ReadError (List Char)
  | depth, text =>
    match skipBlank text with
    | [] => .error .truncated
    | 'n' :: rest => readWord ['u', 'l', 'l'] rest
    | 't' :: rest => readWord ['r', 'u', 'e'] rest
    | 'f' :: rest => readWord ['a', 'l', 's', 'e'] rest
    | '"' :: rest => skipText rest
    | '[' :: rest =>
      match depth with
      | 0 => .error .malformed
      | depth + 1 => do
        let item : Reader Unit := fun text => do
          let rest ← skipNested depth text
          .ok ((), rest)
        let (_, rest) ← readItems item rest.length true rest
        .ok rest
    | '\x7b' :: rest =>
      match depth with
      | 0 => .error .malformed
      | depth + 1 => do
        let member (_ _ : Unit) : Reader Unit := fun text => do
          let text ← readColon text
          let rest ← skipNested depth text
          .ok ((), rest)
        let name : Reader Unit := fun text => do
          let rest ← skipText text
          .ok ((), rest)
        let (_, rest) ← readMembers name member rest.length true () rest
        .ok rest
    | c :: rest => if c = '-' ∨ c.isDigit then skipNumber (c :: rest) else .error .malformed

/-- The remaining characters after a value that is passed over, however deep: no brackets nest
deeper than the text is long. -/
def skipValue (text : List Char) : Except ReadError (List Char) := skipNested text.length text

/-- The data of a document in which brackets nest at most `depth` deep. -/
def readData (depth : Nat) : Reader Json := fun text => do
  let (d, rest) ← readDocument depth text
  .ok (d.value, rest)

end FlatChart.Reader
