import FlatChart.Json.Reader.Value

/-!
# Reading what is expected

Readers for places where only some values may stand. `readUnexpected` is the error for all others,
and `readOptional`, `readMap` and `readOnce` build the reader of a structure from those of its
parts.
-/

namespace FlatChart.Reader

/-- What stands at a place where something else is expected. Words, numbers and texts are read in
full, so a fault inside them comes first; brackets are not entered. -/
def readFound (text : List Char) : Except ReadError Found :=
  match skipBlank text with
  | [] => .error .truncated
  | 'n' :: rest => do
    let _ ← readWord ['u', 'l', 'l'] rest
    .ok .null
  | 't' :: rest => do
    let _ ← readWord ['r', 'u', 'e'] rest
    .ok (.boolean true)
  | 'f' :: rest => do
    let _ ← readWord ['a', 'l', 's', 'e'] rest
    .ok (.boolean false)
  | '"' :: rest => do
    let (s, _) ← readText rest
    .ok (.string s)
  | '[' :: _ => .ok .sequence
  | '\x7b' :: _ => .ok .map
  | c :: rest =>
    if c = '-' ∨ c.isDigit then do
      let (n, _) ← readNumber (c :: rest)
      .ok (.number n)
    else .error .malformed

/-- The error where something stands in place of what is expected. -/
def readUnexpected {α : Type} (expected : String) (text : List Char) : Except ReadError α := do
  let found ← readFound text
  .error (.mismatch (.invalidType found expected))

/-- A text, where nothing else may stand. -/
def readString : Reader String := fun text =>
  match skipBlank text with
  | '"' :: rest => readText rest
  | text => readUnexpected "a string" text

/-- The name of a member, which only a quoted text can be. Where anything else stands the text is
malformed, even if it begins a value: it is not a value of the wrong kind, as names are none. -/
def readName : Reader String := fun text =>
  match skipBlank text with
  | [] => .error .truncated
  | '"' :: rest => readText rest
  | _ => .error .malformed

/-- What a reader gives, or nothing where `null` stands. -/
def readOptional {α : Type} (item : Reader α) : Reader (Option α) := fun text =>
  match skipBlank text with
  | 'n' :: rest => do
    let rest ← readWord ['u', 'l', 'l'] rest
    .ok (none, rest)
  | text => do
    let (x, rest) ← item text
    .ok (some x, rest)

/-- An object whose members are all read alike; the last member of a name counts. -/
def readMap {α : Type} (item : Reader α) : Reader (SortedMap α) := fun text =>
  match skipBlank text with
  | '\x7b' :: rest =>
    let member (m : SortedMap α) (k : String) : Reader (SortedMap α) := fun text => do
      let text ← readColon text
      let (x, rest) ← item text
      .ok (m.insert k x, rest)
    readMembers readText member rest.length true ∅ rest
  | text => readUnexpected "a map" text

/-- The value of a member that may stand once: `seen` is what was read under its name before. -/
def readOnce {α : Type} (name : String) (seen : Option α) (item : Reader α) :
    Reader (Option α) := fun text =>
  if seen.isSome then .error (.mismatch (.duplicateField name))
  else do
    let text ← readColon text
    let (x, rest) ← item text
    .ok (some x, rest)

/-- A value that is passed over. -/
def readSkipped : Reader Unit := fun text => do
  let rest ← skipValue text
  .ok ((), rest)

/-- The value of a member that is passed over. -/
def skipMember {σ : Type} (s : σ) : Reader σ := fun text => do
  let text ← readColon text
  let rest ← skipValue text
  .ok (s, rest)

/-- The rest after the closing bracket of an array that has no item left. -/
def readArrayEnd (text : List Char) : Except ReadError (List Char) :=
  match skipBlank text with
  | [] => .error .truncated
  | ']' :: rest => .ok rest
  | _ => .error .malformed

end FlatChart.Reader
