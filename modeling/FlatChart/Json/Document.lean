import FlatChart.Json.Value

/-!
# Documents and their compact text

`Document` is the form in which data is written: an object is a list of members, in the order in
which they stand and with any repetitions. `compact` writes a document without blanks, `value` reads
off its data, where the last member of a name counts, and `Json.document` is the document of a
value, members in order of their names.
-/

namespace FlatChart

/-- A document as it is written. -/
inductive Document where
  | null
  | bool (value : Bool)
  | num (value : Number)
  | str (value : String)
  | arr (items : List Document)
  | obj (members : List (String × Document))

/-! ## Text -/

/-- A character inside a quoted text: `"`, `\` and control characters are escaped, all others stand
for themselves. -/
def escapeChar (c : Char) : List Char :=
  match c with
  | '"' => ['\\', '"']
  | '\\' => ['\\', '\\']
  | '\x08' => ['\\', 'b']
  | '\x0c' => ['\\', 'f']
  | '\n' => ['\\', 'n']
  | '\r' => ['\\', 'r']
  | '\t' => ['\\', 't']
  | c =>
    if c.toNat < 0x20 then
      ['\\', 'u', '0', '0', Nat.digitChar (c.toNat / 16), Nat.digitChar (c.toNat % 16)]
    else [c]

/-- A text in quotes. -/
def quote (s : String) : List Char := '"' :: s.toList.flatMap escapeChar ++ ['"']

namespace Document

instance : Inhabited Document := ⟨.null⟩

mutual
/-- The characters of a document without blanks. -/
def compact : Document → List Char
  | .null => ['n', 'u', 'l', 'l']
  | .bool true => ['t', 'r', 'u', 'e']
  | .bool false => ['f', 'a', 'l', 's', 'e']
  | .num n => n.literal.chars
  | .str s => quote s
  | .arr items => '[' :: compactItems items ++ [']']
  | .obj members => '{' :: compactMembers members ++ ['}']

/-- The items of an array, a comma between any two. -/
def compactItems : List Document → List Char
  | [] => []
  | [d] => d.compact
  | d :: e :: rest => d.compact ++ ',' :: compactItems (e :: rest)

/-- The members of an object, a comma between any two. -/
def compactMembers : List (String × Document) → List Char
  | [] => []
  | [(k, d)] => quote k ++ ':' :: d.compact
  | (k, d) :: e :: rest => quote k ++ ':' :: d.compact ++ ',' :: compactMembers (e :: rest)
end

/-- The text of a document without blanks. -/
def text (d : Document) : String := String.ofList d.compact

/-! ## Value -/

mutual
/-- The data of a document; of several members with one name the last one counts. -/
def value : Document → Json
  | .null => .null
  | .bool b => .bool b
  | .num n => .num n
  | .str s => .str s
  | .arr items => .arr (valueItems items)
  | .obj members => .obj (.ofList (valueMembers members))

/-- The data of the items of an array. -/
def valueItems : List Document → List Json
  | [] => []
  | d :: rest => d.value :: valueItems rest

/-- The data of the members of an object. -/
def valueMembers : List (String × Document) → List (String × Json)
  | [] => []
  | (k, d) :: rest => (k, d.value) :: valueMembers rest
end

end Document

namespace Json

mutual
/-- The document of a value, members in order of their names. -/
def document : Json → Document
  | .null => .null
  | .bool b => .bool b
  | .num n => .num n
  | .str s => .str s
  | .arr items => .arr (documentItems items)
  | .obj ⟨keys, _, value⟩ => .obj (keys.zip (List.ofFn fun i => (value i).document))

/-- The documents of a list of values. -/
def documentItems : List Json → List Document
  | [] => []
  | v :: rest => v.document :: documentItems rest
end

/-- The compact text of a value. -/
def text (v : Json) : String := v.document.text

end Json

end FlatChart
