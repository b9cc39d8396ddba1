import FlatChart.Quotation.Glyph

/-!
# Texts quoted in messages

How a text is shown inside a message: in double quotes, with quotes, backslashes and characters
without a glyph of their own escaped, so that its ends and all its characters are visible.
-/

namespace FlatChart

/-- A character inside a quotation. -/
def quotationChar (c : Char) : List Char :=
  match c with
  | '"' => ['\\', '"']
  | '\\' => ['\\', '\\']
  | '\n' => ['\\', 'n']
  | '\r' => ['\\', 'r']
  | '\t' => ['\\', 't']
  | '\x00' => ['\\', '0']
  | c =>
    if hasGlyph c then [c] else ['\\', 'u', '\x7b'] ++ Nat.toDigits 16 c.toNat ++ ['\x7d']

/-- A text in quotes, as messages show it. -/
def quotation (s : String) : String :=
  String.ofList ('"' :: s.toList.flatMap quotationChar ++ ['"'])

end FlatChart
