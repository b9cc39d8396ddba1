import FlatChart.Number.Literal
import FlatChart.Quotation

/-!
# Why a document cannot be read

A document is read from its first character on, and the first problem met is the answer: the text
ends too early, it breaks the rules of the format, or it is well-formed and does not fit what is
expected at that place.
-/

namespace FlatChart

/-- What stands where something else was expected; arrays and objects are named without being
read. -/
inductive Found where
  | null
  | boolean (value : Bool)
  | number (value : Number)
  | string (value : String)
  | sequence
  | map
  deriving DecidableEq

/-- The wording for what was found. -/
def Found.description : Found → String
  | .null => "null"
  | .boolean value => "boolean `" ++ (if value then "true" else "false") ++ "`"
  | .number (.integer n fits) => "integer `" ++ (Number.integer n fits).text ++ "`"
  | .number (.float x) => "floating point `" ++ (Number.float x).text ++ "`"
  | .string value => "string " ++ quotation value
  | .sequence => "sequence"
  | .map => "map"

/-- How a well-formed document fails to fit what is expected. -/
inductive Mismatch where
  /-- An object ends without a member that it must have. -/
  | missingField (name : String)
  /-- An object has a member a second time. -/
  | duplicateField (name : String)
  /-- A value is of the wrong kind. -/
  | invalidType (found : Found) (expected : String)
  /-- A name is none of those that are known. -/
  | unknownVariant (name : String) (expected : String)
  /-- An array ends before its first required item. -/
  | invalidLength (length : Nat) (expected : String)
  deriving DecidableEq

/-- The wording of a mismatch. -/
def Mismatch.message : Mismatch → String
  | .missingField name => "missing field `" ++ name ++ "`"
  | .duplicateField name => "duplicate field `" ++ name ++ "`"
  | .invalidType found expected =>
    "invalid type: " ++ found.description ++ ", expected " ++ expected
  | .unknownVariant name expected =>
    "unknown variant `" ++ name ++ "`, expected `" ++ expected ++ "`"
  | .invalidLength length expected =>
    "invalid length " ++ toString length ++ ", expected " ++ expected

/-- Why reading stopped. -/
inductive ReadError where
  /-- The text ends inside the document. -/
  | truncated
  /-- The text breaks the rules of the format. -/
  | malformed
  /-- The document does not fit what is expected. -/
  | mismatch (cause : Mismatch)
  deriving DecidableEq

end FlatChart
