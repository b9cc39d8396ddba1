import FlatChart.Number.Literal
import FlatChart.SortedMap

/-!
# Data

`Json` is the value type of everything that a chart carries as data: contexts, updates, results of
services and pass-through attributes. Objects are sorted maps, so a value has one form.
-/

namespace FlatChart

/-- A data value. -/
inductive Json where
  | null
  | bool (value : Bool)
  | num (value : Number)
  | str (value : String)
  | arr (items : List Json)
  | obj (members : SortedMap Json)

namespace Json

instance : Inhabited Json := ⟨.null⟩

mutual
/-- Whether two values are equal, numbers compared as numbers. -/
def beq : Json → Json → Bool
  | .null, .null => true
  | .bool a, .bool b => a == b
  | .num a, .num b => a == b
  | .str a, .str b => a == b
  | .arr a, .arr b => beqItems a b
  | .obj ⟨keys, _, value⟩, .obj m => m.agrees keys fun i v => (value i).beq v
  | _, _ => false

/-- Whether two lists have equal values at every position. -/
def beqItems : List Json → List Json → Bool
  | [], [] => true
  | a :: as, b :: bs => a.beq b && beqItems as bs
  | _, _ => false
end

instance : BEq Json := ⟨beq⟩

/-- The member of an object under a name; `null` for a missing name and for a value that is no
object. -/
def member (v : Json) (name : String) : Json :=
  match v with
  | .obj members => (members.get? name).getD .null
  | _ => .null

/-- The value of an integer that fits 64 bits with a sign. -/
def toInt64? : Json → Option Int
  | .num n => n.toInt64?
  | _ => none

/-- The object with the given members; of several with one name the last one counts. -/
def object (members : List (String × Json)) : Json := .obj (.ofList members)

/-- The value with an update applied: the members of an object are put into an object, and any
other update takes the value's place. -/
def update : Json → Json → Json
  | .obj current, .obj changes => .obj (current.merge changes)
  | _, changes => changes

end Json

end FlatChart
