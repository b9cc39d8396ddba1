import FlatChart.Json.Value
import FlatChart.Quotation

/-!
# Functions attached to a chart

Callbacks, guards, reducers and services are opaque functions with an optional label. Two of them
are the same when they have the same identity, whatever they compute and whatever they are called;
documents and messages show the label, or the name of the kind when there is none.
-/

namespace FlatChart

/-- A side effect. Calling it with a context is an event of its own, which a run records. -/
structure Callback where
  /-- The identity. -/
  id : Nat
  /-- The label that was given. -/
  label? : Option String

/-- A test on the context. -/
structure Guard where
  /-- The identity. -/
  id : Nat
  /-- The label that was given. -/
  label? : Option String
  /-- Whether the context passes. -/
  check : Json → Bool

/-- A function from the context to an update of it. -/
structure Reducer where
  /-- The identity. -/
  id : Nat
  /-- The label that was given. -/
  label? : Option String
  /-- The update for a context. -/
  reduce : Json → Json

/-- A task that is given the context and succeeds or fails with a value. -/
structure Service where
  /-- The identity. -/
  id : Nat
  /-- The label that was given. -/
  label? : Option String
  /-- The outcome for a context. -/
  run : Json → Except Json Json

/-- The label that is shown, `callback` without one. -/
def Callback.label (f : Callback) : String := f.label?.getD "callback"

/-- The label that is shown, `guard` without one. -/
def Guard.label (f : Guard) : String := f.label?.getD "guard"

/-- The label that is shown, `reducer` without one. -/
def Reducer.label (f : Reducer) : String := f.label?.getD "reducer"

/-- The label that is shown, `service` without one. -/
def Service.label (f : Service) : String := f.label?.getD "service"

instance : BEq Callback := ⟨fun f g => f.id == g.id⟩
instance : BEq Guard := ⟨fun f g => f.id == g.id⟩
instance : BEq Reducer := ⟨fun f g => f.id == g.id⟩
instance : BEq Service := ⟨fun f g => f.id == g.id⟩

/-- The context after a reducer: an object update is put into an object context, any other update
replaces the context. -/
def Reducer.apply (f : Reducer) (context : Json) : Json := context.update (f.reduce context)

/-- An entry in the list of actions of a transition. -/
inductive Action where
  /-- Call a callback. -/
  | effect (callback : Callback)
  /-- Change the context by a reducer. -/
  | assign (reducer : Reducer)
  deriving BEq

/-- Whether the action changes the context. -/
def Action.isAssign : Action → Bool
  | .effect _ => false
  | .assign _ => true

/-- The label of the function inside an action. -/
def Action.label : Action → String
  | .effect f => f.label
  | .assign f => f.label

/-! ## Descriptions in messages -/

/-- The kind of a function around its label. -/
def describe (kind label : String) : String := kind ++ "(" ++ quotation label ++ ")"

/-- The description of a callback. -/
def Callback.description (f : Callback) : String := describe "Callback" f.label

/-- The description of a guard. -/
def Guard.description (f : Guard) : String := describe "Guard" f.label

/-- The description of a reducer. -/
def Reducer.description (f : Reducer) : String := describe "Reducer" f.label

/-- The description of a service. -/
def Service.description (f : Service) : String := describe "Service" f.label

/-- The description of an action. -/
def Action.description : Action → String
  | .effect f => "Effect(" ++ f.description ++ ")"
  | .assign f => "Assign(" ++ f.description ++ ")"

end FlatChart
