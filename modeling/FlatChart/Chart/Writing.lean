import FlatChart.Chart.Basic
import FlatChart.Json.Document

/-!
# The written form of a chart

A chart as a document: members in a fixed order, absent and empty parts left out, functions by their
labels, and the data of a transition among its other members.
-/

namespace FlatChart

/-- A member that is written only when it is present. -/
def memberOf? (name : String) (d : Option Document) : List (String × Document) :=
  match d with
  | none => []
  | some d => [(name, d)]

/-- A member that is written only when the list is not empty. -/
def memberOfList (name : String) (items : List Document) : List (String × Document) :=
  if items.isEmpty then [] else [(name, .arr items)]

/-- The entries of a map as members. -/
def SortedMap.members {α : Type} (m : SortedMap α) (f : α → Document) : List (String × Document) :=
  m.toList.map fun e => (e.1, f e.2)

/-- A callback is written as its label, a reducer as an object that holds its label. -/
def Action.document : Action → Document
  | .effect f => .str f.label
  | .assign f => .obj [("type", .str "assign"), ("assignment", .str f.label)]

/-- Target, actions and guard of a transition, then its data without the reserved names. -/
def Transition.document (t : Transition) : Document :=
  .obj <|
    memberOf? "target" (t.target.map .str) ++
    memberOfList "actions" (t.actions.map Action.document) ++
    memberOf? "cond" (t.cond.map fun g => .str g.label) ++
    t.freeExtra.members Json.document

/-- The service and the handlers of an invoke block. -/
def Invoke.document (i : Invoke) : Document :=
  .obj <|
    [("src", .str i.src.label)] ++
    memberOf? "onDone" (i.onDone.map Transition.document) ++
    memberOf? "onError" (i.onError.map Transition.document)

/-- Kind, transitions, hooks and invoke block of a state. -/
def State.document (s : State) : Document :=
  .obj <|
    memberOf? "type" (if s.final then some (.str "final") else none) ++
    memberOf? "on" (s.on.map fun on => .obj (on.members Transition.document)) ++
    memberOfList "entry" (s.entry.map fun f => .str f.label) ++
    memberOfList "exit" (s.exit.map fun f => .str f.label) ++
    memberOf? "invoke" (s.invoke.map Invoke.document)

/-- Initial state, context and states of a chart. -/
def Chart.document (c : Chart) : Document :=
  .obj <|
    [("initial", .str c.initial)] ++
    memberOf? "context" (c.context.map Json.document) ++
    [("states", .obj (c.states.members State.document))]

/-- The compact text of a chart. -/
def Chart.text (c : Chart) : String := c.document.text

end FlatChart
