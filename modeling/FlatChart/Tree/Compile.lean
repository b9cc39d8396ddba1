import FlatChart.Tree.Node

/-!
# From trees to charts

Compiling a tree never fails: nodes that mean nothing where they stand are passed over. States are
the `State` and `Final` children of the root that have an `id`, transitions the `Transition`
children of a `State` that have an `event`; of several with one name the last one counts.
-/

namespace FlatChart

namespace Node

/-- What a transition does: its callback, then its reducer. -/
def actions (n : Node) : List Action :=
  (((n.attribute? "action").bind Attribute.callback?).map Action.effect).toList ++
    (((n.attribute? "assign").bind Attribute.reducer?).map Action.assign).toList

/-- The data attributes under names that are not reserved. -/
def extra (n : Node) : SortedMap Json :=
  n.attributes.filterMap fun key a => if Transition.isReserved key then none else a.data?

/-- The transition that a node declares. -/
def transition (n : Node) : Transition where
  target := n.text? "target"
  actions := n.actions
  cond := (n.attribute? "cond").bind Attribute.guard?
  extra := n.extra

/-- The transitions that the children of a node declare, by event. -/
def transitions (n : Node) : SortedMap Transition :=
  .ofList <| n.children.filterMap fun child =>
    if child.tag = .transition then
      (child.text? "event").map fun event => (event, child.transition)
    else none

/-- The state that a node declares. A final state has no transitions, and a state without children
has none either. -/
def state (n : Node) : State :=
  match n.tag with
  | .final => { final := true }
  | _ => if n.hasChildren then { on := some n.transitions } else {}

/-- The children that declare a state, with its name. -/
def declarations (n : Node) : List (String × Node) :=
  n.children.filterMap fun child =>
    if child.tag.isStateLike then (child.text? "id").map fun id => (id, child) else none

/-- The name of the first declaration marked `initial`, else of the first one, else empty. -/
def initialState (declarations : List (String × Node)) : String :=
  match declarations.find? fun d => d.2.isTruthy "initial" with
  | some (id, _) => id
  | none => (declarations.head?.map Prod.fst).getD ""

/-- The chart that the children of a node declare. -/
def compile (root : Node) (context : Option Json) : Chart where
  initial := initialState root.declarations
  context := context
  states := .ofList (root.declarations.map fun d => (d.1, d.2.state))

end Node

/-- The chart of an authored tree. -/
def Element.compile (tree : Element) (context : Option Json) : Chart :=
  tree.normalize.compile context

end FlatChart
