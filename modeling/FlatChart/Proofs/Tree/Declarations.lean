import FlatChart.Proofs.Tree.Compile

/-!
# Which declaration counts

Of several elements that declare a state of one name the last one counts, and of several among its
children that declare a transition on one event the last one. `Element.declaration?` is the element
that counts for a state and an event, and it declares the transition that the tree compiles to
(`Element.transition?_compile`). Where a chart starts depends on all declarations of states, but
only on their names and on which of them are marked (`Element.initial_congr`).
-/

namespace FlatChart

/-! ## Attributes of a node -/

namespace Attribute

/-- The text of an attribute stays when it becomes an attribute of a node. -/
@[simp] theorem text?_normalize (a : Attribute Element) : a.normalize.text? = a.text? := by
  cases a with
  | data v => rcases v with _ | (_ | _) | _ | _ | _ | _ <;> rfl
  | _ => rfl

/-- Whether an attribute is set stays. -/
@[simp] theorem isTruthy_normalize (a : Attribute Element) :
    a.normalize.isTruthy = a.isTruthy := by
  cases a with
  | data v => cases v <;> rfl
  | _ => rfl

/-- The data of an attribute stays. -/
@[simp] theorem data?_normalize (a : Attribute Element) : a.normalize.data? = a.data? := by
  cases a <;> rfl

/-- The callback of an attribute stays. -/
@[simp] theorem callback?_normalize (a : Attribute Element) :
    a.normalize.callback? = a.callback? := by
  cases a <;> rfl

/-- The reducer of an attribute stays. -/
@[simp] theorem reducer?_normalize (a : Attribute Element) :
    a.normalize.reducer? = a.reducer? := by
  cases a <;> rfl

/-- The guard of an attribute stays. -/
@[simp] theorem guard?_normalize (a : Attribute Element) : a.normalize.guard? = a.guard? := by
  cases a <;> rfl

end Attribute

/-! ## Declarations -/

namespace Node

/-- The event of the transition that the node declares among the children of a state. -/
def eventName? (m : Node) : Option String := if m.tag = .transition then m.text? "event" else none

/-- A node declares a transition on an event when it is a transition with that event. -/
theorem eventName?_eq_some_iff {m : Node} {event : String} :
    m.eventName? = some event ↔ m.tag = .transition ∧ m.text? "event" = some event := by
  simp [eventName?]

/-- The transitions of a state are those that its children declare. -/
theorem transitions_eq (n : Node) :
    n.transitions = .ofList (n.children.filterMap fun m =>
      m.eventName?.map fun event => (event, m.transition)) := by
  rw [transitions]
  congr 2
  funext m
  rw [eventName?]
  split <;> rfl

end Node

namespace Element

/-- The name of the state that the element declares among the children of another one. -/
def stateName? (e : Element) : Option String :=
  if e.normalize.tag.isStateLike then e.normalize.text? "id" else none

/-- The event of the transition that the element declares among the children of a state. -/
def eventName? (e : Element) : Option String :=
  if e.normalize.tag = .transition then e.normalize.text? "event" else none

/-- What an element says of where a machine starts: the name of the state that it declares, and
whether it is marked. -/
def mark? (e : Element) : Option (String × Bool) :=
  e.stateName?.map fun id => (id, e.normalize.isTruthy "initial")

/-- The last child that declares a state of a name. -/
def stateDeclaration? (tree : Element) (id : String) : Option Element :=
  tree.children.reverse.find? fun child => child.stateName? = some id

/-- The last child that declares a transition on an event. -/
def transitionDeclaration? (state : Element) (event : String) : Option Element :=
  state.children.reverse.find? fun child => child.eventName? = some event

/-- The last declaration of a transition on an event, among the children of the last declaration of
a state. -/
def declaration? (tree : Element) (id event : String) : Option Element :=
  (tree.stateDeclaration? id).bind (·.transitionDeclaration? event)

/-- The states that an element declares are those of its children that have a name. -/
theorem declarations_eq (e : Element) :
    e.declarations = e.children.filterMap fun child =>
      child.stateName?.map fun id => (id, child) := by
  rw [declarations]
  congr 1
  funext child
  rw [stateName?]
  split <;> rfl

/-- Where a chart starts depends on which states its tree declares and which of them are marked. -/
theorem initial_congr {tree tree' : Element}
    (h : tree'.children.filterMap mark? = tree.children.filterMap mark?)
    (context : Option Json) :
    (tree'.compile context).initial = (tree.compile context).initial := by
  have hmarks : ∀ e : Element,
      (e.normalize.declarations.map fun d => (d.1, d.2.isTruthy "initial")) =
        e.children.filterMap mark? := by
    intro e
    rw [declarations_normalize, declarations_eq, List.map_map, List.map_filterMap]
    refine List.filterMap_congr fun child _ => ?_
    rw [mark?]
    cases child.stateName? <;> rfl
  have hinitial : ∀ e : Element,
      (e.compile context).initial = Node.initialState e.normalize.declarations := fun _ => rfl
  rw [hinitial, hinitial, Node.initialState_congr]
  rw [hmarks, hmarks, h]

/-- The states of a compiled tree are those that its children declare. -/
theorem states_compile (tree : Element) (context : Option Json) :
    (tree.compile context).states =
      .ofList (tree.children.filterMap fun child =>
        child.stateName?.map fun id => (id, child.normalize.state)) := by
  have hstates : (tree.compile context).states =
      .ofList (tree.normalize.declarations.map fun d => (d.1, d.2.state)) := rfl
  rw [hstates, declarations_normalize, declarations_eq, List.map_map, List.map_filterMap]
  congr 2
  funext child
  cases child.stateName? <;> rfl

/-- The transitions of a state are those that its children declare. -/
theorem transitions_normalize (e : Element) :
    e.normalize.transitions =
      .ofList (e.children.filterMap fun child =>
        child.eventName?.map fun event => (event, child.normalize.transition)) := by
  rw [Node.transitions_eq, children_normalize, List.filterMap_map]
  rfl

/-- The state under a name is the one that its last declaration declares. -/
theorem state?_compile (tree : Element) (context : Option Json) (id : String) :
    (tree.compile context).state? id =
      (tree.stateDeclaration? id).map fun child => child.normalize.state := by
  rw [Chart.state?, states_compile, SortedMap.get?_ofList_filterMap]
  rfl

/-- The transition of a state on an event is the one that its last declaration declares. -/
theorem get?_transitions_normalize (e : Element) (event : String) :
    e.normalize.transitions.get? event =
      (e.transitionDeclaration? event).map fun child => child.normalize.transition := by
  rw [transitions_normalize, SortedMap.get?_ofList_filterMap]
  rfl

/-- The transition of a state and an event is the one of the declaration that counts. -/
theorem transition?_compile {tree : Element} {context : Option Json} {id event : String}
    {t : Transition} (ht : (tree.compile context).transition? id event = some t) :
    ∃ e, tree.declaration? id event = some e ∧ e.normalize.transition = t := by
  rw [Chart.transition?, state?_compile] at ht
  obtain ⟨_, hs, ht⟩ := Option.bind_eq_some_iff.1 ht
  obtain ⟨state, hstate, rfl⟩ := Option.map_eq_some_iff.1 hs
  obtain ⟨on, hon, ht⟩ := Option.bind_eq_some_iff.1 ht
  rw [Node.eq_transitions_of_on hon, get?_transitions_normalize] at ht
  obtain ⟨e, he, rfl⟩ := Option.map_eq_some_iff.1 ht
  refine ⟨e, ?_, rfl⟩
  rw [declaration?, hstate]
  exact he

end Element

end FlatChart
