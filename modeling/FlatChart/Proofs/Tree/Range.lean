import FlatChart.Proofs.Chart.Pairs
import FlatChart.Proofs.Tree.Declarations

/-!
# What trees compile to

A chart is `Declarable` when each of its parts can be declared by one element. Every tree compiles
to such a chart (`Element.declarable_compile`), and every such chart is written out as a tree that
compiles to it (`Chart.tree`), so these are all the charts that trees compile to
(`Element.exists_compile_eq_iff`).
-/

namespace FlatChart

/-! ## What one element can declare -/

/-- The transition has at most one callback and then at most one reducer, and no data under a
reserved name. -/
structure Transition.Declarable (t : Transition) : Prop where
  /-- Which of the actions change the context. -/
  actions : t.actions.map Action.isAssign ∈ [[], [false], [true], [false, true]]
  /-- The data. -/
  extra : ∀ key ∈ reservedKeys, t.extra.get? key = none

/-- The state is a final one with nothing else, or has nothing but transitions, which may be absent.
-/
def State.Declarable (s : State) : Prop := s = { final := true } ∨ ∃ on, s = { on }

/-- The chart has an initial state, or no states and no name of an initial one, and all that it has
can be declared. -/
structure Chart.Declarable (c : Chart) : Prop where
  /-- The initial state. -/
  initial : (c.states = ∅ ∧ c.initial = "") ∨ c.states.contains c.initial = true
  /-- The states. -/
  states : ∀ id s, c.state? id = some s → s.Declarable
  /-- The transitions. -/
  transitions : ∀ id event t, c.transition? id event = some t → t.Declarable

/-! ## From a tree -/

namespace Node

/-- The transition of any node can be declared. -/
theorem declarable_transition (n : Node) : n.transition.Declarable := by
  refine ⟨?_, fun key hkey => ?_⟩
  · show n.actions.map Action.isAssign ∈ _
    unfold actions
    cases (n.attribute? "action").bind Attribute.callback? <;>
      cases (n.attribute? "assign").bind Attribute.reducer? <;> simp [Action.isAssign]
  · show n.extra.get? key = none
    rw [extra, SortedMap.get?_filterMap]
    cases n.attributes.get? key <;> simp [Transition.isReserved_eq_decide, hkey]

/-- The state of any node can be declared. -/
theorem declarable_state (n : Node) : n.state.Declarable := by
  unfold state
  split
  · exact .inl rfl
  · split
    · exact .inr ⟨_, rfl⟩
    · exact .inr ⟨none, rfl⟩

end Node

/-- The chart of any tree can be declared. -/
theorem Element.declarable_compile (tree : Element) (context : Option Json) :
    (tree.compile context).Declarable := by
  constructor
  · obtain ⟨hnil, hinitial⟩ | ⟨d, hd, hinitial⟩ :=
      Node.initialState_eq tree.normalize.declarations
    · refine .inl ⟨?_, hinitial⟩
      show SortedMap.ofList (tree.normalize.declarations.map _) = ∅
      rw [hnil]
      rfl
    · refine .inr ?_
      have hmem : (d.1, d.2.state) ∈ tree.normalize.declarations.map fun d => (d.1, d.2.state) :=
        List.mem_map.2 ⟨d, hd, rfl⟩
      have hcontains := SortedMap.contains_ofList hmem
      rw [← hinitial] at hcontains
      exact hcontains
  · intro id s hs
    rw [state?_compile] at hs
    obtain ⟨child, -, rfl⟩ := Option.map_eq_some_iff.1 hs
    exact child.normalize.declarable_state
  · intro id event t ht
    obtain ⟨e, -, rfl⟩ := transition?_compile ht
    exact e.normalize.declarable_transition

/-! ## To a tree -/

/-- The callback of an action. -/
def Action.callback? : Action → Option Callback
  | .effect f => some f
  | .assign _ => none

/-- The reducer of an action. -/
def Action.reducer? : Action → Option Reducer
  | .effect _ => none
  | .assign f => some f

/-- The attributes that mean something in the declaration of a transition on an event. -/
def Transition.attribute? (t : Transition) (event : String) : String → Option (Attribute Element)
  | "event" => some (.data (.str event))
  | "target" => t.target.map fun target => .data (.str target)
  | "action" => (t.actions.filterMap Action.callback?).head?.map .callback
  | "assign" => (t.actions.filterMap Action.reducer?).head?.map .reducer
  | "cond" => t.cond.map .guard
  | _ => none

/-- The element that declares a transition on an event. -/
def Transition.element (t : Transition) (event : String) : Element :=
  { Element.component "Transition" with
    attributes := (t.extra.map .data).merge (.ofNames reservedKeys (t.attribute? event)) }

/-- The attributes of the declaration of a state of a name, marked as initial or not. -/
def State.attribute? (s : State) (id : String) (initial : Bool) :
    String → Option (Attribute Element)
  | "id" => some (.data (.str id))
  | "initial" => some (.data (.bool initial))
  | "children" => s.on.map fun on => .list ((on.toList.map fun e => e.2.element e.1).map .node)
  | _ => none

/-- The element that declares a state of a name, marked as initial or not. -/
def State.element (s : State) (id : String) (initial : Bool) : Element :=
  { Element.component (if s.final then "Final" else "State") with
    attributes := .ofNames ["id", "initial", "children"] (s.attribute? id initial) }

/-- The tree that declares all states of a chart. -/
def Chart.tree (c : Chart) : Element :=
  Element.fragment.withAttribute "children"
    (.list ((c.states.toList.map fun e => e.2.element e.1 (e.1 = c.initial)).map .node))

/-- An element with a list of elements as its children has these children. -/
theorem Element.children_of_list {e : Element} {children : List Element}
    (h : e.attributes.get? "children" = some (.list (children.map .node))) :
    e.children = children := by
  rw [Element.children, h]
  exact Attribute.nodes_list_node children

namespace Transition

variable {t : Transition}

/-- The actions of a transition that can be declared are its callback and its reducer. -/
theorem Declarable.actions_eq (ht : t.Declarable) :
    t.actions = ((t.actions.filterMap Action.callback?).head?.map Action.effect).toList ++
      ((t.actions.filterMap Action.reducer?).head?.map Action.assign).toList := by
  have h := ht.actions
  generalize t.actions = actions at h ⊢
  match actions with
  | [] => rfl
  | [a] => cases a <;> rfl
  | a :: b :: rest =>
    -- Of longer lists only a callback before a reducer is among the four.
    cases a <;> cases b <;> simp [Action.isAssign] at h
    subst h
    rfl

/-- Under a reserved name the element of a transition has what means something there. -/
theorem Declarable.attribute?_element (ht : t.Declarable) (event : String) {name : String}
    (hname : name ∈ reservedKeys) :
    (t.element event).normalize.attribute? name =
      (t.attribute? event name).map Attribute.normalize := by
  rw [Element.attribute?_normalize, element, SortedMap.get?_merge, SortedMap.get?_ofNames,
    if_pos hname, SortedMap.get?_map, ht.extra name hname, Option.map_none, Option.or_none]

/-- Under any other name the element of a transition has its data. -/
theorem attribute?_element_of_not_mem (t : Transition) (event : String) {name : String}
    (hname : name ∉ reservedKeys) :
    (t.element event).normalize.attribute? name = (t.extra.get? name).map .data := by
  rw [Element.attribute?_normalize, element, SortedMap.get?_merge, SortedMap.get?_ofNames,
    if_neg hname, SortedMap.get?_map, Option.none_or, Option.map_map]
  rfl

/-- The element of a transition that can be declared declares a transition on its event. -/
theorem Declarable.eventName?_element (ht : t.Declarable) (event : String) :
    (t.element event).eventName? = some event := by
  have htag : (t.element event).normalize.tag = .transition := Element.tag_normalize _
  rw [Element.eventName?, if_pos htag, Node.text?, ht.attribute?_element event (by decide)]
  rfl

/-- The element of a transition that can be declared declares it. -/
theorem Declarable.transition_element (ht : t.Declarable) (event : String) :
    (t.element event).normalize.transition = t := by
  have htarget : (t.element event).normalize.text? "target" = t.target := by
    rw [Node.text?, ht.attribute?_element event (by decide), attribute?]
    cases t.target <;> rfl
  have haction : ((t.element event).normalize.attribute? "action").bind Attribute.callback? =
      (t.actions.filterMap Action.callback?).head? := by
    rw [ht.attribute?_element event (by decide), attribute?]
    cases (t.actions.filterMap Action.callback?).head? <;> rfl
  have hassign : ((t.element event).normalize.attribute? "assign").bind Attribute.reducer? =
      (t.actions.filterMap Action.reducer?).head? := by
    rw [ht.attribute?_element event (by decide), attribute?]
    cases (t.actions.filterMap Action.reducer?).head? <;> rfl
  have hcond : ((t.element event).normalize.attribute? "cond").bind Attribute.guard? = t.cond := by
    rw [ht.attribute?_element event (by decide), attribute?]
    cases t.cond <;> rfl
  have hextra : (t.element event).normalize.extra = t.extra := by
    apply SortedMap.ext_get?
    intro key
    rw [Node.extra, SortedMap.get?_filterMap]
    by_cases hkey : key ∈ reservedKeys
    · rw [ht.extra key hkey]
      simp [isReserved_eq_decide, hkey]
    · have hattribute := t.attribute?_element_of_not_mem event hkey
      rw [Node.attribute?] at hattribute
      rw [hattribute, isReserved_eq_decide, decide_eq_false hkey]
      cases t.extra.get? key <;> rfl
  rw [Node.transition, Node.actions, htarget, haction, hassign, hcond, hextra, ← ht.actions_eq]

end Transition

namespace State

/-- The attributes of the element of a state. -/
theorem attribute?_element (s : State) (id : String) (initial : Bool) {name : String}
    (hname : name ∈ ["id", "initial", "children"]) :
    (s.element id initial).normalize.attribute? name =
      (s.attribute? id initial name).map Attribute.normalize := by
  rw [Element.attribute?_normalize, element, SortedMap.get?_ofNames, if_pos hname]

/-- The element of a state declares a state of its name. -/
theorem stateName?_element (s : State) (id : String) (initial : Bool) :
    (s.element id initial).stateName? = some id := by
  have htag : (s.element id initial).normalize.tag.isStateLike = true := by
    rw [Element.tag_normalize, element]
    cases s.final <;> rfl
  rw [Element.stateName?, if_pos htag, Node.text?, s.attribute?_element id initial (by decide)]
  rfl

/-- The element of a state is marked as it should be. -/
theorem isTruthy_element (s : State) (id : String) (initial : Bool) :
    (s.element id initial).normalize.isTruthy "initial" = initial := by
  rw [Node.isTruthy, s.attribute?_element id initial (by decide)]
  rfl

/-- The children of the element of a state are the elements of its transitions. -/
theorem children_element (on : SortedMap Transition) (id : String) (initial : Bool) :
    (State.element { on := some on } id initial).children =
      on.toList.map fun e => e.2.element e.1 := by
  apply Element.children_of_list
  rw [element, SortedMap.get?_ofNames, if_pos (by decide)]
  rfl

/-- The element of a state that can be declared declares it, if its transitions can be declared. -/
theorem Declarable.state_element {s : State} (hs : s.Declarable)
    (ht : ∀ event t, s.transitions.get? event = some t → t.Declarable) (id : String)
    (initial : Bool) : (s.element id initial).normalize.state = s := by
  obtain rfl | ⟨on, rfl⟩ := hs
  · have htag : (State.element { final := true } id initial).normalize.tag = .final :=
      Element.tag_normalize _
    rw [Node.state, htag]
  · have htag : (State.element { on } id initial).normalize.tag = .state := Element.tag_normalize _
    have hcontains : (State.element { on } id initial).normalize.hasChildren = on.isSome := by
      rw [Node.hasChildren_eq, attribute?_element _ id initial (by decide), Option.isSome_map]
      cases on <;> rfl
    rw [Node.state, htag, hcontains]
    cases on with
    | none => rfl
    | some on =>
      have htransitions :
          (State.element { on := some on } id initial).normalize.transitions = on := by
        rw [Element.transitions_normalize, children_element, List.filterMap_map]
        refine SortedMap.ofList_filterMap_toList fun e he => ?_
        have hdeclarable := ht e.1 e.2 (SortedMap.get?_eq_some_iff.2 he)
        simp only [Function.comp_apply, hdeclarable.eventName?_element, Option.map_some,
          hdeclarable.transition_element]
      rw [htransitions]
      rfl

end State

namespace Chart

/-- The children of the tree of a chart are the elements of its states. -/
theorem children_tree (c : Chart) :
    c.tree.children = c.states.toList.map fun e => e.2.element e.1 (e.1 = c.initial) :=
  Element.children_of_list (SortedMap.get?_insert_self ..)

/-- The tree of a chart declares its states. -/
theorem declarations_tree (c : Chart) :
    c.tree.normalize.declarations = c.states.toList.map fun e =>
      (e.1, (e.2.element e.1 (e.1 = c.initial)).normalize) := by
  rw [Element.declarations_normalize, Element.declarations_eq, children_tree, List.filterMap_map,
    List.map_filterMap, ← List.filterMap_eq_map]
  congr 1
  funext e
  simp only [Function.comp_apply, State.stateName?_element, Option.map_some]

/-- The initial state of a chart that can be declared is the one that its tree marks. -/
theorem Declarable.initialState_tree {c : Chart} (hc : c.Declarable) :
    Node.initialState c.tree.normalize.declarations = c.initial := by
  rw [declarations_tree]
  rcases hc.initial with ⟨hempty, hinitial⟩ | hcontains
  · rw [hempty, hinitial, SortedMap.toList_empty]
    rfl
  · rw [SortedMap.contains_eq_isSome_get?] at hcontains
    obtain ⟨s, hs⟩ := Option.isSome_iff_exists.1 hcontains
    -- The state of that name is marked, so some marked state is found, and no other one is marked.
    have hmem : (c.initial, s) ∈ c.states.toList := SortedMap.get?_eq_some_iff.1 hs
    unfold Node.initialState
    simp only [List.find?_map, Function.comp_def, State.isTruthy_element]
    cases hfind : c.states.toList.find? fun e => decide (e.1 = c.initial) with
    | none => exact absurd (decide_eq_true rfl) (List.find?_eq_none.1 hfind _ hmem)
    | some e =>
      have he := List.find?_some hfind
      exact of_decide_eq_true he

/-- The tree of a chart that can be declared compiles to it. -/
theorem Declarable.compile_tree {c : Chart} (hc : c.Declarable) :
    c.tree.compile c.context = c := by
  have hstate : ∀ e ∈ c.states.toList,
      (e.1, (e.2.element e.1 (e.1 = c.initial)).normalize.state) = e := by
    intro e he
    have hs : c.state? e.1 = some e.2 := SortedMap.get?_eq_some_iff.2 he
    have hdeclarable := (hc.states e.1 e.2 hs).state_element (fun event t ht =>
      hc.transitions e.1 event t (transition?_eq_some_iff.2 ⟨e.2, hs, ht⟩)) e.1 (e.1 = c.initial)
    rw [hdeclarable]
  have hstates : SortedMap.ofList
      (c.tree.normalize.declarations.map fun d => (d.1, d.2.state)) = c.states := by
    have hentries := List.map_congr_left hstate
    rw [List.map_id'] at hentries
    rw [declarations_tree, List.map_map]
    exact (congrArg SortedMap.ofList hentries).trans c.states.ofList_toList
  rw [Element.compile, Node.compile, hstates, hc.initialState_tree]

end Chart

/-- Just those charts can be declared that some tree compiles to. -/
theorem Element.exists_compile_eq_iff (c : Chart) :
    (∃ tree : Element, tree.compile c.context = c) ↔ c.Declarable := by
  constructor
  · rintro ⟨tree, htree⟩
    have h := tree.declarable_compile c.context
    rw [htree] at h
    exact h
  · intro hc
    exact ⟨c.tree, hc.compile_tree⟩

end FlatChart
