import FlatChart.Proofs.Tree.Grouping

/-!
# Fragments

The children of a fragment may be spliced into the children of another element, and then they stand
where the fragment stood. As far as compiling goes, splicing the children of the root changes
nothing: they are the same in the same order (`Element.compile_splice`).

A fragment that is not spliced is an element like any other, one that declares nothing, and nothing
that it holds is looked at. `Element.hollowed` empties the fragments inside an element, so that
there is nothing left in them that could become a state or a transition; the tree compiles to the
same chart all the same (`Element.compile_withHollowChildren`), as what the other elements declare
is what they declared before.
-/

namespace FlatChart

/-! ## Emptying fragments -/

mutual
/-- An element inside a tree with nothing left in fragments: a fragment loses all it holds, and any
other element keeps its attributes, with nothing left in the fragments inside them. -/
def Element.hollowed : Element → Element
  | ⟨type, key, refName, owner, store, keys, sorted, value⟩ =>
    ⟨type, key, refName, owner, store,
      if type = .fragment then ∅ else .tabulate keys sorted fun i => (value i).hollowed⟩

/-- An attribute with nothing left in the fragments inside it. -/
def Attribute.hollowed : Attribute Element → Attribute Element
  | .data v => .data v
  | .node e => .node e.hollowed
  | .list items => .list (Attribute.hollowedItems items)
  | .callback f => .callback f
  | .guard f => .guard f
  | .reducer f => .reducer f

/-- The items of a list with nothing left in the fragments inside them. -/
def Attribute.hollowedItems : List (Attribute Element) → List (Attribute Element)
  | [] => []
  | a :: rest => a.hollowed :: Attribute.hollowedItems rest
end

/-- The tree with nothing left in the fragments inside it, whatever its root is. -/
def Element.withHollowChildren (e : Element) : Element :=
  { e with attributes := e.attributes.map Attribute.hollowed }

/-- The states of a chart are declared by some elements, and the transitions of a state by children
of the element that declares it. None of them is a fragment. -/
def Chart.DeclaredAmong (c : Chart) (elements : List Element) : Prop :=
  ∀ id s, c.state? id = some s →
    ∃ e ∈ elements, e.type ≠ .fragment ∧ e.normalize.state = s ∧
      ∀ on event t, s.on = some on → on.get? event = some t →
        ∃ m ∈ e.children, m.type ≠ .fragment ∧ m.normalize.transition = t

namespace Attribute

/-- The elements of an attribute are emptied one by one. -/
theorem changes_hollowed : Changes Element.hollowed Attribute.hollowed where
  node _ := rfl
  list items := congrArg list (eq_map_of_cons rfl (fun _ _ => rfl) items)
  data _ := rfl
  callback _ := rfl
  guard _ := rfl
  reducer _ := rfl

/-- Whether an attribute is set stays. -/
@[simp] theorem isTruthy_hollowed (a : Attribute Element) :
    a.hollowed.isTruthy = a.isTruthy := by
  cases a <;> rfl

end Attribute

namespace Element

/-! ## What elements declare -/

/-- An element that is no fragment has its children emptied. -/
theorem hollowed_of_type_ne {e : Element} (h : e.type ≠ .fragment) :
    e.hollowed = e.withHollowChildren := by
  obtain ⟨type, key, refName, owner, store, keys, sorted, value⟩ := e
  rw [hollowed, if_neg h]
  rfl

/-- An element has the tag that it had. -/
theorem tag_hollowed (e : Element) : e.hollowed.normalize.tag = e.normalize.tag := by
  obtain ⟨type, key, refName, owner, store, keys, sorted, value⟩ := e
  rw [tag_normalize, tag_normalize, hollowed]
  rfl

/-- A fragment has no tag that means anything, so it declares nothing. -/
theorem tag_of_fragment {e : Element} (h : e.type = .fragment) :
    e.normalize.tag = .other none := by
  rw [tag_normalize, name?, h]
  rfl

/-- What declares a state is no fragment. -/
theorem type_ne_of_stateName? {e : Element} {id : String} (h : e.stateName? = some id) :
    e.type ≠ .fragment := by
  intro htype
  rw [stateName?, tag_of_fragment htype] at h
  exact absurd h (by simp [Tag.isStateLike])

/-- What declares a transition is no fragment. -/
theorem type_ne_of_eventName? {e : Element} {event : String} (h : e.eventName? = some event) :
    e.type ≠ .fragment := by
  intro htype
  rw [eventName?, tag_of_fragment htype] at h
  exact absurd h (by simp)

/-- What is read of an attribute stays when nothing is read of elements and lists. -/
theorem bind_attribute?_withHollowChildren (e : Element) {α : Type}
    (select : Attribute Node → Option α) (hnode : ∀ n, select (.node n) = none)
    (hlist : ∀ items, select (.list items) = none) (name : String) :
    (e.withHollowChildren.normalize.attribute? name).bind select =
      (e.normalize.attribute? name).bind select := by
  rw [attribute?_normalize, attribute?_normalize, withHollowChildren, SortedMap.get?_map]
  cases e.attributes.get? name with
  | none => rfl
  | some a =>
    cases a with
    | node m => exact (hnode m.hollowed.normalize).trans (hnode m.normalize).symm
    | list items => exact (hlist _).trans (hlist _).symm
    | _ => rfl

/-- The text of every attribute stays. -/
theorem text?_withHollowChildren (e : Element) (name : String) :
    e.withHollowChildren.normalize.text? name = e.normalize.text? name :=
  e.bind_attribute?_withHollowChildren Attribute.text? (fun _ => rfl) (fun _ => rfl) name

/-- Whether an attribute is set stays. -/
theorem isTruthy_withHollowChildren (e : Element) (name : String) :
    e.withHollowChildren.normalize.isTruthy name = e.normalize.isTruthy name := by
  rw [Node.isTruthy, Node.isTruthy, attribute?_normalize, attribute?_normalize,
    withHollowChildren, SortedMap.get?_map]
  cases e.attributes.get? name <;> simp

/-- The children are emptied one by one. -/
theorem children_withHollowChildren (e : Element) :
    e.withHollowChildren.children = e.children.map hollowed := by
  rw [children, children, withHollowChildren, SortedMap.get?_map]
  cases e.attributes.get? "children" with
  | none => rfl
  | some a => exact Attribute.changes_hollowed.nodes_eq a

/-- An element declares a state of the same name. -/
theorem stateName?_hollowed (e : Element) : e.hollowed.stateName? = e.stateName? := by
  rw [stateName?, stateName?, tag_hollowed]
  -- A fragment declares nothing, emptied or not, and anything else keeps its own attributes.
  by_cases htype : e.type = .fragment
  · rw [tag_of_fragment htype]
    rfl
  · rw [hollowed_of_type_ne htype, text?_withHollowChildren]

/-- An element says the same of where a machine starts. -/
theorem mark?_hollowed (e : Element) : e.hollowed.mark? = e.mark? := by
  rw [mark?, mark?, stateName?_hollowed]
  cases hname : e.stateName? with
  | none => rfl
  | some id => rw [hollowed_of_type_ne (type_ne_of_stateName? hname), isTruthy_withHollowChildren]

/-- An element declares a transition on the same event. -/
theorem eventName?_hollowed (e : Element) : e.hollowed.eventName? = e.eventName? := by
  rw [eventName?, eventName?, tag_hollowed]
  by_cases htype : e.type = .fragment
  · rw [tag_of_fragment htype]
    rfl
  · rw [hollowed_of_type_ne htype, text?_withHollowChildren]

/-- What is found among the children under a name is a child of that name. -/
theorem mem_children_of_find? {e child : Element} {name? : Element → Option String}
    {name : String} (h : (e.children.reverse.find? fun m => name? m = some name) = some child) :
    child ∈ e.children ∧ name? child = some name := by
  have hname := List.find?_some h
  exact ⟨List.mem_reverse.1 (List.mem_of_find?_eq_some h), of_decide_eq_true hname⟩

/-- A search from the last child finds the same child, emptied, if names stay. -/
theorem find?_children_withHollowChildren (e : Element) {name? : Element → Option String}
    (h : ∀ m : Element, name? m.hollowed = name? m) (name : String) :
    (e.withHollowChildren.children.reverse.find? fun m => name? m = some name) =
      (e.children.reverse.find? fun m => name? m = some name).map hollowed := by
  rw [children_withHollowChildren, ← List.map_reverse, List.find?_map]
  simp only [Function.comp_def, h]

/-- The same child declares a state. -/
theorem stateDeclaration?_withHollowChildren (e : Element) (id : String) :
    e.withHollowChildren.stateDeclaration? id = (e.stateDeclaration? id).map hollowed :=
  e.find?_children_withHollowChildren stateName?_hollowed id

/-- The same child declares a transition. -/
theorem transitionDeclaration?_withHollowChildren (e : Element) (event : String) :
    e.withHollowChildren.transitionDeclaration? event =
      (e.transitionDeclaration? event).map hollowed :=
  e.find?_children_withHollowChildren eventName?_hollowed event

/-! ## Charts -/

/-- The same transition is declared. -/
theorem transition_withHollowChildren (e : Element) :
    e.withHollowChildren.normalize.transition = e.normalize.transition := by
  have hcallback := e.bind_attribute?_withHollowChildren Attribute.callback? (fun _ => rfl)
    fun _ => rfl
  have hreducer := e.bind_attribute?_withHollowChildren Attribute.reducer? (fun _ => rfl)
    fun _ => rfl
  have hguard := e.bind_attribute?_withHollowChildren Attribute.guard? (fun _ => rfl) fun _ => rfl
  have hextra : e.withHollowChildren.normalize.extra = e.normalize.extra :=
    SortedMap.ext_get? fun key => by
      rw [Node.extra, Node.extra, SortedMap.get?_filterMap, SortedMap.get?_filterMap]
      exact e.bind_attribute?_withHollowChildren _ (fun _ => by split <;> rfl)
        (fun _ => by split <;> rfl) key
  rw [Node.transition, Node.transition, Node.actions, Node.actions, hcallback, hreducer, hguard,
    hextra, text?_withHollowChildren]

/-- The same transitions are declared. -/
theorem transitions_withHollowChildren (e : Element) :
    e.withHollowChildren.normalize.transitions = e.normalize.transitions :=
  SortedMap.ext_get? fun event => by
    rw [get?_transitions_normalize, get?_transitions_normalize,
      transitionDeclaration?_withHollowChildren]
    cases hm : e.transitionDeclaration? event with
    | none => rfl
    | some m =>
      have htype := type_ne_of_eventName? (mem_children_of_find? hm).2
      rw [Option.map_some, Option.map_some, Option.map_some, hollowed_of_type_ne htype,
        transition_withHollowChildren]

/-- The same state is declared. -/
theorem state_withHollowChildren (e : Element) :
    e.withHollowChildren.normalize.state = e.normalize.state := by
  have htag : e.withHollowChildren.normalize.tag = e.normalize.tag := by
    rw [tag_normalize, tag_normalize]
    rfl
  have hchildren : e.withHollowChildren.normalize.hasChildren = e.normalize.hasChildren := by
    rw [Node.hasChildren_eq, Node.hasChildren_eq, attribute?_normalize, attribute?_normalize,
      Option.isSome_map, Option.isSome_map, withHollowChildren, SortedMap.get?_map,
      Option.isSome_map]
  by_cases hfinal : e.normalize.tag = .final
  · rw [Node.state_of_final (htag.trans hfinal), Node.state_of_final hfinal]
  · rw [Node.state_of_not_final (htag.trans_ne hfinal), Node.state_of_not_final hfinal,
      hchildren, transitions_withHollowChildren]

/-- The chart starts in the same state. -/
theorem initial_withHollowChildren (tree : Element) (context : Option Json) :
    (tree.withHollowChildren.compile context).initial = (tree.compile context).initial := by
  refine initial_congr ?_ context
  rw [children_withHollowChildren, List.filterMap_map]
  exact List.filterMap_congr fun child _ => child.mark?_hollowed

/-- What nested fragments hold does not matter to the chart of a tree. -/
theorem compile_withHollowChildren (tree : Element) (context : Option Json) :
    tree.withHollowChildren.compile context = tree.compile context := by
  symm
  refine compile_eq rfl (initial_withHollowChildren tree context) fun id => ?_
  rw [state?_compile, stateDeclaration?_withHollowChildren]
  cases hs : tree.stateDeclaration? id with
  | none => rfl
  | some s =>
    -- What declares a state is emptied as a root is, so the state is the same.
    have htype := type_ne_of_stateName? (mem_children_of_find? hs).2
    rw [Option.map_some, Option.map_some, Option.map_some, hollowed_of_type_ne htype,
      state_withHollowChildren]

/-! ## Splicing -/

/-- The states of the chart of a tree are declared by children of its root that are no fragments,
and the transitions of a state by children of these that are none either. -/
theorem declaredAmong_compile (tree : Element) (context : Option Json) :
    (tree.compile context).DeclaredAmong tree.children := by
  intro id s hs
  rw [state?_compile] at hs
  obtain ⟨child, hchild, rfl⟩ := Option.map_eq_some_iff.1 hs
  obtain ⟨hmem, hname⟩ := mem_children_of_find? hchild
  refine ⟨child, hmem, type_ne_of_stateName? hname, rfl, fun on event t hon ht => ?_⟩
  rw [Node.eq_transitions_of_on hon, get?_transitions_normalize] at ht
  obtain ⟨m, hm, rfl⟩ := Option.map_eq_some_iff.1 ht
  obtain ⟨hmem, hevent⟩ := mem_children_of_find? hm
  exact ⟨m, hmem, type_ne_of_eventName? hevent, rfl⟩

/-- Splicing the children of a fragment commutes with turning elements into nodes: either way they
are the same nodes in the same order. A fragment with its children spliced compiles to the same
chart as the fragment itself. In both of them nothing that fragments hold matters which are not
spliced, and no state or transition comes from there. -/
theorem compile_splice (f : Element) (hf : f.type = .fragment) :
    f.normalize.children = f.splice.map normalize ∧
      ∀ context, (fragment.withChildren f.splice).compile context = f.compile context ∧
        f.withHollowChildren.compile context = f.compile context ∧
        (fragment.withChildren f.splice).withHollowChildren.compile context = f.compile context ∧
        (f.compile context).DeclaredAmong f.splice := by
  have hsplice : f.splice = f.children := splice_of_fragment hf
  refine ⟨by rw [children_normalize, hsplice], fun context => ?_⟩
  have hspliced : (fragment.withChildren f.splice).compile context = f.compile context := by
    refine Node.compile_congr ?_ context
    rw [children_normalize, children_withChildren, hsplice, children_normalize]
  refine ⟨hspliced, compile_withHollowChildren f context, ?_, ?_⟩
  · rw [compile_withHollowChildren, hspliced]
  · rw [hsplice]
    exact f.declaredAmong_compile context

/-- An element of a component with an attribute and some children. -/
def named (component' name text : String) (children : List (Attribute Element)) : Element :=
  ((component component').withAttribute name (.data (.str text))).withAttribute "children"
    (.list children)

/-- A greenhouse that opens its roof when it is hot, and does so in a fragment as well, where it
counts for nothing. A fragment holds another state. -/
def greenhouse : Element :=
  fragment.withAttribute "children" (.list [.data .null,
    .list [.node (named "State" "id" "shut" [
      .node (named "Transition" "event" "HOT" []),
      .node (fragment.withAttribute "children" (.node (named "Transition" "event" "RAIN" [])))])],
    .node (fragment.withAttribute "children" (.node (named "State" "id" "open" []))),
    .node (named "Final" "id" "broken" [])])

/-- Neither the rain nor the state in a fragment reaches the chart, which is the same once they are
gone. -/
theorem compile_splice_greenhouse :
    greenhouse.normalize.children = greenhouse.splice.map normalize ∧
      greenhouse.splice.map (·.children.length) = [2, 1, 0] ∧
      greenhouse.withHollowChildren.splice.map (·.children.length) = [2, 0, 0] ∧
      (fragment.withChildren greenhouse.splice).compile none = greenhouse.compile none ∧
      greenhouse.withHollowChildren.compile none = greenhouse.compile none ∧
      (greenhouse.compile none).states.keys = ["broken", "shut"] ∧
      ((greenhouse.compile none).transition? "shut" "HOT").isSome = true ∧
      ((greenhouse.compile none).transition? "shut" "RAIN").isNone = true := by
  obtain ⟨hnodes, hcharts⟩ := compile_splice greenhouse rfl
  obtain ⟨hspliced, hhollow, -⟩ := hcharts none
  exact ⟨hnodes, by decide +kernel, by decide +kernel, hspliced, hhollow, by decide +kernel,
    by decide +kernel, by decide +kernel⟩

end Element

end FlatChart
