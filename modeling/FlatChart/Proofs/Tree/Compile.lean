import FlatChart.Proofs.Chart.Data
import FlatChart.Proofs.Tree.Unwired
import FlatChart.Tree.Compile

/-!
# What compiling carries over

A tree without its functions compiles to the data of what the tree compiles to
(`Element.compile_unwired`): functions reach the chart only from the attributes that are dropped,
and nothing else is read from these. All data of the chart stands in the tree
(`Element.everyDatum_compile`).
-/

namespace FlatChart

namespace Attribute

/-- The text of an attribute is left. -/
@[simp] theorem text?_unwired (a : Attribute Element) :
    a.unwired.normalize.text? = a.normalize.text? := by
  cases a <;> rfl

/-- The data of an attribute is left. -/
@[simp] theorem data?_unwired (a : Attribute Element) :
    a.unwired.normalize.data? = a.normalize.data? := by
  cases a <;> rfl

/-- Whether an attribute is set is left as it is. -/
@[simp] theorem isTruthy_unwired (a : Attribute Element) :
    a.unwired.normalize.isTruthy = a.normalize.isTruthy := by
  cases a <;> rfl

end Attribute

/-- Transitions have just one name. -/
theorem Tag.eq_of_ofName_eq_transition {name : Option String} (h : ofName name = .transition) :
    name = some "Transition" := by
  unfold ofName at h
  split at h <;> simp_all

namespace Element

/-! ## Attributes of a node -/

/-- The tag of a node is told by the name of the element. -/
theorem tag_normalize (e : Element) : e.normalize.tag = .ofName e.name? := by
  rw [normalize_eq]

/-- The attributes of a node are those of the element. -/
theorem attribute?_normalize (e : Element) (name : String) :
    e.normalize.attribute? name = (e.attributes.get? name).map Attribute.normalize := by
  rw [normalize_eq, Node.attribute?, SortedMap.get?_map]

/-- The tag is left. -/
theorem tag_unwired (e : Element) : e.unwired.normalize.tag = e.normalize.tag := by
  rw [tag_normalize, tag_normalize, unwired_eq]
  rfl

/-- The attributes that are left. -/
theorem attribute?_unwired (e : Element) (name : String) :
    e.unwired.normalize.attribute? name =
      ((e.attributes.get? name).filter fun a => !e.type.wires name a).map
        fun a => a.unwired.normalize := by
  rw [attribute?_normalize, unwired_eq, SortedMap.get?_filter, SortedMap.get?_map]
  cases e.attributes.get? name with
  | none => rfl
  | some a =>
    -- What is dropped inside an attribute does not make or unmake a function of it.
    have h : e.type.wires name a.unwired = e.type.wires name a := by
      simp [ElementType.wires]
    simp only [Option.map_some, Option.filter_some, h]
    split <;> rfl

/-- Under any name that no function is wired with, all attributes are left. -/
theorem attribute?_unwired_of_not_wired (e : Element) (name : String)
    (hname : ["cond", "action", "assign"].contains name = false) :
    e.unwired.normalize.attribute? name =
      (e.attributes.get? name).map fun a => a.unwired.normalize := by
  have hwires : ∀ a : Attribute Element, e.type.wires name a = false := by
    intro a
    simp only [ElementType.wires, hname, Bool.and_false, Bool.false_and]
  rw [attribute?_unwired]
  cases e.attributes.get? name with
  | none => rfl
  | some a => simp [hwires]

/-- A text is left under any name that no function is wired with. -/
theorem text?_unwired (e : Element) (name : String)
    (hname : ["cond", "action", "assign"].contains name = false) :
    e.unwired.normalize.text? name = e.normalize.text? name := by
  rw [Node.text?, Node.text?, e.attribute?_unwired_of_not_wired _ hname, attribute?_normalize]
  cases e.attributes.get? name <;> simp

/-- Nothing of a transition is found that selects a function. -/
theorem attribute?_unwired_bind {α : Type} (e : Element) (select : Attribute Node → Option α)
    (name : String) (he : e.name? = some "Transition")
    (hname : ["cond", "action", "assign"].contains name = true)
    (hselect : ∀ a : Attribute Element, a.isFunction = false → select a.normalize = none) :
    (e.unwired.normalize.attribute? name).bind select = none := by
  rw [attribute?_unwired]
  cases e.attributes.get? name with
  | none => rfl
  | some a =>
    have hwires : e.type.wires name a = a.isFunction := by
      have htype : e.type.name? = some "Transition" := he
      simp only [ElementType.wires, htype, hname, beq_self_eq_true, Bool.true_and]
    rw [Option.filter_some, hwires]
    -- A function is dropped, and anything else selects nothing.
    cases hf : a.isFunction with
    | true => rfl
    | false =>
      have ha := hselect a.unwired (by simp [hf])
      simpa using ha

/-! ## Children -/

/-- The children of a node are those of the element. -/
theorem children_normalize (e : Element) :
    e.normalize.children = e.children.map normalize := by
  rw [Node.children, attribute?_normalize, children]
  cases e.attributes.get? "children" with
  | none => rfl
  | some a => exact a.nodes_normalize

/-- The children are left, without their functions. -/
theorem children_unwired (e : Element) :
    e.unwired.normalize.children = e.children.map fun child => child.unwired.normalize := by
  rw [Node.children, attribute?_unwired_of_not_wired e _ (by decide), children]
  cases e.attributes.get? "children" with
  | none => rfl
  | some a =>
    simp only [Option.map_some]
    rw [Attribute.nodes_normalize, Attribute.nodes_unwired, List.map_map]
    rfl

/-! ## Transitions -/

end Element

/-- A node declares a transition with unreserved data only. -/
theorem Node.strip_transition (n : Node) :
    n.transition.strip = { target := n.text? "target", extra := n.extra } := by
  have hextra : n.transition.freeExtra = n.extra := by
    apply SortedMap.ext_get?
    intro key
    rw [Transition.get?_freeExtra]
    split
    · next h =>
      rw [extra, SortedMap.get?_filterMap]
      cases n.attributes.get? key <;> simp [Transition.isReserved_eq_decide, h]
    · rfl
  rw [Transition.strip_eq, hextra]
  rfl

/-- A node has children when it has an attribute of that name. -/
theorem Node.hasChildren_eq (n : Node) : n.hasChildren = (n.attribute? "children").isSome :=
  SortedMap.contains_eq_isSome_get? ..

/-- A state has the transitions that its node declares, if it has any: a final state has none. -/
theorem Node.eq_transitions_of_on {n : Node} {on : SortedMap Transition}
    (h : n.state.on = some on) : on = n.transitions := by
  unfold Node.state at h
  split at h
  · cases h
  · split at h
    · exact (Option.some.inj h).symm
    · cases h

/-! ## What a node declares -/

namespace Node

/-- A final state is declared with nothing else. -/
theorem state_of_final {n : Node} (h : n.tag = .final) : n.state = { final := true } := by
  rw [state, h]

/-- Any other state is declared with the transitions of its children, if it has children. -/
theorem state_of_not_final {n : Node} (h : n.tag ≠ .final) :
    n.state = if n.hasChildren then { on := some n.transitions } else {} := by
  unfold state
  split
  · next hfinal => exact absurd hfinal h
  · rfl

/-- The initial state is named by the first declaration that is marked, else by the first one. -/
theorem initialState_eq_getD (ds : List (String × Node)) :
    initialState ds = ((ds.find? fun d => d.2.isTruthy "initial").map Prod.fst).getD
      ((ds.head?.map Prod.fst).getD "") := by
  rw [initialState]
  cases ds.find? fun d => d.2.isTruthy "initial" <;> rfl

/-- The initial state depends on the names of the declarations and on which of them are marked. -/
theorem initialState_congr {ds es : List (String × Node)}
    (h : ds.map (fun d => (d.1, d.2.isTruthy "initial")) =
      es.map fun d => (d.1, d.2.isTruthy "initial")) : initialState ds = initialState es := by
  have hfind := congrArg (fun names => (names.find? Prod.snd).map Prod.fst) h
  have hhead := congrArg (fun names => names.head?.map Prod.fst) h
  simp only [List.find?_map, List.head?_map, Option.map_map] at hfind hhead
  rw [initialState_eq_getD, initialState_eq_getD]
  exact congrArg₂ Option.getD hfind (congrArg (·.getD "") hhead)

/-- The initial state is one that is declared, if there is any. -/
theorem initialState_eq (declarations : List (String × Node)) :
    (declarations = [] ∧ initialState declarations = "") ∨
      ∃ d ∈ declarations, initialState declarations = d.1 := by
  unfold initialState
  cases hfind : declarations.find? fun d => d.2.isTruthy "initial" with
  | some d => exact .inr ⟨d, List.mem_of_find?_eq_some hfind, rfl⟩
  | none =>
    cases declarations with
    | nil => exact .inl ⟨rfl, rfl⟩
    | cons d rest => exact .inr ⟨d, List.mem_cons_self .., rfl⟩

end Node

namespace Element

/-- The data that is passed through is left. -/
theorem extra_unwired (e : Element) : e.unwired.normalize.extra = e.normalize.extra := by
  apply SortedMap.ext_get?
  intro key
  rw [Node.extra, Node.extra, SortedMap.get?_filterMap, SortedMap.get?_filterMap]
  cases hkey : Transition.isReserved key with
  | true => simp
  | false =>
    have hname : ["cond", "action", "assign"].contains key = false := by
      simp [Transition.isReserved, Transition.reservedKeys] at hkey
      simp [hkey]
    have h := e.attribute?_unwired_of_not_wired _ hname
    have h' := e.attribute?_normalize key
    rw [Node.attribute?] at h h'
    rw [h, h']
    cases e.attributes.get? key <;> simp

/-- Without its functions an element declares the data of the transition that it declares. -/
theorem transition_unwired (e : Element) (he : e.name? = some "Transition") :
    e.unwired.normalize.transition = e.normalize.transition.strip := by
  have haction := e.attribute?_unwired_bind Attribute.callback? "action" he (by decide)
    fun a ha => by cases a <;> first | rfl | cases ha
  have hassign := e.attribute?_unwired_bind Attribute.reducer? "assign" he (by decide)
    fun a ha => by cases a <;> first | rfl | cases ha
  have hcond := e.attribute?_unwired_bind Attribute.guard? "cond" he (by decide)
    fun a ha => by cases a <;> first | rfl | cases ha
  rw [Node.strip_transition, Node.transition, Node.actions, haction, hassign, hcond,
    e.text?_unwired _ (by decide), e.extra_unwired]
  rfl

/-! ## States -/

/-- The transitions that are left are the data of the transitions. -/
theorem transitions_unwired (e : Element) :
    e.unwired.normalize.transitions = e.normalize.transitions.map Transition.strip := by
  rw [Node.transitions, Node.transitions, children_unwired, children_normalize,
    SortedMap.map_ofList, List.map_filterMap, List.filterMap_map, List.filterMap_map]
  congr 2
  funext child
  simp only [Function.comp_apply, tag_unwired, child.text?_unwired "event" (by decide)]
  split
  · next h =>
    rw [tag_normalize] at h
    rw [child.transition_unwired (Tag.eq_of_ofName_eq_transition h)]
    cases child.normalize.text? "event" <;> rfl
  · rfl

/-- Without its functions an element declares the data of the state that it declares. -/
theorem state_unwired (e : Element) : e.unwired.normalize.state = e.normalize.state.strip := by
  have hchildren : e.unwired.normalize.hasChildren = e.normalize.hasChildren := by
    rw [Node.hasChildren_eq, Node.hasChildren_eq,
      e.attribute?_unwired_of_not_wired "children" (by decide), attribute?_normalize,
      Option.isSome_map, Option.isSome_map]
  unfold Node.state
  rw [tag_unwired, hchildren, transitions_unwired]
  split
  · rfl
  · split <;> rfl

/-- The elements among the children that declare a state, with its name. -/
def declarations (e : Element) : List (String × Element) :=
  e.children.filterMap fun child =>
    if child.normalize.tag.isStateLike then (child.normalize.text? "id").map fun id => (id, child)
    else none

/-- A node whose children stand for those of an element declares the states of the element. -/
theorem declarations_of_children {n : Node} {e : Element} {g : Element → Node}
    (hchildren : n.children = e.children.map g)
    (htag : ∀ child, (g child).tag = child.normalize.tag)
    (hid : ∀ child, (g child).text? "id" = child.normalize.text? "id") :
    n.declarations = e.declarations.map fun d => (d.1, g d.2) := by
  rw [Node.declarations, hchildren, declarations, List.filterMap_map, List.map_filterMap]
  congr 1
  funext child
  simp only [Function.comp_apply, htag, hid]
  split
  · cases child.normalize.text? "id" <;> rfl
  · rfl

/-- A node declares the states of its element. -/
theorem declarations_normalize (e : Element) :
    e.normalize.declarations = e.declarations.map fun d => (d.1, d.2.normalize) :=
  declarations_of_children e.children_normalize (fun _ => rfl) fun _ => rfl

/-- Without its functions an element declares the same states without theirs. -/
theorem declarations_unwired (e : Element) :
    e.unwired.normalize.declarations = e.declarations.map fun d => (d.1, d.2.unwired.normalize) :=
  declarations_of_children e.children_unwired tag_unwired fun child =>
    child.text?_unwired "id" (by decide)

/-- The same declaration is marked, and the same one is the first. -/
theorem initialState_unwired (e : Element) :
    Node.initialState e.unwired.normalize.declarations =
      Node.initialState e.normalize.declarations := by
  have htruthy : ∀ child : Element,
      child.unwired.normalize.isTruthy "initial" = child.normalize.isTruthy "initial" := by
    intro child
    rw [Node.isTruthy, Node.isTruthy, child.attribute?_unwired_of_not_wired _ (by decide),
      attribute?_normalize]
    cases child.attributes.get? "initial" <;> simp
  refine Node.initialState_congr ?_
  rw [declarations_unwired, declarations_normalize]
  simp [htruthy]

/-! ## Charts -/

/-- Without its functions a tree compiles to the data of the chart that it compiles to, with the
context as it is given. -/
theorem compile_unwired (tree : Element) (context : Option Json) :
    tree.unwired.compile context = { (tree.compile context).strip with context } := by
  have hstates : SortedMap.ofList (tree.unwired.normalize.declarations.map
        fun d => (d.1, d.2.state)) =
      (SortedMap.ofList (tree.normalize.declarations.map fun d => (d.1, d.2.state))).map
        State.strip := by
    rw [SortedMap.map_ofList, declarations_unwired, declarations_normalize]
    simp only [List.map_map, Function.comp_def, state_unwired]
  rw [compile, compile, Node.compile, Node.compile, initialState_unwired, hstates]
  rfl

/-! ## Where data comes from -/

variable {p q : Json → Prop}

/-- The data of a transition stands in the element that declares it. -/
theorem everyDatum_transition (e : Element) (h : ∀ v ∈ e.values, p v) :
    e.normalize.transition.EveryDatum p := by
  intro key v _ hv
  have hextra : e.normalize.transition.extra = e.normalize.extra := rfl
  rw [hextra, Node.extra, SortedMap.get?_filterMap, normalize_eq, SortedMap.get?_map] at hv
  cases ha : e.attributes.get? key with
  | none => simp [ha] at hv
  | some a =>
    have hdata : a.normalize.data? = some v := by
      simp only [ha, Option.map_some, Option.bind_some] at hv
      split at hv
      · exact absurd hv (by simp)
      · exact hv
    cases a with
    | data w =>
      obtain rfl : w = v := Option.some.inj hdata
      exact h w (values_subset ha (List.mem_singleton.2 rfl))
    -- Only data is passed through.
    | _ => exact absurd hdata (by simp [Attribute.normalize, Attribute.data?])

/-- A transition of a state is declared by a child of the element. -/
theorem exists_mem_children_of_transition {e : Element} {event : String} {t : Transition}
    (ht : e.normalize.transitions.get? event = some t) :
    ∃ child ∈ e.children, t = child.normalize.transition := by
  rw [Node.transitions, children_normalize, List.filterMap_map] at ht
  obtain ⟨child, hchild, hdeclares⟩ := List.mem_filterMap.1 (SortedMap.mem_of_get?_ofList ht)
  refine ⟨child, hchild, ?_⟩
  simp only [Function.comp_apply] at hdeclares
  split at hdeclares
  · obtain ⟨_, _, heq⟩ := Option.map_eq_some_iff.1 hdeclares
    exact (Prod.mk.inj heq).2.symm
  · exact absurd hdeclares (by simp)

/-- The data of a state stands in the element that declares it. -/
theorem everyDatum_state (e : Element) (h : ∀ v ∈ e.values, p v) :
    e.normalize.state.EveryDatum p := by
  intro on hon event t ht
  rw [Node.eq_transitions_of_on hon] at ht
  obtain ⟨child, hchild, rfl⟩ := exists_mem_children_of_transition ht
  exact child.everyDatum_transition fun v hv => h v (values_subset_of_mem_children hchild hv)

/-- A state is declared by a child of the element. -/
theorem mem_children_of_mem_declarations {e : Element} {d : String × Element}
    (hd : d ∈ e.declarations) : d.2 ∈ e.children := by
  obtain ⟨child, hchild, hdeclares⟩ := List.mem_filterMap.1 hd
  split at hdeclares
  · obtain ⟨_, _, rfl⟩ := Option.map_eq_some_iff.1 hdeclares
    exact hchild
  · exact absurd hdeclares (by simp)

/-- The context of a compiled chart is the given one, and all other data stands in the tree. -/
theorem everyDatum_compile (tree : Element) (context : Option Json)
    (hcontext : ∀ v, context = some v → p v) (hvalues : ∀ v ∈ tree.values, q v) :
    (tree.compile context).EveryDatum p q := by
  refine ⟨hcontext, fun id s hs => ?_⟩
  have hstates : (tree.compile context).states =
      .ofList (tree.normalize.declarations.map fun d => (d.1, d.2.state)) := rfl
  rw [Chart.state?, hstates, declarations_normalize, List.map_map] at hs
  obtain ⟨d, hd, heq⟩ := List.mem_map.1 (SortedMap.mem_of_get?_ofList hs)
  obtain rfl : d.2.normalize.state = s := (Prod.mk.inj heq).2
  have hchild := mem_children_of_mem_declarations hd
  exact d.2.everyDatum_state fun v hv => hvalues v (values_subset_of_mem_children hchild hv)

end Element

end FlatChart
