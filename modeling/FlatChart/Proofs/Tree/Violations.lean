import FlatChart.Proofs.Chart.Violations
import FlatChart.Proofs.Tree.Declarations

/-!
# The violations of a compiled chart

A compiled chart can have only one kind of violation. Its initial state is the name of a
declaration, and whichever declaration of that name counts, there is a state; what a `Final` element
declares has no transitions, whatever its children are; and nothing in a tree declares an invoke
block. So all that can be wrong is that transitions lead to states that nobody declares
(`Chart.strays`), and these are what validation finds (`Element.violations_compile`).
-/

namespace FlatChart

/-! ## Stray transitions -/

namespace Chart

variable {c : Chart} {names : List String}

/-- The transitions that lead to none of some states, as violations. -/
def strays (c : Chart) (names : List String) : List Violation :=
  c.pairs.filterMap fun p => (c.transition? p.1 p.2).bind fun t =>
    (t.target.filter (· ∉ names)).map (.unknownTarget p.1 p.2)

/-- What is found in the transitions of all states are those that lead to none of the states. -/
theorem flatMap_targetViolations (hnames : ∀ id, c.state? id = none ↔ id ∉ names) :
    (c.states.toList.flatMap fun e => c.targetViolations e.1 e.2) = c.strays names := by
  rw [strays, pairs, List.filterMap_flatMap]
  refine List.flatMap_congr fun s hs => ?_
  rw [targetViolations, List.filterMap_map, List.filterMap_eq_flatMap_toList]
  refine List.flatMap_congr fun t ht => ?_
  have htransition : c.transition? s.1 t.1 = some t.2 := transition?_eq_some_iff.2
    ⟨s.2, SortedMap.get?_eq_some_iff.2 hs, SortedMap.get?_eq_some_iff.2 ht⟩
  have hknown : (fun target => (c.state? target).isNone) = (· ∉ names) := by
    funext target
    rw [Bool.eq_iff_iff, Option.isNone_iff_eq_none, decide_eq_true_iff, hnames]
  rw [violations_checkTarget, hknown, Function.comp_apply, htransition]
  rfl

/-- With an initial state that exists if there is one, without transitions in final states and
without invoke blocks, a chart can be invalid only by its stray transitions. -/
theorem violations_eq_strays (hnames : ∀ id, c.state? id = none ↔ id ∉ names)
    (hinitial : c.initial = "" ∨ c.initial ∈ names)
    (hfinal : ∀ id s, c.state? id = some s → s.final = true → s.transitions = ∅)
    (hinvoke : ∀ id s, c.state? id = some s → s.invoke = none) :
    c.violations = c.strays names := by
  -- Each hypothesis rules out one of the other kinds of violation.
  have hnone : c.initialViolations = [] := by
    unfold initialViolations
    refine if_neg fun h => ?_
    exact (hnames c.initial).1 h.2 (hinitial.resolve_left h.1)
  have hstates : ∀ e ∈ c.states.toList,
      c.stateViolations e.1 e.2 = c.targetViolations e.1 e.2 := by
    intro e he
    have hs : c.state? e.1 = some e.2 := SortedMap.get?_eq_some_iff.2 he
    have hkind : finalViolations e.1 e.2 = [] := by
      unfold finalViolations
      split
      · next h =>
        rw [hfinal e.1 e.2 hs h]
        rfl
      · rfl
    have hcompletion : c.completionViolations e.1 e.2 = [] := by
      unfold completionViolations
      rw [hinvoke e.1 e.2 hs]
      rfl
    rw [stateViolations, hkind, hcompletion, List.nil_append, List.append_nil]
  rw [violations_eq, hnone, List.nil_append, List.flatMap_congr hstates,
    flatMap_targetViolations hnames]

end Chart

/-! ## Compiled states -/

namespace Node

/-- A final state is declared without transitions, and it keeps none. -/
theorem transitions_state_of_final {n : Node} (h : n.state.final = true) :
    n.state.transitions = ∅ := by
  unfold state at h ⊢
  split at h
  · rfl
  · split at h <;> cases h

/-- No node declares an invoke block. -/
theorem invoke_state (n : Node) : n.state.invoke = none := by
  unfold state
  split
  · rfl
  · split <;> rfl

end Node

namespace Element

variable {tree : Element} {context : Option Json}

/-- The names of the states that are declared among the children. -/
def stateNames (tree : Element) : List String := tree.children.filterMap stateName?

/-- A name has a state just when it is declared. -/
theorem state?_compile_eq_none_iff (tree : Element) (context : Option Json) (id : String) :
    (tree.compile context).state? id = none ↔ id ∉ tree.stateNames := by
  rw [state?_compile, Option.map_eq_none_iff, stateDeclaration?, List.find?_eq_none, stateNames,
    List.mem_filterMap]
  simp

/-- The initial state is declared, if there is one. -/
theorem initial_compile (tree : Element) (context : Option Json) :
    (tree.compile context).initial = "" ∨ (tree.compile context).initial ∈ tree.stateNames := by
  have hnames : tree.normalize.declarations.map Prod.fst = tree.stateNames := by
    rw [declarations_normalize, declarations_eq, List.map_map, List.map_filterMap, stateNames]
    refine List.filterMap_congr fun child _ => ?_
    cases child.stateName? <;> rfl
  show Node.initialState tree.normalize.declarations = "" ∨
    Node.initialState tree.normalize.declarations ∈ tree.stateNames
  rw [← hnames]
  obtain ⟨-, hempty⟩ | ⟨d, hd, hfirst⟩ := Node.initialState_eq tree.normalize.declarations
  · exact .inl hempty
  · rw [hfirst]
    exact .inr (List.mem_map_of_mem hd)

/-- A state of a compiled chart is the state of a node. -/
theorem exists_node_of_state? {id : String} {s : State}
    (hs : (tree.compile context).state? id = some s) : ∃ n : Node, s = n.state := by
  rw [state?_compile] at hs
  obtain ⟨child, -, rfl⟩ := Option.map_eq_some_iff.1 hs
  exact ⟨child.normalize, rfl⟩

/-- The violations of a compiled chart are its transitions that lead to no declared state, in order
of their states and events, and no others. -/
theorem violations_compile (tree : Element) (context : Option Json) :
    (tree.compile context).violations = (tree.compile context).strays tree.stateNames ∧
      (tree.compile context).pairs.Pairwise (Prod.Lex (· < ·) (· < ·)) ∧
      ∀ v ∈ (tree.compile context).violations, ∃ id event target,
        v = .unknownTarget id event target := by
  have hviolations := Chart.violations_eq_strays (tree.state?_compile_eq_none_iff context)
    (tree.initial_compile context)
    (fun id s hs hfinal => by
      obtain ⟨n, rfl⟩ := exists_node_of_state? hs
      exact Node.transitions_state_of_final hfinal)
    (fun id s hs => by
      obtain ⟨n, rfl⟩ := exists_node_of_state? hs
      exact n.invoke_state)
  refine ⟨hviolations, Chart.sorted_pairs _, fun v hv => ?_⟩
  rw [hviolations] at hv
  obtain ⟨p, -, hp⟩ := List.mem_filterMap.1 hv
  obtain ⟨t, -, ht⟩ := Option.bind_eq_some_iff.1 hp
  obtain ⟨target, -, rfl⟩ := Option.map_eq_some_iff.1 ht
  exact ⟨p.1, p.2, target, rfl⟩

/-- A door that starts open, where open is declared a second time, as a final state that opens. It
closes and can then be locked, but locked is not declared. -/
def door : Element :=
  let transition (event target : String) :=
    (component "Transition").withAttribute "event" (.data (.str event))
      |>.withAttribute "target" (.data (.str target))
  let state (name id : String) := (component name).withAttribute "id" (.data (.str id))
  fragment.child (((state "State" "open").withAttribute "initial" (.data (.bool true)))
      |>.child (transition "CLOSE" "closed"))
    |>.child ((state "State" "closed").child (transition "LOCK" "locked")
      |>.child (transition "OPEN" "open"))
    |>.child ((state "Final" "open").child (transition "OPEN" "opened"))

example : (door.compile none).violations = [.unknownTarget "closed" "LOCK" "locked"] := by
  decide +kernel

end Element

end FlatChart
