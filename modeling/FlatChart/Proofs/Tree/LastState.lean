import FlatChart.Proofs.Tree.LastTransition

/-!
# The states of a compiled tree

Which chart does a tree compile to? `Node.stateNodes` are the children that declare a state: those
with the tag of one and a text for a name. Nothing else of the tree is read. `Chart.DeclaredBy` says
of a chart what these nodes make of it: its states have their names, each is the state of the last
node with its name, and the machine starts in the first node that is marked, whether or not another
one takes its name, else in the first one (`Node.StartsAt`). There is exactly one such chart with a
given context, the one that the tree compiles to (`Node.eq_compile_iff`).
-/

namespace FlatChart

namespace Node

/-- The children that declare a state: those of the right tag with a text for a name. -/
def stateNodes (root : Node) : List Node :=
  root.children.filter fun n => (n.tag = .state ∨ n.tag = .final) ∧ (n.text? "id").isSome

/-- Where a machine starts whose states are declared by some nodes. -/
inductive StartsAt (nodes : List Node) : String → Prop
  /-- It starts in the first node that is marked. -/
  | marked {n : Node} {id : String} (first : IsFirst (fun n => n.isTruthy "initial" = true) nodes n)
    (name : n.text? "id" = some id) : StartsAt nodes id
  /-- Without a marked node it starts in the first one. -/
  | first {n : Node} {id : String} (unmarked : ∀ m ∈ nodes, m.isTruthy "initial" = false)
    (head : nodes.head? = some n) (name : n.text? "id" = some id) : StartsAt nodes id
  /-- Without a node it starts in a state with an empty name, which there is not. -/
  | nowhere (none : nodes = []) : StartsAt nodes ""

end Node

/-- A chart is the one that some nodes declare. -/
structure Chart.DeclaredBy (c : Chart) (nodes : List Node) : Prop where
  /-- The names of the states are those of the nodes. -/
  names : ∀ id, id ∈ c.states.keys ↔ ∃ n ∈ nodes, n.text? "id" = some id
  /-- Under a name is the state of the last node of that name. -/
  states : ∀ id s, c.state? id = some s ↔
    ∃ n, IsLast (fun n => n.text? "id" = some id) nodes n ∧ s = n.state
  /-- The initial state is the name of the first marked node, else of the first one. -/
  initial : Node.StartsAt nodes c.initial

namespace Node

/-- The declarations are those of the children that declare a state. -/
theorem declarations_eq (root : Node) :
    root.declarations = root.stateNodes.filterMap fun n =>
      (n.text? "id").map fun id => (id, n) := by
  rw [stateNodes, List.filterMap_filter, declarations]
  refine List.filterMap_congr fun n _ => ?_
  have htag : n.tag.isStateLike = true ↔ n.tag = .state ∨ n.tag = .final := by
    cases n.tag <;> simp [Tag.isStateLike]
  cases n.text? "id" <;> simp [htag]

/-- The states of a compiled tree are those of the children that declare one. -/
theorem states_compile (root : Node) (context : Option Json) :
    (root.compile context).states = .ofList (root.stateNodes.filterMap fun n =>
      (n.text? "id").map fun id => (id, n.state)) := by
  show SortedMap.ofList (root.declarations.map fun d => (d.1, d.2.state)) = _
  rw [declarations_eq, List.map_filterMap]
  congr 2
  funext n
  cases n.text? "id" <;> rfl

/-! ## Where the machine starts -/

/-- The name of a node, empty without one. -/
def name (n : Node) : String := (n.text? "id").getD ""

/-- The node in which a machine starts: the first one that is marked, else the first one. -/
def start? (nodes : List Node) : Option Node :=
  (nodes.find? fun n => n.isTruthy "initial").or nodes.head?

/-- A child that declares a state has a name. -/
theorem text?_of_mem_stateNodes {root n : Node} (hn : n ∈ root.stateNodes) :
    n.text? "id" = some n.name := by
  have hname : (n.text? "id").isSome = true := by
    rw [stateNodes, List.mem_filter, decide_eq_true_eq] at hn
    exact hn.2.2
  obtain ⟨id, hid⟩ := Option.isSome_iff_exists.1 hname
  rw [name, hid]
  rfl

/-- A compiled machine starts in the node where it should. -/
theorem initial_compile (root : Node) (context : Option Json) :
    (root.compile context).initial = ((start? root.stateNodes).map name).getD "" := by
  -- No node is dropped for want of a name, so the declarations are the nodes with their names.
  have hdeclarations : root.declarations = root.stateNodes.map fun n => (n.name, n) := by
    rw [declarations_eq, ← List.filterMap_eq_map]
    refine List.filterMap_congr fun n hn => ?_
    rw [text?_of_mem_stateNodes hn]
    rfl
  show initialState root.declarations = _
  rw [initialState_eq_getD, hdeclarations, List.find?_map, List.head?_map, start?]
  simp only [Option.map_map, Function.comp_def]
  cases root.stateNodes.find? fun n => n.isTruthy "initial" <;> rfl

/-- A machine starts in one place only. -/
theorem StartsAt.eq_name {nodes : List Node} {id : String} (h : StartsAt nodes id) :
    id = ((start? nodes).map name).getD "" := by
  rw [start?]
  cases h with
  | @marked n id first hname =>
    -- The first marked node is the one that is found.
    have hfind := isFirst_iff.1 first
    simp only [Bool.decide_eq_true] at hfind
    simp [hfind, name, hname]
  | @first n id unmarked head hname =>
    have hfind : nodes.find? (fun n => n.isTruthy "initial") = none :=
      List.find?_eq_none.2 fun m hm => by simp [unmarked m hm]
    simp [hfind, head, name, hname]
  | nowhere none => simp [none]

/-- The machine of a compiled tree starts where its nodes say. -/
theorem startsAt_compile (root : Node) (context : Option Json) :
    StartsAt root.stateNodes (root.compile context).initial := by
  rw [initial_compile, start?]
  cases hfind : root.stateNodes.find? fun n => n.isTruthy "initial" with
  | some n =>
    have hfirst : IsFirst (fun n => n.isTruthy "initial" = true) root.stateNodes n :=
      isFirst_iff.2 (by simpa using hfind)
    exact .marked hfirst (text?_of_mem_stateNodes (List.mem_of_find?_eq_some hfind))
  | none =>
    have hunmarked : ∀ m ∈ root.stateNodes, m.isTruthy "initial" = false := fun m hm => by
      simpa using List.find?_eq_none.1 hfind m hm
    cases hhead : root.stateNodes.head? with
    | some n => exact .first hunmarked hhead (text?_of_mem_stateNodes (List.mem_of_mem_head? hhead))
    | none => exact .nowhere (List.head?_eq_none_iff.1 hhead)

/-! ## The chart -/

/-- A tree compiles to the chart that its children declare. -/
theorem declaredBy_compile (root : Node) (context : Option Json) :
    (root.compile context).DeclaredBy root.stateNodes := by
  refine ⟨fun id => ?_, fun id s => ?_, root.startsAt_compile context⟩
  · rw [states_compile, SortedMap.mem_keys_ofList]
  · rw [Chart.state?, states_compile, SortedMap.get?_ofList_eq_some_iff]

end Node

/-- Some nodes declare no two charts with the same context. -/
theorem Chart.DeclaredBy.unique {c d : Chart} {nodes : List Node} (hc : c.DeclaredBy nodes)
    (hd : d.DeclaredBy nodes) (hcontext : c.context = d.context) : c = d := by
  have hinitial : c.initial = d.initial := hc.initial.eq_name.trans hd.initial.eq_name.symm
  have hstates : c.states = d.states := SortedMap.ext_get? fun id =>
    Option.ext fun s => (hc.states id s).trans (hd.states id s).symm
  cases c
  cases d
  simp_all

namespace Node

/-- A tree compiles to the one chart with the context that its children declare, whatever else there
is in the tree. A node that is final declares a final state with nothing else, and of the others
those without children declare no transitions. -/
theorem eq_compile_iff (root : Node) (context : Option Json) :
    (∀ c, c = root.compile context ↔ c.context = context ∧ c.DeclaredBy root.stateNodes) ∧
      (∀ n : Node, n.tag = .final → n.state = { final := true }) ∧
      (∀ n : Node, n.tag = .state → n.state = { on := n.state.on } ∧
        (n.state.on = none ↔ n.attribute? "children" = none)) ∧
      ∀ other : Node, other.stateNodes = root.stateNodes →
        other.compile context = root.compile context := by
  refine ⟨fun c => ⟨?_, ?_⟩, fun n => state_of_final, fun n hn => ?_, fun other hother => ?_⟩
  · rintro rfl
    exact ⟨rfl, root.declaredBy_compile context⟩
  · rintro ⟨hcontext, hc⟩
    exact hc.unique (root.declaredBy_compile context) hcontext
  · rw [state_of_not_final (by simp [hn]), hasChildren_eq]
    cases n.attribute? "children" <;> simp
  · have hc := other.declaredBy_compile context
    rw [hother] at hc
    exact hc.unique (root.declaredBy_compile context) rfl

/-- The state of a lantern that is lit, which is marked. -/
def lit : Node := ⟨.state, .ofList [("id", .data (.str "lit")),
  ("initial", .data (.bool true)), ("children", .data .null)]⟩

/-- The state of a lantern that is out, marked as well. -/
def out : Node := ⟨.state, .ofList [("id", .data (.str "out")), ("initial", .data (.bool true))]⟩

/-- Lit, declared once more as final. -/
def litAgain : Node := ⟨.final, .ofList [("id", .data (.str "lit")), ("children", .data .null)]⟩

/-- A lantern of these three, with things in between that declare no state, and with attributes of
its own. -/
def lantern (tag : Tag) (own : List (String × Attribute Node)) (clutter : List (Attribute Node)) :
    Node :=
  ⟨tag, .ofList (("children", .list
    (clutter ++ [.node lit, .list (clutter ++ [.node out]), .node litAgain])) :: own)⟩

/-- A marked node without a name, a transition with one, and data. -/
def clutter : List (Attribute Node) :=
  [.node ⟨.state, .ofList [("initial", .data (.bool true))]⟩,
    .node ⟨.transition, .ofList [("id", .data (.str "dim"))]⟩, .data (.str "dark")]

/-- Neither the clutter nor what the lantern is matters. Its state that is lit is the final one,
which is declared last, and is initial as its first declaration is marked. -/
theorem eq_compile_lantern :
    (lantern .final [("id", .data (.str "lamp"))] clutter).compile none =
        (lantern (.other none) [] []).compile none ∧
      ((lantern (.other none) [] []).compile none).DeclaredBy [lit, out, litAgain] ∧
      ((lantern (.other none) [] []).compile none).initial = "lit" ∧
      ((lantern (.other none) [] []).compile none).state? "lit" = some { final := true } ∧
      ((lantern (.other none) [] []).compile none).state? "out" = some {} := by
  obtain ⟨hchart, hfinal, hstate, hother⟩ := eq_compile_iff (lantern (.other none) [] []) none
  obtain ⟨-, hdeclared⟩ := (hchart _).1 rfl
  have hlit : ((lantern (.other none) [] []).compile none).state? "lit" = some litAgain.state :=
    (hdeclared.states "lit" _).2 ⟨litAgain, ⟨[lit, out], [], rfl, rfl, by simp⟩, rfl⟩
  have hout : ((lantern (.other none) [] []).compile none).state? "out" = some out.state :=
    (hdeclared.states "out" _).2 ⟨out, ⟨[lit], [litAgain], rfl, rfl, by decide +kernel⟩, rfl⟩
  obtain ⟨hon, hnone⟩ := hstate out rfl
  rw [hfinal litAgain rfl] at hlit
  rw [hon, hnone.2 rfl] at hout
  exact ⟨hother (lantern .final [("id", .data (.str "lamp"))] clutter) rfl, hdeclared,
    by decide +kernel, hlit, hout⟩

end Node

end FlatChart
