import FlatChart.Proofs.Builder.Focused
import FlatChart.Proofs.Chart.Pairs
import FlatChart.Proofs.Tree.Declarations

/-!
# Functions in the tree or on the builder

The functions of a transition stand in the tree, as attributes of the element that declares it, or
they are attached to the chart of the tree without them. `Element.visit` are the calls that attach
what one declaration has, and a session of visits wires the chart pair by pair (`Chart.wiredOn`).
`Element.run_visits` says that both ways give the same chart, in whatever order the pairs are
visited.
-/

namespace FlatChart

/-! ## Visits -/

namespace Element

/-- The calls that add the callback and then the reducer of an element. -/
def actionCalls (e : Element) : List Call :=
  (((e.attributes.get? "action").bind Attribute.callback?).map Call.action).toList ++
    (((e.attributes.get? "assign").bind Attribute.reducer?).map Call.assign).toList

/-- The call that sets the guard of an element. -/
def guardCalls (e : Element) : List Call :=
  (((e.attributes.get? "cond").bind Attribute.guard?).map Call.cond).toList

/-- All these calls, the guard being set after the first `point` of the others. -/
def wiring (e : Element) (point : ℕ) : List Call :=
  e.actionCalls.take point ++ e.guardCalls ++ e.actionCalls.drop point

/-- The calls of a visit: a state and an event are focused, and what the declaration of their
transition has is attached. -/
def visit (tree : Element) (point : String × String → ℕ) (p : String × String) : List Call :=
  .focus { state := some p.1, event := some p.2 } ::
    ((tree.declaration? p.1 p.2).map (·.wiring (point p))).getD []

/-- A call that adds an action adds a callback or a reducer. -/
theorem exists_of_mem_actionCalls {e : Element} {call : Call} (h : call ∈ e.actionCalls) :
    (∃ f, call = .action f) ∨ ∃ f, call = .assign f := by
  rcases List.mem_append.1 h with h | h
  · obtain ⟨f, -, rfl⟩ := Option.map_eq_some_iff.1 (Option.mem_toList.1 h)
    exact .inl ⟨f, rfl⟩
  · obtain ⟨f, -, rfl⟩ := Option.map_eq_some_iff.1 (Option.mem_toList.1 h)
    exact .inr ⟨f, rfl⟩

/-- All that is attached is attached to a transition. -/
theorem decorates_of_mem_wiring {e : Element} {point : ℕ} {call : Call}
    (h : call ∈ e.wiring point) : call.decorates := by
  have hactions : call ∈ e.actionCalls → call.decorates := by
    intro h
    obtain ⟨f, rfl⟩ | ⟨f, rfl⟩ := exists_of_mem_actionCalls h
    · rfl
    · rfl
  rw [wiring, List.mem_append, List.mem_append] at h
  obtain (h | h) | h := h
  · exact hactions (List.mem_of_mem_take h)
  · obtain ⟨f, -, rfl⟩ := Option.map_eq_some_iff.1 (Option.mem_toList.1 h)
    rfl
  · exact hactions (List.mem_of_mem_drop h)

/-- The actions that are added are those that the element declares, wherever the guard is set. -/
theorem filterMap_action?_wiring (e : Element) (point : ℕ) :
    (e.wiring point).filterMap Call.action? = e.normalize.actions := by
  have hactions : e.actionCalls.filterMap Call.action? = e.normalize.actions := by
    simp only [actionCalls, Node.actions, attribute?_normalize, Option.bind_map, Function.comp_def,
      Attribute.callback?_normalize, Attribute.reducer?_normalize, List.filterMap_append]
    cases (e.attributes.get? "action").bind Attribute.callback? <;>
      cases (e.attributes.get? "assign").bind Attribute.reducer? <;> rfl
  have hguard : e.guardCalls.filterMap Call.action? = [] := by
    unfold guardCalls
    cases (e.attributes.get? "cond").bind Attribute.guard? <;> rfl
  rw [wiring, List.filterMap_append, List.filterMap_append, hguard, List.append_nil,
    ← List.filterMap_append, List.take_append_drop, hactions]

/-- The guard that is set is the one that the element declares. -/
theorem filterMap_guard?_wiring (e : Element) (point : ℕ) :
    (e.wiring point).filterMap Call.guard? =
      ((e.normalize.attribute? "cond").bind Attribute.guard?).toList := by
  have hactions : ∀ calls : List Call, (∀ call ∈ calls, call ∈ e.actionCalls) →
      calls.filterMap Call.guard? = [] := by
    intro calls hcalls
    refine List.filterMap_eq_nil_iff.2 fun call hcall => ?_
    obtain ⟨f, rfl⟩ | ⟨f, rfl⟩ := exists_of_mem_actionCalls (hcalls call hcall)
    · rfl
    · rfl
  have hguard : e.guardCalls.filterMap Call.guard? =
      ((e.normalize.attribute? "cond").bind Attribute.guard?).toList := by
    simp only [guardCalls, attribute?_normalize, Option.bind_map, Function.comp_def,
      Attribute.guard?_normalize]
    cases (e.attributes.get? "cond").bind Attribute.guard? <;> rfl
  rw [wiring, List.filterMap_append, List.filterMap_append, hguard,
    hactions _ fun _ => List.mem_of_mem_take, hactions _ fun _ => List.mem_of_mem_drop,
    List.nil_append, List.append_nil]

/-- The transition of an element without its functions becomes the transition of the element when
they are attached to it. -/
theorem logged_wiring (e : Element) (point : ℕ) :
    e.normalize.transition.strip.logged (e.wiring point) = e.normalize.transition := by
  rw [Transition.logged, filterMap_action?_wiring, filterMap_guard?_wiring, Node.strip_transition,
    Node.transition]
  cases (e.normalize.attribute? "cond").bind Attribute.guard? <;> rfl

end Element

/-! ## Charts wired in part -/

/-- The chart of which only the transitions of some pairs have actions and guards. -/
def Chart.wiredOn (c : Chart) (wired : List (String × String)) : Chart :=
  c.mapTransitions fun id event t => if (id, event) ∈ wired then t else t.strip

/-- The chart is wired on all its pairs. -/
theorem Chart.wiredOn_eq_self {c : Chart} {wired : List (String × String)}
    (h : ∀ p ∈ c.pairs, p ∈ wired) : c.wiredOn wired = c :=
  mapTransitions_eq_self fun id event t ht => if_pos (h (id, event) (mem_pairs.2 ⟨t, ht⟩))

/-- A declared state has no hooks and no invoke block. -/
theorem Node.strip_state (n : Node) :
    n.state.strip = { n.state with on := n.state.on.map (·.map Transition.strip) } := by
  unfold state
  split
  · rfl
  · split <;> rfl

namespace Element

variable {tree : Element} {context : Option Json}

/-- Without its functions a tree compiles to its chart wired on no pair. -/
theorem compile_unwired_eq_wiredOn (tree : Element) (context : Option Json) :
    tree.unwired.compile context = (tree.compile context).wiredOn [] := by
  have hstates : (tree.compile context).states.map State.strip =
      ((tree.compile context).wiredOn []).states := by
    simp only [Chart.wiredOn, Chart.mapTransitions, List.not_mem_nil, if_false,
      SortedMap.map_eq_mapEntries]
    apply SortedMap.mapEntries_congr
    intro id s hs
    have hdeclared : (tree.compile context).state? id = some s := hs
    rw [state?_compile] at hdeclared
    obtain ⟨child, -, rfl⟩ := Option.map_eq_some_iff.1 hdeclared
    simp only [Node.strip_state, SortedMap.map_eq_mapEntries]
  rw [compile_unwired, Chart.strip, hstates]
  rfl

/-! ## Sessions of visits -/

/-- A visit to one more pair succeeds and wires the chart on this pair. -/
theorem run_visit {b : Builder} {wired : List (String × String)} {p : String × String}
    (point : String × String → ℕ) (hchart : b.chart = (tree.compile context).wiredOn wired)
    (hp : p ∈ (tree.compile context).pairs) (hnew : p ∉ wired) (hstate : p.1 ≠ "")
    (hevent : p.2 ≠ "") :
    ∃ cursor, b.run (tree.visit point p) =
      (List.replicate (tree.visit point p).length .ok,
        ⟨(tree.compile context).wiredOn (wired ++ [p]), cursor⟩) := by
  obtain ⟨id, event⟩ := p
  obtain ⟨t, ht⟩ := Chart.mem_pairs.1 hp
  obtain ⟨e, he, rfl⟩ := transition?_compile ht
  have hvisit : tree.visit point (id, event) =
      .focus { state := some id, event := some event } :: e.wiring (point (id, event)) := by
    simp only [visit, he, Option.map_some, Option.getD_some]
  have hfound : (b.chart.transition? id event).isSome := by
    rw [hchart, Chart.wiredOn, Chart.transition?_mapTransitions, ht]
    rfl
  have hwired : b.chart.modifyTransition id event (·.logged (e.wiring (point (id, event)))) =
      (tree.compile context).wiredOn (wired ++ [(id, event)]) := by
    rw [hchart, Chart.wiredOn, Chart.modifyTransition_mapTransitions]
    apply Chart.mapTransitions_congr
    intro id' event' t' ht'
    by_cases h : id' = id ∧ event' = event
    · obtain ⟨rfl, rfl⟩ := h
      obtain rfl := Option.some.inj (ht.symm.trans ht')
      simp [hnew, logged_wiring]
    · simp [h]
  have hrun := Builder.run_decorates (b := b.focus { state := some id, event := some event })
    (b.cursor.move_pair hstate hevent) hfound (e.wiring (point (id, event)))
    fun _ => decorates_of_mem_wiring
  refine ⟨b.cursor.move { state := some id, event := some event }, ?_⟩
  rw [hvisit, Builder.run_cons, ← hwired]
  simp only [Call.run, hrun]
  rfl

/-- Visits to further pairs succeed one after the other and wire the chart on these pairs. -/
theorem run_flatMap_visit (point : String × String → ℕ) :
    ∀ (order wired : List (String × String)) (b : Builder),
      b.chart = (tree.compile context).wiredOn wired → (wired ++ order).Nodup →
      (∀ p ∈ order, p ∈ (tree.compile context).pairs ∧ p.1 ≠ "" ∧ p.2 ≠ "") →
      ∃ cursor, b.run (order.flatMap (tree.visit point)) =
        (List.replicate (order.flatMap (tree.visit point)).length .ok,
          ⟨(tree.compile context).wiredOn (wired ++ order), cursor⟩)
  | [], wired, b, hchart, _, _ => by
    refine ⟨b.cursor, ?_⟩
    rw [List.append_nil, ← hchart]
    rfl
  | p :: rest, wired, b, hchart, hnodup, hpairs => by
    obtain ⟨⟨hp, hstate, hevent⟩, hrest⟩ := List.forall_mem_cons.1 hpairs
    have hnew : p ∉ wired := fun h =>
      (List.nodup_append.1 hnodup).2.2 p h p (List.mem_cons_self ..) rfl
    obtain ⟨cursor, hvisit⟩ := run_visit point hchart hp hnew hstate hevent
    rw [List.append_cons] at hnodup
    obtain ⟨cursor', hvisits⟩ := run_flatMap_visit point rest (wired ++ [p])
      ⟨(tree.compile context).wiredOn (wired ++ [p]), cursor⟩ rfl hnodup hrest
    refine ⟨cursor', ?_⟩
    rw [List.flatMap_cons, Builder.run_append, hvisit]
    simp only [hvisits, List.length_append, List.replicate_add, List.append_assoc,
      List.cons_append, List.nil_append]

/-- A session that starts with the chart of a tree without its functions, and visits every state and
event of the chart of the tree once, succeeds in every call and gives the chart of the tree,
whatever the order of the visits and wherever in a visit the guard is set. -/
theorem run_visits (tree : Element) (context : Option Json) (order : List (String × String))
    (point : String × String → ℕ) (horder : order.Perm (tree.compile context).pairs)
    (hnames : ∀ p ∈ (tree.compile context).pairs, p.1 ≠ "" ∧ p.2 ≠ "") :
    ∃ cursor, (tree.unwired.compile context).build.run (order.flatMap (tree.visit point)) =
      (List.replicate (order.flatMap (tree.visit point)).length .ok,
        ⟨tree.compile context, cursor⟩) := by
  have hchart : (tree.unwired.compile context).build.chart =
      (tree.compile context).wiredOn [] := tree.compile_unwired_eq_wiredOn context
  have hnodup : ([] ++ order).Nodup := horder.nodup_iff.2 (tree.compile context).nodup_pairs
  have hpairs : ∀ p ∈ order, p ∈ (tree.compile context).pairs ∧ p.1 ≠ "" ∧ p.2 ≠ "" := fun p hp =>
    have hmem := horder.mem_iff.1 hp
    ⟨hmem, hnames p hmem⟩
  obtain ⟨cursor, hrun⟩ := run_flatMap_visit point order [] _ hchart hnodup hpairs
  have hall : (tree.compile context).wiredOn ([] ++ order) = tree.compile context :=
    Chart.wiredOn_eq_self fun p hp => horder.mem_iff.2 hp
  rw [hall] at hrun
  exact ⟨cursor, hrun⟩

/-- A state that is declared twice, with two transitions on one event and another one, which has a
callback, a reducer and a guard. -/
def dimmer : Element :=
  let state := (component "State").withAttribute "id" (.data (.str "lit"))
  let press := (component "Transition").withAttribute "event" (.data (.str "PRESS"))
  let turn := ((component "Transition").withAttribute "event" (.data (.str "TURN")))
    |>.withAttribute "action" (.callback ⟨0, none⟩)
    |>.withAttribute "assign" (.reducer ⟨1, none, id⟩)
    |>.withAttribute "cond" (.guard ⟨2, none, fun _ => true⟩)
  fragment.child (state.child (press.withAttribute "cond" (.guard ⟨3, none, fun _ => false⟩)))
    |>.child (state.child (press.withAttribute "action" (.callback ⟨4, none⟩))
      |>.child turn |>.child (press.withAttribute "assign" (.reducer ⟨5, none, id⟩)))

/-- Wired in the other order of its pairs, and with the guard right after the callback, the bare
dimmer becomes the one that was compiled. -/
theorem run_visits_dimmer :
    ∃ cursor, (dimmer.unwired.compile none).build.run
        ([("lit", "TURN"), ("lit", "PRESS")].flatMap (dimmer.visit fun _ => 1)) =
      (List.replicate 6 .ok, ⟨dimmer.compile none, cursor⟩) := by
  have hpairs : (dimmer.compile none).pairs = [("lit", "PRESS"), ("lit", "TURN")] := by
    decide +kernel
  have hlength : ([("lit", "TURN"), ("lit", "PRESS")].flatMap
      (dimmer.visit fun _ => 1)).length = 6 := by decide +kernel
  have h := run_visits dimmer none [("lit", "TURN"), ("lit", "PRESS")] (fun _ => 1)
    (by rw [hpairs]; decide) (by rw [hpairs]; decide)
  rw [hlength] at h
  exact h

end Element

end FlatChart
