import FlatChart.Proofs.Occurrence
import FlatChart.Proofs.Tree.Declarations

/-!
# The transitions of a compiled state

What is the transition of a state on an event? `Transition.DeclaredBy` says it of one node, in terms
of what its attributes are: a text for the target, a guard for the condition, a callback and a
reducer for the actions, and data under the names that are not reserved. Exactly one transition is
declared by a node, the one that it compiles to (`Transition.declaredBy_iff`), and every other
attribute may as well be absent (`Transition.declaredBy_counting_iff`).

Of several declarations of one event the last one counts alone: a map that is made of a list finds
what the last item of a name gives (`SortedMap.get?_ofList_eq_some_iff`). `Node.on_state` puts the
two together.
-/

namespace FlatChart

namespace SortedMap

variable {ι α : Type} {key : ι → Option String} {f : ι → α} {items : List ι} {name : String}

/-- A map made of a list finds what the last item of a name gives. -/
theorem get?_ofList_eq_some_iff {v : α} :
    (ofList (items.filterMap fun i => (key i).map fun k => (k, f i))).get? name = some v ↔
      ∃ i, IsLast (fun i => key i = some name) items i ∧ v = f i := by
  simp only [get?_ofList_filterMap, Option.map_eq_some_iff, isLast_iff, eq_comm (a := v)]

/-- A map made of a list has the names of its items. -/
theorem mem_keys_ofList :
    name ∈ (ofList (items.filterMap fun i => (key i).map fun k => (k, f i))).keys ↔
      ∃ i ∈ items, key i = some name := by
  rw [← not_iff_not, ← get?_eq_none_iff, get?_ofList_filterMap, Option.map_eq_none_iff,
    List.find?_eq_none]
  simp

end SortedMap

/-! ## What one node declares -/

/-- A transition is the one that a node declares. -/
structure Transition.DeclaredBy (t : Transition) (m : Node) : Prop where
  /-- The target is the text under its name, if there is one. -/
  target : t.target = m.text? "target"
  /-- The condition is the guard under its name, if there is one. -/
  cond : ∀ g, t.cond = some g ↔ m.attribute? "cond" = some (.guard g)
  /-- The callback under its name comes first, if there is one, and then the reducer. -/
  actions : ∃ effect assign : Option Action, t.actions = effect.toList ++ assign.toList ∧
    (∀ a, effect = some a ↔ ∃ f, m.attribute? "action" = some (.callback f) ∧ .effect f = a) ∧
    ∀ a, assign = some a ↔ ∃ f, m.attribute? "assign" = some (.reducer f) ∧ .assign f = a
  /-- What is carried along is the data under names that are not reserved. -/
  extra : ∀ key v, t.extra.get? key = some v ↔
    m.attribute? key = some (.data v) ∧ key ∉ Transition.reservedKeys

namespace Attribute

variable {N : Type} {a : Attribute N}

/-- What is read as a callback is one. -/
theorem callback?_eq_some_iff {f : Callback} : a.callback? = some f ↔ a = .callback f := by
  cases a <;> simp [callback?]

/-- What is read as a guard is one. -/
theorem guard?_eq_some_iff {f : Guard} : a.guard? = some f ↔ a = .guard f := by
  cases a <;> simp [guard?]

/-- What is read as a reducer is one. -/
theorem reducer?_eq_some_iff {f : Reducer} : a.reducer? = some f ↔ a = .reducer f := by
  cases a <;> simp [reducer?]

/-- What is read as data is data. -/
theorem data?_eq_some_iff {v : Json} : a.data? = some v ↔ a = .data v := by
  cases a <;> simp [data?]

/-- An attribute of one kind is read just when there is one. -/
theorem bind_eq_some_iff {α : Type} {read : Attribute N → Option α} {make : α → Attribute N}
    (hread : ∀ {a v}, read a = some v ↔ a = make v) {o : Option (Attribute N)} {v : α} :
    o.bind read = some v ↔ o = some (make v) := by
  rw [Option.bind_eq_some_iff]
  simp [hread]

end Attribute

namespace Transition

variable {t : Transition} {m : Node}

/-- A node declares the transition that it compiles to. -/
theorem declaredBy_transition (m : Node) : m.transition.DeclaredBy m := by
  -- Condition and actions are each read off one attribute, and what is carried along off any.
  refine ⟨rfl, fun g => ?_, ⟨_, _, rfl, fun a => ?_, fun a => ?_⟩, fun key v => ?_⟩
  · exact Attribute.bind_eq_some_iff Attribute.guard?_eq_some_iff
  · simp only [Option.map_eq_some_iff, Attribute.bind_eq_some_iff Attribute.callback?_eq_some_iff]
  · simp only [Option.map_eq_some_iff, Attribute.bind_eq_some_iff Attribute.reducer?_eq_some_iff]
  · have hextra : m.transition.extra = m.extra := rfl
    rw [hextra, Node.extra, SortedMap.get?_filterMap, Node.attribute?, isReserved_eq_decide]
    by_cases hkey : key ∈ reservedKeys
    · simp [hkey]
    · simp only [hkey]
      simpa using Attribute.bind_eq_some_iff Attribute.data?_eq_some_iff

/-- A node declares no two transitions. -/
theorem DeclaredBy.unique {u : Transition} (ht : t.DeclaredBy m) (hu : u.DeclaredBy m) : t = u := by
  -- Each part is told by what there is of it in the node.
  obtain ⟨effect, assign, hactions, heffect, hassign⟩ := ht.actions
  obtain ⟨effect', assign', hactions', heffect', hassign'⟩ := hu.actions
  have hactions : t.actions = u.actions := by
    have h : effect = effect' := Option.ext fun a => (heffect a).trans (heffect' a).symm
    have h' : assign = assign' := Option.ext fun a => (hassign a).trans (hassign' a).symm
    rw [hactions, hactions', h, h']
  have hcond : t.cond = u.cond := Option.ext fun g => (ht.cond g).trans (hu.cond g).symm
  have hextra : t.extra = u.extra := SortedMap.ext_get? fun key =>
    Option.ext fun v => (ht.extra key v).trans (hu.extra key v).symm
  have htarget : t.target = u.target := ht.target.trans hu.target.symm
  cases t
  cases u
  simp_all

/-- The transition that a node declares is the one that it compiles to. -/
theorem declaredBy_iff : t.DeclaredBy m ↔ t = m.transition := by
  constructor
  · intro ht
    exact ht.unique (declaredBy_transition m)
  · rintro rfl
    exact declaredBy_transition m

end Transition

/-! ## What counts -/

/-- Whether an attribute counts for the transition that its node declares. -/
def Transition.counts (key : String) : Attribute Node → Bool
  | .data v =>
    key ∉ reservedKeys || key == "target" && (Attribute.data v : Attribute Node).text?.isSome
  | .callback _ => key == "action"
  | .guard _ => key == "cond"
  | .reducer _ => key == "assign"
  | _ => false

namespace Node

/-- The node with nothing but the attributes that count for a transition. -/
def counting (m : Node) : Node := { m with attributes := m.attributes.filter Transition.counts }

/-- An attribute that counts is kept. -/
theorem attribute?_counting {m : Node} {key : String} {a : Attribute Node}
    (ha : Transition.counts key a = true) :
    m.counting.attribute? key = some a ↔ m.attribute? key = some a := by
  rw [attribute?, counting, SortedMap.get?_filter, Option.filter_eq_some_iff, attribute?]
  simp [ha]

/-- The text of the target is kept. -/
theorem text?_counting (m : Node) : m.counting.text? "target" = m.text? "target" := by
  have hkept : m.counting.attribute? "target" =
      (m.attribute? "target").filter (Transition.counts "target") := SortedMap.get?_filter ..
  rw [text?, text?, hkept]
  cases m.attribute? "target" with
  | none => rfl
  | some a =>
    -- What is dropped under this name has no text.
    cases htext : a.text? with
    | none =>
      rw [Option.filter_some]
      split <;> simp [htext]
    | some text =>
      have ha : Transition.counts "target" a = true := by
        cases a <;> simp_all [Transition.counts, Attribute.text?]
      rw [Option.filter_some, if_pos ha]

end Node

namespace Transition

variable {t : Transition} {m : Node}

/-- What a node declares is declared by the attributes that count. -/
theorem DeclaredBy.counting (ht : t.DeclaredBy m) : t.DeclaredBy m.counting := by
  obtain ⟨effect, assign, hactions, heffect, hassign⟩ := ht.actions
  have hcallback : ∀ f, m.counting.attribute? "action" = some (.callback f) ↔
      m.attribute? "action" = some (.callback f) := fun _ => Node.attribute?_counting rfl
  have hreducer : ∀ f, m.counting.attribute? "assign" = some (.reducer f) ↔
      m.attribute? "assign" = some (.reducer f) := fun _ => Node.attribute?_counting rfl
  refine ⟨?_, fun g => ?_, ⟨effect, assign, hactions, fun a => ?_, fun a => ?_⟩, fun key v => ?_⟩
  · rw [Node.text?_counting]
    exact ht.target
  · rw [Node.attribute?_counting rfl]
    exact ht.cond g
  · simp only [hcallback]
    exact heffect a
  · simp only [hreducer]
    exact hassign a
  · rw [ht.extra]
    refine and_congr_left fun hkey => (Node.attribute?_counting ?_).symm
    simp [counts, hkey]

/-- All other attributes contribute nothing. -/
theorem declaredBy_counting_iff : t.DeclaredBy m.counting ↔ t.DeclaredBy m := by
  constructor
  · intro ht
    exact declaredBy_iff.2 (ht.unique (declaredBy_transition m).counting)
  · exact DeclaredBy.counting

end Transition

/-! ## What a state has on an event -/

namespace Node

/-- A state with children has transitions on the events of its children, each the one that the last
child with that event declares, by the attributes that count. -/
theorem on_state (n : Node) (hstate : n.tag = .state) (hchildren : n.attribute? "children" ≠ none) :
    ∃ on, n.state.on = some on ∧
      (∀ event, event ∈ on.keys ↔
        ∃ m ∈ n.children, m.tag = .transition ∧ m.text? "event" = some event) ∧
      (∀ event t, on.get? event = some t ↔
        ∃ m, IsLast (fun m => m.tag = .transition ∧ m.text? "event" = some event) n.children m ∧
          t.DeclaredBy m) ∧
      ∀ m (t : Transition), t.DeclaredBy m ↔ t.DeclaredBy m.counting := by
  have hon : n.state = { on := some n.transitions } := by
    have hfinal : n.tag ≠ .final := by simp [hstate]
    rw [state_of_not_final hfinal, if_pos]
    rw [hasChildren_eq]
    exact Option.isSome_iff_ne_none.2 hchildren
  refine ⟨n.transitions, by rw [hon], fun event => ?_, fun event t => ?_, fun m t => ?_⟩
  · rw [transitions_eq, SortedMap.mem_keys_ofList]
    simp only [eventName?_eq_some_iff]
  · rw [transitions_eq, SortedMap.get?_ofList_eq_some_iff]
    simp only [eventName?_eq_some_iff, Transition.declaredBy_iff]
  · exact Transition.declaredBy_counting_iff.symm

/-- A valve with two declarations of one transition. The second one, in a list of its own, has its
reducer set before its callback, a guard for a target, a callback for a condition, and data under a
reserved name. -/
def valve : Node :=
  let turn (attributes : List (String × Attribute Node)) : Attribute Node :=
    .node ⟨.transition, .ofList (("event", .data (.str "TURN")) :: attributes)⟩
  ⟨.state, .ofList [("children", .list
    [turn [("target", .data (.str "shut")), ("force", .data (.bool true))],
      .list [turn [("assign", .reducer ⟨0, none, id⟩), ("action", .callback ⟨1, none⟩),
        ("target", .guard ⟨2, none, fun _ => true⟩), ("cond", .callback ⟨3, none⟩),
        ("type", .data (.str "push")), ("note", .data .null)]]])]⟩

/-- The valve has the second transition: with its callback before its reducer, without a target and
a condition, and with the data under a free name. -/
theorem on_state_valve : valve.tag = .state ∧ valve.attribute? "children" ≠ none ∧
    ∃ on t, valve.state.on = some on ∧ on.get? "TURN" = some t ∧
      (∃ m, IsLast (fun m => m.tag = .transition ∧ m.text? "event" = some "TURN") valve.children m ∧
        t.DeclaredBy m) ∧
      t.target = none ∧ t.cond.isNone = true ∧
      t.actions.map Action.label = ["callback", "reducer"] ∧ t.extra.keys = ["note"] := by
  have hchildren : valve.attribute? "children" ≠ none :=
    Option.isSome_iff_ne_none.1 (by decide +kernel)
  obtain ⟨on, hon, -, hget, -⟩ := on_state valve rfl hchildren
  have hturn : (valve.state.on.bind (·.get? "TURN")).map (fun t =>
      (t.target, t.cond.isNone, t.actions.map Action.label, t.extra.keys)) =
      some (none, true, ["callback", "reducer"], ["note"]) := by
    decide +kernel
  rw [hon] at hturn
  obtain ⟨t, ht, hparts⟩ := Option.map_eq_some_iff.1 hturn
  simp only [Prod.mk.injEq] at hparts
  exact ⟨rfl, hchildren, on, t, hon, ht, (hget "TURN" t).1 ht, hparts⟩

end Node

end FlatChart
