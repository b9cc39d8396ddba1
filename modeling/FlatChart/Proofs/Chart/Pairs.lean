import Mathlib.Data.List.Nodup
import FlatChart.Proofs.Chart.Modify

/-!
# Transitions by state and event

The transitions of a chart are found by pairs of a state and an event (`Chart.pairs`), and
`Chart.mapTransitions` changes each of them by a function of its pair and leaves everything else as
it is. Changing one transition of a chart is changing all of them by one more case
(`Chart.modifyTransition_mapTransitions`).
-/

namespace FlatChart.Chart

variable {c : Chart} {id event : String}

/-! ## Pairs -/

/-- The pairs of a state and an event that have a transition, in order. -/
def pairs (c : Chart) : List (String × String) :=
  c.states.toList.flatMap fun s => s.2.transitions.toList.map fun t => (s.1, t.1)

/-- A transition is found in the state in which it stands. -/
theorem transition?_eq_some_iff {t : Transition} :
    c.transition? id event = some t ↔
      ∃ s, c.state? id = some s ∧ s.transitions.get? event = some t := by
  rw [transition?]
  cases c.state? id with
  | none => simp
  | some s =>
    obtain ⟨_, on, _, _, _⟩ := s
    cases on <;> simp [State.transitions]

/-- The pairs are those that a transition is found for. -/
theorem mem_pairs : (id, event) ∈ c.pairs ↔ ∃ t, c.transition? id event = some t := by
  simp only [pairs, List.mem_flatMap, List.mem_map, Prod.mk.injEq]
  constructor
  · rintro ⟨⟨id, s⟩, hs, ⟨event, t⟩, ht, rfl, rfl⟩
    exact ⟨t, transition?_eq_some_iff.2
      ⟨s, SortedMap.get?_eq_some_iff.2 hs, SortedMap.get?_eq_some_iff.2 ht⟩⟩
  · rintro ⟨t, h⟩
    obtain ⟨s, hs, ht⟩ := transition?_eq_some_iff.1 h
    exact ⟨(id, s), SortedMap.get?_eq_some_iff.1 hs, (event, t), SortedMap.get?_eq_some_iff.1 ht,
      rfl, rfl⟩

/-- The pairs stand in order of their states and then of their events. -/
theorem sorted_pairs (c : Chart) : c.pairs.Pairwise (Prod.Lex (· < ·) (· < ·)) := by
  refine List.pairwise_flatMap.2 ⟨fun s _ => ?_, ?_⟩
  · refine List.pairwise_map.2 (s.2.transitions.sorted_toList.imp fun hlt => ?_)
    exact .right s.1 hlt
  · refine c.states.sorted_toList.imp fun hlt p hp q hq => ?_
    obtain ⟨_, -, rfl⟩ := List.mem_map.1 hp
    obtain ⟨_, -, rfl⟩ := List.mem_map.1 hq
    exact .left _ _ hlt

/-- No pair stands twice. -/
theorem nodup_pairs (c : Chart) : c.pairs.Nodup := by
  refine c.sorted_pairs.imp fun h heq => ?_
  subst heq
  cases h with
  | left _ _ hlt => exact String.lt_irrefl _ hlt
  | right _ hlt => exact String.lt_irrefl _ hlt

/-! ## Changing every transition -/

/-- The chart with every transition changed by a function of its state, its event and it. -/
def mapTransitions (c : Chart) (f : String → String → Transition → Transition) : Chart :=
  { c with
    states := c.states.mapEntries fun id s => { s with on := s.on.map (·.mapEntries (f id)) } }

variable {f g : String → String → Transition → Transition}

/-- The changed transition is found where a transition was found. -/
theorem transition?_mapTransitions (c : Chart) (f : String → String → Transition → Transition)
    (id event : String) :
    (c.mapTransitions f).transition? id event = (c.transition? id event).map (f id event) := by
  have hstate : (c.mapTransitions f).state? id =
      (c.state? id).map fun s => { s with on := s.on.map (·.mapEntries (f id)) } :=
    SortedMap.get?_mapEntries ..
  rw [transition?, transition?, hstate]
  cases c.state? id with
  | none => rfl
  | some s =>
    cases hon : s.on with
    | none => simp [hon]
    | some on => simp [hon, SortedMap.get?_mapEntries]

/-- Changes that agree on all transitions of the chart change it alike. -/
theorem mapTransitions_congr
    (h : ∀ id event t, c.transition? id event = some t → f id event t = g id event t) :
    c.mapTransitions f = c.mapTransitions g := by
  unfold mapTransitions
  congr 1
  apply SortedMap.mapEntries_congr
  intro id s hs
  congr 1
  refine Option.map_congr fun on hon => SortedMap.mapEntries_congr fun event t ht => ?_
  refine h id event t (transition?_eq_some_iff.2 ⟨s, hs, ?_⟩)
  rw [State.transitions, hon]
  exact ht

/-- Changing every transition to what it is changes nothing. -/
theorem mapTransitions_eq_self
    (h : ∀ id event t, c.transition? id event = some t → f id event t = t) :
    c.mapTransitions f = c := by
  have hsame : c.mapTransitions (fun _ _ t => t) = c := by
    have hon : ∀ s : State, s.on.map (·.mapEntries fun _ t => t) = s.on := by
      intro s
      cases s.on with
      | none => rfl
      | some on => rw [Option.map_some, SortedMap.mapEntries_eq_self fun _ _ _ => rfl]
    rw [mapTransitions, SortedMap.mapEntries_eq_self fun _ s _ => by rw [hon]]
  rw [mapTransitions_congr h, hsame]

/-- Changing one more transition is changing every transition by one more case. -/
theorem modifyTransition_mapTransitions (c : Chart) (id event : String)
    (edit : Transition → Transition) :
    (c.mapTransitions f).modifyTransition id event edit =
      c.mapTransitions fun id' event' t =>
        if id' = id ∧ event' = event then edit (f id' event' t) else f id' event' t := by
  simp only [modifyTransition, modifyState, mapTransitions, SortedMap.modify_mapEntries]
  congr 1
  apply SortedMap.mapEntries_congr
  intro id' s _
  -- In the state that is changed the same case stands once more for the events.
  by_cases h : id' = id
  · simp only [h, true_and, if_true, Option.map_map]
    congr 2
    funext on
    exact SortedMap.modify_mapEntries ..
  · simp only [h, false_and, if_false]

end FlatChart.Chart
