import FlatChart.Chart.Basic
import FlatChart.Proofs.SortedMap

/-!
# Changing one state or transition

What a chart has after one of its states was changed, and when a change of a state or a transition
changes nothing.
-/

namespace FlatChart.Chart

variable {c : Chart} {id event : String}

/-- A state is found changed where it was found before. -/
theorem state?_modifyState (c : Chart) (id : String) (f : State → State) :
    (c.modifyState id f).state? id = (c.state? id).map f := by
  rw [state?, modifyState, SortedMap.get?_modify, if_pos rfl]
  rfl

/-- Every other state is found as before. -/
theorem state?_modifyState_of_ne (c : Chart) {other : String} (h : other ≠ id)
    (f : State → State) : (c.modifyState id f).state? other = c.state? other := by
  rw [state?, modifyState, SortedMap.get?_modify, if_neg h]
  rfl

/-- Changing a state twice is changing it once by both functions. -/
theorem modifyState_modifyState (c : Chart) (id : String) (f g : State → State) :
    (c.modifyState id f).modifyState id g = c.modifyState id (g ∘ f) := by
  rw [modifyState, modifyState, modifyState, SortedMap.modify_modify]

/-- A change that keeps the state as it is, if there is one, changes nothing. -/
theorem modifyState_eq_self {f : State → State} (h : ∀ s, c.state? id = some s → f s = s) :
    c.modifyState id f = c := by
  rw [modifyState, SortedMap.modify_eq_self h]

/-- Two changes that do the same to the state, if there is one, do the same. -/
theorem modifyState_congr {f g : State → State} (h : ∀ s, c.state? id = some s → f s = g s) :
    c.modifyState id f = c.modifyState id g := by
  have hstates : c.states.modify id f = c.states.modify id g := by
    apply SortedMap.ext_get?
    intro other
    rw [SortedMap.get?_modify, SortedMap.get?_modify]
    split_ifs with hother
    · subst hother
      exact Option.map_congr fun s hs => h s hs
    · rfl
  rw [modifyState, modifyState, hstates]

/-- Changing a transition twice is changing it once by both functions. -/
theorem modifyTransition_modifyTransition (c : Chart) (id event : String)
    (f g : Transition → Transition) :
    (c.modifyTransition id event f).modifyTransition id event g =
      c.modifyTransition id event (g ∘ f) := by
  rw [modifyTransition, modifyTransition, modifyState_modifyState, modifyTransition]
  congr 1
  funext s
  simp only [Function.comp_apply, Option.map_map]
  congr 2
  funext on
  exact SortedMap.modify_modify ..

/-- A transition is found changed where it was found before. -/
theorem transition?_modifyTransition (c : Chart) (id event : String) (f : Transition → Transition) :
    (c.modifyTransition id event f).transition? id event = (c.transition? id event).map f := by
  rw [transition?, transition?, modifyTransition, state?_modifyState]
  cases c.state? id with
  | none => rfl
  | some s =>
    cases hon : s.on with
    | none => simp [hon]
    | some on => simp [hon, SortedMap.get?_modify]

/-- Every other transition is found as before. -/
theorem transition?_modifyTransition_of_ne (c : Chart) {id' event' : String}
    (h : ¬(id' = id ∧ event' = event)) (f : Transition → Transition) :
    (c.modifyTransition id event f).transition? id' event' = c.transition? id' event' := by
  rw [transition?, transition?, modifyTransition]
  by_cases hid : id' = id
  · -- In the state that was changed the event is another one.
    subst hid
    have hevent : event' ≠ event := fun heq => h ⟨rfl, heq⟩
    rw [state?_modifyState]
    cases c.state? id' with
    | none => rfl
    | some s => cases hon : s.on <;> simp [hon, SortedMap.get?_modify, hevent]
  · rw [state?_modifyState_of_ne c hid]

/-- A change that keeps the transition as it is, if there is one, changes nothing. -/
theorem modifyTransition_eq_self {f : Transition → Transition}
    (h : ∀ t, c.transition? id event = some t → f t = t) : c.modifyTransition id event f = c := by
  apply modifyState_eq_self
  intro s hs
  cases hon : s.on with
  | none => rw [Option.map_none, ← hon]
  | some on =>
    have ht : ∀ t, on.get? event = some t → f t = t := fun t ht =>
      h t (by simpa [transition?, hs, hon] using ht)
    rw [Option.map_some, SortedMap.modify_eq_self ht, ← hon]

end FlatChart.Chart
