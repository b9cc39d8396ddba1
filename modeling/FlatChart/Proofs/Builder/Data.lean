import FlatChart.Proofs.Builder.Log
import FlatChart.Proofs.Chart.Data

/-!
# What sessions leave alone

Edits are of states: a session changes nothing else of a chart (`Builder.chart_run`), and whatever
of a state no edit of a session changes is the same after the session (`Builder.map_states_run`).
Hooks, actions, guards and invoke blocks are edited, so the data of a chart (`Chart.strip`) is the
same after any session, whichever calls of it fail (`Builder.strip_run`).
-/

namespace FlatChart

/-! ## Edits -/

/-- What the edit of a transition does not change is not changed in any transition of a state. -/
theorem Call.map_editOn {β : Type} {g : Transition → β} {call : Call}
    (h : ∀ t, g (call.editTransition t) = g t) (event : Option String)
    (on : SortedMap Transition) : (call.editOn event on).map g = on.map g := by
  cases event with
  | none => rfl
  | some event => exact SortedMap.map_modify h on event

namespace Chart

variable {β : Type} {g : State → β}

/-- An edit changes nothing of a chart but its states. -/
theorem edited_eq (c : Chart) (cursor : Cursor) (call : Call) :
    c.edited cursor call = { c with states := (c.edited cursor call).states } := by
  unfold edited
  split <;> rfl

/-- The state in focus is edited, and every other one is as it was. -/
theorem state?_edited (c : Chart) (cursor : Cursor) (call : Call) (id : String) :
    (c.edited cursor call).state? id = (c.state? id).map fun s =>
      if cursor.state = some id then call.editState cursor.event s else s := by
  unfold edited
  split
  · next h => simp [h]
  · next focus h =>
    rw [h]
    by_cases hid : id = focus
    · subst hid
      simp [state?_modifyState]
    · have hne : some focus ≠ some id := fun heq => hid (Option.some.inj heq).symm
      simp [state?_modifyState_of_ne c hid, hne]

/-- What the edit of a state does not change is not changed in any state. -/
theorem map_states_edited {call : Call} (h : ∀ event s, g (call.editState event s) = g s)
    (c : Chart) (cursor : Cursor) : (c.edited cursor call).states.map g = c.states.map g := by
  unfold edited
  split
  · rfl
  · exact SortedMap.map_modify (h cursor.event) ..

end Chart

namespace Builder

variable {β : Type} {g : State → β}

/-- A session changes nothing of a chart but its states. -/
theorem chart_run (b : Builder) : ∀ calls : List Call,
    (b.run calls).2.chart = { b.chart with states := (b.run calls).2.chart.states }
  | [] => rfl
  | call :: rest => by
    rw [run_cons, chart_run _ rest, run_call, Chart.edited_eq]

/-- What no edit of a session changes is the same in every state after the session. -/
theorem map_states_run (b : Builder) : ∀ calls : List Call,
    (∀ call ∈ calls, ∀ event s, g (call.editState event s) = g s) →
      (b.run calls).2.chart.states.map g = b.chart.states.map g
  | [], _ => rfl
  | call :: rest, h => by
    obtain ⟨hcall, hrest⟩ := List.forall_mem_cons.1 h
    rw [run_cons, map_states_run _ rest hrest, run_call, Chart.map_states_edited hcall]

end Builder

/-- The chart after a session on a builder of it is the chart with other states. -/
theorem Chart.decoratedBy_eq (c : Chart) (session : List Call) :
    c.decoratedBy session = { c with states := (c.decoratedBy session).states } :=
  c.build.chart_run session

/-! ## Data -/

/-- The edit of a transition keeps its data. -/
theorem Call.strip_editTransition (call : Call) (t : Transition) :
    (call.editTransition t).strip = t.strip := rfl

/-- The edit of a state keeps the data of its transitions. -/
theorem Call.strip_editState (call : Call) (event : Option String) (s : State) :
    (call.editState event s).strip = s.strip := by
  rw [State.strip, State.strip, editState, Option.map_map]
  congr 2
  exact funext (map_editOn call.strip_editTransition event)

/-- A session keeps the data of the chart. -/
theorem Builder.strip_run (b : Builder) (calls : List Call) :
    (b.run calls).2.chart.strip = b.chart.strip := by
  have hstates := map_states_run b calls fun call _ => call.strip_editState
  rw [chart_run, Chart.strip, Chart.strip, hstates]

end FlatChart
