import FlatChart.Machine
import FlatChart.Proofs.Chart.Labels
import FlatChart.Proofs.Chart.Violations

/-!
# Runs

A run drives a machine by inputs. Functions need not behave alike throughout: each turn of a run
brings the chart with its functions as they behave in this turn, and charts that are the same by
label differ in nothing else that a machine can see. A turn takes at most one of the transitions
that the current state offers, those on its events and the handlers of its invoke block
(`Machine.turn_cases`). Validation checks the targets of all of them, so a machine that starts in a
state of a valid chart stays in its states (`Chart.contains_visited`).
-/

namespace FlatChart

/-! ## Charts that are the same by label -/

namespace Chart

variable {c d : Chart} {id event : String} {k : Completion} {t : Transition}

/-- The handler of a state for a completion. -/
def handler? (c : Chart) (id : String) (k : Completion) : Option Transition := do
  let s ← c.state? id
  let i ← s.invoke
  i.handler k

/-- A handler stands in the invoke block of its state. -/
theorem handler?_eq_some_iff :
    c.handler? id k = some t ↔
      ∃ s i, c.state? id = some s ∧ s.invoke = some i ∧ i.handler k = some t := by
  simp [handler?, Option.bind_eq_some_iff]

/-- The states by label are the states of the chart by label. -/
theorem state?_byLabel (c : Chart) (id : String) :
    c.byLabel.state? id = (c.state? id).map State.byLabel := c.states.get?_map _ id

/-- The transitions by label are the transitions of the chart by label. -/
theorem transition?_byLabel (c : Chart) (id event : String) :
    c.byLabel.transition? id event = (c.transition? id event).map Transition.byLabel := by
  rw [transition?, transition?, state?_byLabel]
  cases c.state? id with
  | none => rfl
  | some s => cases hon : s.on <;> simp [State.byLabel, hon]

/-- The handlers by label are the handlers of the chart by label. -/
theorem handler?_byLabel (c : Chart) (id : String) (k : Completion) :
    c.byLabel.handler? id k = (c.handler? id k).map Transition.byLabel := by
  rw [handler?, handler?, state?_byLabel]
  cases c.state? id with
  | none => rfl
  | some s =>
    cases hinvoke : s.invoke with
    | none => simp [State.byLabel, hinvoke]
    | some i => cases k <;> simp [State.byLabel, hinvoke, Invoke.byLabel, Invoke.handler]

/-- The transitions that a state offers: those on its events and the handlers of its invoke
block. -/
inductive Offers (c : Chart) (id : String) (t : Transition) : Prop where
  | transition {event : String} (h : c.transition? id event = some t)
  | handler {k : Completion} (h : c.handler? id k = some t)

/-- Charts that are the same by label offer transitions that are the same by label. -/
theorem Offers.of_byLabel (h : c.Offers id t) (hcd : c.byLabel = d.byLabel) :
    ∃ t', d.Offers id t' ∧ t'.byLabel = t.byLabel := by
  cases h with
  | @transition event h =>
    have ht : d.byLabel.transition? id event = some t.byLabel := by
      rw [← hcd, transition?_byLabel, h]
      rfl
    rw [transition?_byLabel] at ht
    obtain ⟨t', ht', heq⟩ := Option.map_eq_some_iff.1 ht
    exact ⟨t', .transition ht', heq⟩
  | @handler k h =>
    have ht : d.byLabel.handler? id k = some t.byLabel := by
      rw [← hcd, handler?_byLabel, h]
      rfl
    rw [handler?_byLabel] at ht
    obtain ⟨t', ht', heq⟩ := Option.map_eq_some_iff.1 ht
    exact ⟨t', .handler ht', heq⟩

/-- In a valid chart a transition that a state offers leads to a state, if it leads anywhere. -/
theorem Offers.state?_ne_none (h : c.Offers id t) (hvalid : c.isValid = true) {target : String}
    (htarget : t.target = some target) : c.state? target ≠ none := by
  intro hnone
  cases h with
  | @transition event h =>
    exact isValid_iff.1 hvalid (.unknownTarget id event target) ⟨t, h, htarget, hnone⟩
  | @handler k h =>
    obtain ⟨s, i, hs, hi, ht⟩ := handler?_eq_some_iff.1 h
    exact isValid_iff.1 hvalid (.unknownCompletionTarget id k target)
      ⟨s, i, t, hs, hi, ht, htarget, hnone⟩

end Chart

/-! ## One transition -/

/-- The context after an action. -/
def Action.contextAfter (context : Json) : Action → Json
  | .effect _ => context
  | .assign f => f.apply context

/-- How a service has completed. -/
def Completion.ofOutcome : Except Json Json → Completion
  | .ok _ => .done
  | .error _ => .error

namespace Machine

/-- Actions change the context, one after the other, and nothing else. -/
theorem perform_fst (m : Machine) : ∀ actions : List Action,
    (m.perform actions).1 = { m with context := actions.foldl Action.contextAfter m.context }
  | [] => rfl
  | .effect _ :: rest => perform_fst m rest
  | .assign f :: rest => perform_fst { m with context := f.apply m.context } rest

/-- A transition whose guard allows it performs its actions and leads to its target; otherwise
nothing happens. -/
theorem machine_take (m : Machine) (t : Transition) :
    (m.take t).machine =
      if t.cond.all fun g => g.check m.context then
        { m with
          state := t.target.getD m.state
          context := t.actions.foldl Action.contextAfter m.context }
      else m := by
  have hperform := m.perform_fst t.actions
  unfold take
  split
  · cases t.target with
    | none => exact hperform
    | some target =>
      simp only [moveTo, hperform]
      rfl
  · rfl

end Machine

/-! ## Turns -/

/-- What drives a machine. -/
inductive Input where
  /-- An event is sent. -/
  | send (event : String)
  /-- The service of the current state completes. -/
  | settle
  deriving DecidableEq

/-- One turn of a run. -/
structure Turn where
  /-- The chart with its functions as they behave in this turn. -/
  chart : Chart
  /-- What drives the machine. -/
  input : Input

namespace Machine

/-- The machine after an input. -/
def after (m : Machine) : Input → Machine
  | .send event => (m.send event).machine
  | .settle => m.settle.machine

/-- The machine after a turn. -/
def turn (m : Machine) (t : Turn) : Machine := { m with chart := t.chart }.after t.input

/-- The machine after some turns. -/
def run (m : Machine) (turns : List Turn) : Machine := turns.foldl turn m

/-- A run goes on where the one before it ended. -/
theorem run_append (m : Machine) (before after : List Turn) :
    m.run (before ++ after) = (m.run before).run after := List.foldl_append ..

/-- The machine at the start of some turns and after each of them. -/
def visited (m : Machine) : List Turn → List Machine
  | [] => [m]
  | t :: rest => m :: (m.turn t).visited rest

/-- The transition that an input brings to the machine: the one on an event, and the handler for the
outcome of the service. -/
def brought? (m : Machine) : Input → Option Transition
  | .send event => m.chart.transition? m.state event
  | .settle => do
    let s ← m.chart.state? m.state
    let i ← s.invoke
    i.handler (.ofOutcome (i.src.run m.context))

/-- An input does what the transition does that it brings, if it brings one. -/
theorem after_eq (m : Machine) (input : Input) :
    m.after input = ((m.brought? input).map fun t => (m.take t).machine).getD m := by
  cases input with
  | send event =>
    simp only [after, send, brought?]
    cases m.chart.transition? m.state event <;> rfl
  | settle =>
    simp only [after, settle, brought?]
    cases m.chart.state? m.state with
    | none => rfl
    | some s =>
      cases hi : s.invoke with
      | none => simp [hi]
      | some i =>
        simp only [hi, Option.bind_some, Option.bind_eq_bind]
        cases i.src.run m.context with
        | ok v => cases h : i.onDone <;> simp [Completion.ofOutcome, Invoke.handler, h]
        | error v => cases h : i.onError <;> simp [Completion.ofOutcome, Invoke.handler, h]

/-- The current state offers the transition that an input brings. -/
theorem offers_of_brought? {m : Machine} {input : Input} {t : Transition}
    (h : m.brought? input = some t) : m.chart.Offers m.state t := by
  cases input with
  | send event => exact .transition h
  | settle =>
    obtain ⟨s, hs, h⟩ := Option.bind_eq_some_iff.1 h
    obtain ⟨i, hi, ht⟩ := Option.bind_eq_some_iff.1 h
    exact .handler (Chart.handler?_eq_some_iff.2 ⟨s, i, hs, hi, ht⟩)

/-- A turn leaves the chart that it brings. -/
theorem chart_turn (m : Machine) (turn : Turn) : (m.turn turn).chart = turn.chart := by
  rw [Machine.turn, after_eq]
  cases brought? { m with chart := turn.chart } turn.input with
  | none => rfl
  | some t =>
    rw [Option.map_some, Option.getD_some, machine_take]
    split <;> rfl

/-- A turn leaves state and context as they are, or takes a transition that the current state
offers. -/
theorem turn_cases (m : Machine) (turn : Turn) :
    ((m.turn turn).state = m.state ∧ (m.turn turn).context = m.context) ∨
      ∃ t, turn.chart.Offers m.state t ∧ (m.turn turn).state = t.target.getD m.state ∧
        (m.turn turn).context = t.actions.foldl Action.contextAfter m.context := by
  have hafter := after_eq { m with chart := turn.chart } turn.input
  rw [Machine.turn]
  cases hbrought : brought? { m with chart := turn.chart } turn.input with
  | none =>
    rw [hafter, hbrought]
    exact .inl ⟨rfl, rfl⟩
  | some t =>
    rw [hafter, hbrought, Option.map_some, Option.getD_some, machine_take]
    split
    · exact .inr ⟨t, offers_of_brought? hbrought, rfl, rfl⟩
    · exact .inl ⟨rfl, rfl⟩

end Machine

/-! ## Runs of a valid chart -/

namespace Chart

variable {c : Chart}

/-- The machine in the initial state of a chart, with a context. -/
def machine (c : Chart) (context : Json) : Machine := ⟨c, c.initial, context⟩

/-- A turn of a machine in a state of a valid chart leads to a state of the chart. -/
theorem state?_turn_ne_none (hvalid : c.isValid = true) {m : Machine} {turn : Turn}
    (hm : c.state? m.state ≠ none) (hturn : turn.chart.byLabel = c.byLabel) :
    c.state? (m.turn turn).state ≠ none := by
  rcases m.turn_cases turn with ⟨hstate, -⟩ | ⟨t, ht, hstate, -⟩
  · rw [hstate]
    exact hm
  · -- The transition is one of this turn; the chart that was checked has it by label, and a label
    -- keeps the target.
    obtain ⟨t', ht', hlabel⟩ := ht.of_byLabel hturn
    have htarget : t'.byLabel.target = t.byLabel.target := by rw [hlabel]
    rw [hstate, show t.target = t'.target from htarget.symm]
    cases h : t'.target with
    | none => exact hm
    | some target => exact ht'.state?_ne_none hvalid h

-- By induction on the turns; that the current state exists is kept by each of them.
/-- A machine in a state of a valid chart stays in its states. -/
theorem state?_visited_ne_none (hvalid : c.isValid = true) :
    ∀ (turns : List Turn) {m : Machine}, c.state? m.state ≠ none →
      (∀ t ∈ turns, t.chart.byLabel = c.byLabel) → ∀ m' ∈ m.visited turns, c.state? m'.state ≠ none
  | [], _, hm, _ => List.forall_mem_singleton.2 hm
  | t :: rest, _, hm, hturns => by
    obtain ⟨hturn, hrest⟩ := List.forall_mem_cons.1 hturns
    exact List.forall_mem_cons.2
      ⟨hm, state?_visited_ne_none hvalid rest (state?_turn_ne_none hvalid hm hturn) hrest⟩

/-- A machine that starts in the initial state of a valid chart is in a state of the chart at the
start and after every turn, whatever the context and however the functions behave. -/
theorem contains_visited (c : Chart) (hvalid : c.isValid = true) (hinitial : c.initial ≠ "")
    (context : Json) (turns : List Turn) (hturns : ∀ t ∈ turns, t.chart.byLabel = c.byLabel) :
    ∀ m ∈ (c.machine context).visited turns, c.states.contains m.state = true := by
  have hstart : c.state? c.initial ≠ none := fun hnone =>
    isValid_iff.1 hvalid (.unknownInitial c.initial) ⟨rfl, hinitial, hnone⟩
  intro m hm
  rw [contains_states, Option.isSome_iff_ne_none]
  exact state?_visited_ne_none hvalid turns hstart hturns m hm

/-- A kettle whose functions behave in one of two ways: its guard and its service only let it heat
up when it is on. -/
def kettle (on : Bool) : Chart where
  initial := "cold"
  states := .ofList [
    ("cold",
      { on := some (.ofList [
          ("HEAT", { target := some "hot", cond := some ⟨0, none, fun _ => on⟩ })])
        invoke := some {
          src := ⟨1, none, fun v => if on then .ok v else .error v⟩
          onDone := some { target := some "hot" }
          onError := some { actions := [.assign ⟨2, none, fun _ => .bool on⟩] } } }),
    ("hot", { final := true })]

/-- The kettle stays in states of its chart while its functions change their minds. -/
theorem contains_visited_kettle :
    (kettle true).isValid = true ∧
      ∀ m ∈ ((kettle true).machine .null).visited
        [⟨kettle false, .send "HEAT"⟩, ⟨kettle false, .settle⟩, ⟨kettle true, .settle⟩],
      (kettle true).states.contains m.state = true := by
  have hvalid : (kettle true).isValid = true := by decide +kernel
  have hlabel : (kettle false).byLabel = (kettle true).byLabel := by
    simp [kettle, byLabel, State.byLabel, Transition.byLabel, Invoke.byLabel, Guard.byLabel,
      Guard.label, Service.byLabel, Service.label, Action.byLabel, Reducer.byLabel,
      Reducer.label, SortedMap.map_ofList]
  have hturns : ∀ t ∈ [Turn.mk (kettle false) (.send "HEAT"), ⟨kettle false, .settle⟩,
      ⟨kettle true, .settle⟩], t.chart.byLabel = (kettle true).byLabel := by
    simp [hlabel]
  exact ⟨hvalid, contains_visited (kettle true) hvalid (by decide) .null _ hturns⟩

end Chart

end FlatChart
