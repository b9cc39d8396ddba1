import FlatChart.Chart.Basic

/-!
# Running a chart

A machine stands in a state with a context and is driven by events. Everything that a step calls
besides guards, reducers and services is recorded with the context it was called with.
-/

namespace FlatChart

/-- A chart that runs: its current state and context. -/
structure Machine where
  /-- The chart. -/
  chart : Chart
  /-- The current state, which may not exist in the chart. -/
  state : String
  /-- The current context. -/
  context : Json

/-- The callbacks called, each with its context, in order. -/
abbrev CallLog := List (Callback × Json)

/-- What a step answers, the machine after it and what it called. -/
structure Step (α : Type) where
  /-- The answer. -/
  answer : α
  /-- The machine after the step. -/
  machine : Machine
  /-- What was called. -/
  calls : CallLog

/-- How a service ended, and whether the handler for it was taken, if there is one. -/
structure Settlement where
  /-- The value with which the service succeeded or failed. -/
  outcome : Except Json Json
  /-- Whether the handler was taken. -/
  taken : Option Bool

namespace Machine

/-- The hooks of the current state, none for a state that does not exist. -/
def hooks (m : Machine) (select : State → List Callback) : List Callback :=
  match m.chart.state? m.state with
  | none => []
  | some s => select s

/-- The calls of hooks with the current context. -/
def callHooks (m : Machine) (select : State → List Callback) : CallLog :=
  (m.hooks select).map fun f => (f, m.context)

/-- The machine on a chart before its first event; the initial state is entered. -/
def start (c : Chart) : Step Unit :=
  let m : Machine := ⟨c, c.initial, c.context.getD .null⟩
  ⟨(), m, m.callHooks State.entry⟩

/-- The machine after a list of actions, and what they called. -/
def perform (m : Machine) : List Action → Machine × CallLog
  | [] => (m, [])
  | .effect f :: rest =>
    let (m', calls) := m.perform rest
    (m', (f, m.context) :: calls)
  | .assign f :: rest => perform { m with context := f.apply m.context } rest

/-- The machine after it moved to a state, and the hooks called on the way. -/
def moveTo (m : Machine) (target : String) : Machine × CallLog :=
  let m' := { m with state := target }
  (m', m.callHooks State.exit ++ m'.callHooks State.entry)

/-- Takes a transition, unless its guard forbids it. -/
def take (m : Machine) (t : Transition) : Step Bool :=
  if t.cond.all fun g => g.check m.context then
    let (m, calls) := m.perform t.actions
    -- All actions run before any hook, so both hooks see the context that the actions leave.
    match t.target with
    | none => ⟨true, m, calls⟩
    | some target =>
      let (m, hooks) := m.moveTo target
      ⟨true, m, calls ++ hooks⟩
  else ⟨false, m, []⟩

/-- Sends an event: the answer is whether the transition on it was taken, none without one. -/
def send (m : Machine) (event : String) : Step (Option Bool) :=
  match m.chart.transition? m.state event with
  | none => ⟨none, m, []⟩
  | some t =>
    let s := m.take t
    ⟨some s.answer, s.machine, s.calls⟩

/-- Runs the service of the current state and takes the handler for its outcome; the answer is none
without a service. -/
def settle (m : Machine) : Step (Option Settlement) :=
  match (m.chart.state? m.state).bind State.invoke with
  | none => ⟨none, m, []⟩
  | some i =>
    let outcome := i.src.run m.context
    let handler :=
      match outcome with
      | .ok _ => i.onDone
      | .error _ => i.onError
    match handler with
    | none => ⟨some ⟨outcome, none⟩, m, []⟩
    | some t =>
      let s := m.take t
      ⟨some ⟨outcome, some s.answer⟩, s.machine, s.calls⟩

/-- Whether the current state exists and is final. -/
def isDone (m : Machine) : Bool := (m.chart.state? m.state).any State.final

end Machine

end FlatChart
