import FlatChart.Chart.Basic

/-!
# Builders

A builder decorates a chart of its own at a cursor, the state and event in focus. Operations on a
transition need both and report what is missing; hooks need only a state and do nothing without one.
An operation that fails changes nothing.
-/

namespace FlatChart

/-- The state and event in focus. Neither has to exist in the chart. -/
structure Cursor where
  /-- The state in focus. -/
  state : Option String := none
  /-- The event in focus. -/
  event : Option String := none
  deriving DecidableEq

/-- Where to move the cursor. -/
structure Focus where
  /-- The state to focus. -/
  state : Option String := none
  /-- The event to focus. -/
  event : Option String := none
  deriving DecidableEq

/-- A name that counts as given: the empty name does not. -/
def givenName (name : Option String) : Option String := name.filter fun name => !name.isEmpty

namespace Cursor

/-- The cursor on an initial state, without an event. -/
def startingAt (initial : String) : Cursor := { state := givenName (some initial) }

/-- The cursor after a move: a given state replaces the one in focus, and the event is always
replaced, by none when none is given. -/
def move (c : Cursor) (focus : Focus) : Cursor where
  state := (givenName focus.state).or c.state
  event := givenName focus.event

end Cursor

/-! ## Missing targets -/

/-- An operation of a builder. -/
inductive Operation where
  | action
  | assign
  | cond
  | target
  | onEntry
  deriving DecidableEq

/-- The name of an operation in messages. -/
def Operation.name : Operation → String
  | .action => "action"
  | .assign => "assign"
  | .cond => "cond"
  | .target => "target"
  | .onEntry => "on_entry"

/-- What the cursor lacks for an operation. -/
inductive Lack where
  /-- No state is in focus. -/
  | state
  /-- No event is in focus. -/
  | event (state : String)
  /-- The state in focus does not exist. -/
  | unknownState (state : String)
  /-- The state in focus has no transition on the event in focus. -/
  | unknownTransition (state event : String)
  /-- The state in focus has no invoke block. -/
  | noInvoke (state : String)
  deriving DecidableEq

/-- The cursor does not resolve to what an operation needs. -/
structure MissingTarget where
  /-- What is missing. -/
  lack : Lack
  /-- The operation that failed. -/
  operation : Operation
  deriving DecidableEq

/-- The wording of a missing target. -/
def MissingTarget.message (m : MissingTarget) : String :=
  let call := "." ++ m.operation.name ++ "()"
  match m.lack with
  | .state => "No state in focus for " ++ call ++ ". Call .focus() with a state first"
  | .event s =>
    "No event in focus on state '" ++ s ++ "' for " ++ call ++
      ". Call .focus() with an event first"
  | .unknownState s => "State '" ++ s ++ "' does not exist, cannot apply " ++ call
  | .unknownTransition s e =>
    "State '" ++ s ++ "' has no transition on event '" ++ e ++ "', cannot apply " ++ call
  | .noInvoke s => "State '" ++ s ++ "' has no invoke block, cannot apply " ++ call

/-! ## Operations -/

/-- A chart being decorated, and the cursor. -/
structure Builder where
  /-- The chart as decorated so far. -/
  chart : Chart
  /-- The cursor. -/
  cursor : Cursor

/-- A builder that decorates a chart, its cursor on the initial state. -/
def Chart.build (c : Chart) : Builder := ⟨c, .startingAt c.initial⟩

namespace Builder

/-- The builder with its cursor moved. -/
def focus (b : Builder) (f : Focus) : Builder := { b with cursor := b.cursor.move f }

/-- The builder with the state in focus changed, if there is one and it exists. -/
def modifyFocused (b : Builder) (f : State → State) : Builder :=
  match b.cursor.state with
  | none => b
  | some s => { b with chart := b.chart.modifyState s f }

/-- The names of the transition in focus, or what is missing to resolve it. -/
def focusedTransition (b : Builder) : Except Lack (String × String) :=
  match b.cursor.state, b.cursor.event with
  | none, _ => .error .state
  | some s, none => .error (.event s)
  | some s, some e =>
    match b.chart.state? s with
    | none => .error (.unknownState s)
    | some _ =>
      match b.chart.transition? s e with
      | none => .error (.unknownTransition s e)
      | some _ => .ok (s, e)

/-- The builder with the transition in focus changed. -/
def decorate (b : Builder) (operation : Operation) (f : Transition → Transition) :
    Except MissingTarget Builder :=
  match b.focusedTransition with
  | .error lack => .error ⟨lack, operation⟩
  | .ok (s, e) => .ok { b with chart := b.chart.modifyTransition s e f }

/-- Adds a side effect to the transition in focus. -/
def action (b : Builder) (callback : Callback) : Except MissingTarget Builder :=
  b.decorate .action (·.addAction (.effect callback))

/-- Adds a change of the context to the transition in focus. -/
def assign (b : Builder) (reducer : Reducer) : Except MissingTarget Builder :=
  b.decorate .assign (·.addAction (.assign reducer))

/-- Sets the guard of the transition in focus, in place of the one it had. -/
def cond (b : Builder) (guard : Guard) : Except MissingTarget Builder :=
  b.decorate .cond fun t => { t with cond := some guard }

/-- Adds an entry hook to the state in focus, if it exists. -/
def onEntry (b : Builder) (callback : Callback) : Builder :=
  b.modifyFocused fun s => { s with entry := s.entry ++ [callback] }

/-- Adds an exit hook to the state in focus, if it exists. -/
def onExit (b : Builder) (callback : Callback) : Builder :=
  b.modifyFocused fun s => { s with exit := s.exit ++ [callback] }

/-- Sets the invoke block of the state in focus to a service without handlers, in place of the one
it had, if the state exists. -/
def invoke (b : Builder) (service : Service) : Builder :=
  b.modifyFocused fun s => { s with invoke := some { src := service } }

/-- The state in focus and its invoke block, or what is missing to resolve it. -/
def focusedInvoke (b : Builder) : Except Lack (String × Invoke) :=
  match b.cursor.state with
  | none => .error .state
  | some s =>
    match b.chart.state? s with
    | none => .error (.unknownState s)
    | some state =>
      match state.invoke with
      | none => .error (.noInvoke s)
      | some i => .ok (s, i)

/-- The builder with a handler of the invoke block in focus changed; a handler that is absent is
made first. -/
def complete (b : Builder) (operation : Operation) (completion : Completion)
    (f : Transition → Transition) : Except MissingTarget Builder :=
  match b.focusedInvoke with
  | .error lack => .error ⟨lack, operation⟩
  | .ok (s, i) =>
    let i := i.setHandler (f ((i.handler completion).getD {})) completion
    .ok { b with chart := b.chart.modifyState s fun state => { state with invoke := some i } }

end Builder

end FlatChart
