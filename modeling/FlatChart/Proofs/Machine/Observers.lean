import FlatChart.Proofs.Builder.Data
import FlatChart.Proofs.Machine.Run

/-!
# Observers

Callbacks are called and give nothing back, so nothing that a machine does depends on them. A chart
without its callbacks (`Chart.silent`) makes a machine answer alike and go through the same states
and contexts (`Machine.trace_silent`). Moves of the cursor and calls that attach callbacks change
nothing of a chart but its callbacks (`Chart.silent_decoratedBy`). So a machine does not tell a
chart from one that was decorated by such calls alone (`Chart.trace_decoratedBy`).
-/

namespace FlatChart

/-! ## Charts without their callbacks -/

/-- The transition with the actions that change the context alone. -/
def Transition.silent (t : Transition) : Transition :=
  { t with actions := t.actions.filter Action.isAssign }

/-- The invoke block with its handlers silent. -/
def Invoke.silent (i : Invoke) : Invoke :=
  { i with onDone := i.onDone.map Transition.silent, onError := i.onError.map Transition.silent }

/-- The state with its transitions and handlers silent and without hooks. -/
def State.silent (s : State) : State where
  final := s.final
  on := s.on.map (·.map Transition.silent)
  invoke := s.invoke.map Invoke.silent

/-- The chart with all its callbacks taken away. -/
def Chart.silent (c : Chart) : Chart := { c with states := c.states.map State.silent }

/-- The handlers of a silent block are the silent handlers. -/
theorem Invoke.handler_silent (i : Invoke) (k : Completion) :
    i.silent.handler k = (i.handler k).map Transition.silent := by
  cases k <;> rfl

namespace Chart

/-- The states of a silent chart are the silent states. -/
theorem state?_silent (c : Chart) (id : String) :
    c.silent.state? id = (c.state? id).map State.silent := c.states.get?_map _ id

/-- The transitions of a silent chart are the silent transitions. -/
theorem transition?_silent (c : Chart) (id event : String) :
    c.silent.transition? id event = (c.transition? id event).map Transition.silent := by
  rw [transition?, transition?, state?_silent]
  cases c.state? id with
  | none => rfl
  | some s => cases hon : s.on <;> simp [State.silent, hon]

/-- The invoke block in a state of a silent chart is the silent one. -/
theorem invoke_silent (c : Chart) (id : String) :
    (c.silent.state? id).bind State.invoke =
      ((c.state? id).bind State.invoke).map Invoke.silent := by
  rw [state?_silent, Option.bind_map, Option.map_bind]
  rfl

end Chart

/-! ## What is seen of a run -/

/-- What an input is answered. -/
inductive Reply where
  /-- Whether the transition on the event was taken, if there is one. -/
  | sent (taken : Option Bool)
  /-- How the service ended, if there is one. -/
  | settled (settlement : Option Settlement)

/-- What is seen of a machine in a turn. -/
structure Sight where
  /-- The reply to the input. -/
  reply : Reply
  /-- The state after the turn. -/
  state : String
  /-- The context after the turn. -/
  context : Json

namespace Machine

/-- The reply of a machine to an input. -/
def reply (m : Machine) : Input → Reply
  | .send event => .sent (m.send event).answer
  | .settle => .settled m.settle.answer

/-- What is seen of a machine in some turns. -/
def trace (m : Machine) : List Turn → List Sight
  | [] => []
  | t :: rest =>
    ⟨{ m with chart := t.chart }.reply t.input, (m.turn t).state, (m.turn t).context⟩ ::
      (m.turn t).trace rest

/-- The machine on its chart without callbacks. -/
def silent (m : Machine) : Machine := { m with chart := m.chart.silent }

/-! ## One turn -/

/-- A transition is taken when its guard allows it. -/
theorem answer_take (m : Machine) (t : Transition) :
    (m.take t).answer = t.cond.all fun g => g.check m.context := by
  unfold take
  split
  · next h => cases t.target <;> exact h.symm
  · next h => exact (Bool.eq_false_iff.2 h).symm

/-- An event is answered by whether its transition is taken. -/
theorem answer_send (m : Machine) (event : String) :
    (m.send event).answer =
      (m.chart.transition? m.state event).map fun t => (m.take t).answer := by
  unfold send
  cases m.chart.transition? m.state event <;> rfl

/-- A service that completes is answered by its outcome and whether the handler for it is taken. -/
theorem answer_settle (m : Machine) :
    m.settle.answer = ((m.chart.state? m.state).bind State.invoke).map fun i =>
      ⟨i.src.run m.context,
        (i.handler (.ofOutcome (i.src.run m.context))).map fun t => (m.take t).answer⟩ := by
  unfold settle
  cases (m.chart.state? m.state).bind State.invoke with
  | none => rfl
  | some i =>
    cases h : i.src.run m.context with
    | ok v => cases hd : i.onDone <;> simp [h, hd, Completion.ofOutcome, Invoke.handler]
    | error v => cases he : i.onError <;> simp [h, he, Completion.ofOutcome, Invoke.handler]

/-- Actions that leave the context alone can be left out. -/
theorem foldl_contextAfter_filter (context : Json) (actions : List Action) :
    (actions.filter Action.isAssign).foldl Action.contextAfter context =
      actions.foldl Action.contextAfter context := by
  have hstep : (fun v a => if Action.isAssign a then Action.contextAfter v a else v) =
      Action.contextAfter := by
    funext v a
    cases a <;> rfl
  rw [List.foldl_filter, hstep]

/-- Silent transitions are taken like the transitions. -/
theorem answer_take_silent (m : Machine) :
    (fun t => (m.silent.take t).answer) ∘ Transition.silent = fun t => (m.take t).answer := by
  funext t
  rw [Function.comp_apply, answer_take, answer_take]
  rfl

/-- A silent transition leads where the transition leads. -/
theorem machine_take_silent (m : Machine) (t : Transition) :
    (m.silent.take t.silent).machine = (m.take t).machine.silent := by
  rw [machine_take, machine_take]
  unfold Transition.silent silent
  simp only [foldl_contextAfter_filter]
  split <;> rfl

/-- The completion of a service brings the handler for its outcome. -/
theorem brought?_settle (m : Machine) :
    m.brought? .settle = ((m.chart.state? m.state).bind State.invoke).bind fun i =>
      i.handler (.ofOutcome (i.src.run m.context)) := by
  rw [Option.bind_assoc]
  rfl

/-- Without callbacks an input brings the transition that it brings, silent. -/
theorem brought?_silent (m : Machine) (input : Input) :
    m.silent.brought? input = (m.brought? input).map Transition.silent := by
  cases input with
  | send event => exact m.chart.transition?_silent m.state event
  | settle =>
    have hinvoke := m.chart.invoke_silent m.state
    rw [brought?_settle, brought?_settle, silent, hinvoke, Option.bind_map, Option.map_bind]
    congr 1
    funext i
    exact i.handler_silent _

/-- Without callbacks an input leads where it leads. -/
theorem after_silent (m : Machine) (input : Input) :
    m.silent.after input = (m.after input).silent := by
  rw [after_eq, after_eq, brought?_silent]
  cases m.brought? input with
  | none => rfl
  | some t => exact m.machine_take_silent t

/-- Without callbacks an event is answered alike. -/
theorem answer_send_silent (m : Machine) (event : String) :
    (m.silent.send event).answer = (m.send event).answer := by
  have htransition : m.silent.chart.transition? m.silent.state event =
      (m.chart.transition? m.state event).map Transition.silent :=
    m.chart.transition?_silent m.state event
  rw [answer_send, answer_send, htransition, Option.map_map, answer_take_silent]

/-- Without callbacks the completion of a service is answered alike. -/
theorem answer_settle_silent (m : Machine) : m.silent.settle.answer = m.settle.answer := by
  have hinvoke : (m.silent.chart.state? m.silent.state).bind State.invoke =
      ((m.chart.state? m.state).bind State.invoke).map Invoke.silent :=
    m.chart.invoke_silent m.state
  rw [answer_settle, answer_settle, hinvoke, Option.map_map]
  refine congrArg (Option.map · _) (funext fun i => ?_)
  rw [Function.comp_apply, Invoke.handler_silent, Option.map_map, answer_take_silent]
  rfl

/-- Without callbacks an input is answered alike. -/
theorem reply_silent (m : Machine) : ∀ input : Input, m.silent.reply input = m.reply input
  | .send event => congrArg Reply.sent (m.answer_send_silent event)
  | .settle => congrArg Reply.settled m.answer_settle_silent

end Machine

/-! ## Runs -/

/-- The turn on its chart without callbacks. -/
def Turn.silent (t : Turn) : Turn := { t with chart := t.chart.silent }

/-- Without callbacks a turn leads where it leads. -/
theorem Machine.turn_silent (m : Machine) (t : Turn) : m.silent.turn t.silent = (m.turn t).silent :=
  after_silent { m with chart := t.chart } t.input

-- By induction on the turns: each of them leads both machines to the same state and context.
/-- Without callbacks the same is seen of a machine. -/
theorem Machine.trace_silent : ∀ (m : Machine) (turns : List Turn),
    m.silent.trace (turns.map Turn.silent) = m.trace turns
  | _, [] => rfl
  | m, t :: rest => by
    have hreply := reply_silent { m with chart := t.chart } t.input
    have hrest := trace_silent (m.turn t) rest
    rw [List.map_cons, trace, turn_silent, hrest, trace, ← hreply]
    rfl

/-! ## Sessions of observers -/

/-- Whether the call only observes: it moves the cursor or attaches a callback. -/
def Call.observes : Call → Bool
  | .focus _ => true
  | .action _ => true
  | .onEntry _ => true
  | .onExit _ => true
  | _ => false

section

variable {call : Call} (h : call.observes = true)
include h

/-- An observer sets no guard. -/
theorem Call.guard?_of_observes : call.guard? = none := by
  cases call with
  | cond _ => cases h
  | _ => rfl

/-- An observer sets no invoke block. -/
theorem Call.block?_of_observes : call.block? = none := by
  cases call with
  | invoke _ _ => cases h
  | _ => rfl

/-- No action that an observer adds changes the context. -/
theorem Call.filter_action?_of_observes : call.action?.toList.filter Action.isAssign = [] := by
  cases call with
  | assign _ => cases h
  | _ => rfl

/-- An observer changes nothing of a transition but its callbacks. -/
theorem Call.silent_editTransition (t : Transition) :
    (call.editTransition t).silent = t.silent := by
  unfold editTransition Transition.silent
  rw [guard?_of_observes h, List.filter_append, filter_action?_of_observes h, List.append_nil]
  rfl

/-- An observer changes nothing of a state but its callbacks. -/
theorem Call.silent_editState (event : Option String) (s : State) :
    (call.editState event s).silent = s.silent := by
  have hon : (·.map Transition.silent) ∘ call.editOn event = (·.map Transition.silent) :=
    funext (map_editOn (silent_editTransition h) event)
  unfold State.silent editState
  rw [block?_of_observes h, Option.map_map, hon]
  rfl

end

/-- A session of observers changes nothing of a chart but its callbacks. -/
theorem Chart.silent_decoratedBy (c : Chart) (session : List Call)
    (hsession : ∀ call ∈ session, call.observes = true) :
    (c.decoratedBy session).silent = c.silent := by
  have hstates : (c.decoratedBy session).states.map State.silent = c.states.map State.silent :=
    c.build.map_states_run session fun call hcall => call.silent_editState (hsession call hcall)
  rw [c.decoratedBy_eq session, silent, silent, hstates]

/-- The turn on its chart after a session. -/
def Turn.decoratedBy (t : Turn) (session : List Call) : Turn :=
  { t with chart := t.chart.decoratedBy session }

namespace Chart

/-- A machine on a chart that was decorated by a session of observers starts in the same state,
gives the same replies and goes through the same states and contexts as a machine on the chart,
whatever the context and however the functions behave in each turn. -/
theorem trace_decoratedBy (c : Chart) (session : List Call)
    (hsession : ∀ call ∈ session, call.observes = true) (context : Json) (turns : List Turn) :
    ((c.decoratedBy session).machine context).state = (c.machine context).state ∧
      ((c.decoratedBy session).machine context).trace (turns.map (·.decoratedBy session)) =
        (c.machine context).trace turns := by
  have hinitial : (c.decoratedBy session).initial = c.initial := by rw [c.decoratedBy_eq session]
  have hsilent : ((c.decoratedBy session).machine context).silent = (c.machine context).silent := by
    unfold machine Machine.silent
    rw [silent_decoratedBy c session hsession, hinitial]
  have hturns : (turns.map (·.decoratedBy session)).map Turn.silent = turns.map Turn.silent := by
    rw [List.map_map]
    exact List.map_congr_left fun t _ =>
      congrArg (Turn.mk · t.input) (silent_decoratedBy t.chart session hsession)
  refine ⟨hinitial, ?_⟩
  calc ((c.decoratedBy session).machine context).trace (turns.map (·.decoratedBy session))
      = ((c.decoratedBy session).machine context).silent.trace
          ((turns.map (·.decoratedBy session)).map Turn.silent) := (Machine.trace_silent ..).symm
    _ = (c.machine context).silent.trace (turns.map Turn.silent) := by rw [hsilent, hturns]
    _ = (c.machine context).trace turns := Machine.trace_silent ..

/-- Observers of a kettle: a callback where no event is in focus, one on its transition, and hooks
in a state that exists and in one that does not. -/
def kettleObservers : List Call :=
  [.action ⟨3, none⟩, .focus { event := some "HEAT" }, .action ⟨3, none⟩,
    .focus { state := some "hot" }, .onEntry ⟨4, none⟩, .focus { state := some "lid" },
    .onExit ⟨5, none⟩]

/-- Turns of a kettle that is off and is then switched on. -/
def kettleTurns : List Turn :=
  [⟨kettle false, .send "HEAT"⟩, ⟨kettle false, .settle⟩, ⟨kettle true, .send "HEAT"⟩]

/-- The observed kettle has the callback on its transition, and goes through all turns as the plain
one does. -/
theorem trace_decoratedBy_kettle :
    (∀ call ∈ kettleObservers, call.observes = true) ∧
      (((kettle true).decoratedBy kettleObservers).transition? "cold" "HEAT").map
        (·.actions.length) = some 1 ∧
      (((kettle true).decoratedBy kettleObservers).machine .null).trace
          (kettleTurns.map (·.decoratedBy kettleObservers)) =
        ((kettle true).machine .null).trace kettleTurns := by
  have hobserves : ∀ call ∈ kettleObservers, call.observes = true := by decide
  have htrace := trace_decoratedBy (kettle true) kettleObservers hobserves .null kettleTurns
  exact ⟨hobserves, by decide +kernel, htrace.2⟩

end Chart

end FlatChart
