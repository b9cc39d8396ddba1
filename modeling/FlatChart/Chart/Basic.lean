import FlatChart.Function

/-!
# Charts

The blueprint of a flat state machine: an initial state, a context, and states by name. A state has
transitions by event, hooks for entry and exit, and at most one invoke block, which runs a service
and goes on by one of two handlers when it completes.
-/

namespace FlatChart

/-- A way out of a state. -/
structure Transition where
  /-- The state it leads to; without one it only runs its actions. -/
  target : Option String := none
  /-- What it does, in order. -/
  actions : List Action := []
  /-- The test that the context must pass. -/
  cond : Option Guard := none
  /-- Data that is carried along. -/
  extra : SortedMap Json := ∅
  deriving BEq

/-- How a service completes. -/
inductive Completion where
  | done
  | error
  deriving DecidableEq

/-- The name of a completion in messages. -/
def Completion.name : Completion → String
  | .done => "Done"
  | .error => "Error"

/-- A service started with a state, and a handler for each way in which it completes. -/
structure Invoke where
  /-- The service. -/
  src : Service
  /-- The transition taken when the service succeeds. -/
  onDone : Option Transition := none
  /-- The transition taken when the service fails. -/
  onError : Option Transition := none
  deriving BEq

/-- One state of a chart. -/
structure State where
  /-- Whether the machine is done here. -/
  final : Bool := false
  /-- The transitions by event. An absent map and an empty one differ, and both lead nowhere. -/
  on : Option (SortedMap Transition) := none
  /-- What is called when the state is entered. -/
  entry : List Callback := []
  /-- What is called when the state is left. -/
  exit : List Callback := []
  /-- The service that runs in the state. -/
  invoke : Option Invoke := none
  deriving BEq

/-- The blueprint of a machine. -/
structure Chart where
  /-- The state in which a machine starts; empty when there is none. -/
  initial : String := ""
  /-- The context with which a machine starts. -/
  context : Option Json := none
  /-- The states by name. -/
  states : SortedMap State := ∅
  deriving BEq

instance : Inhabited Transition := ⟨{}⟩
instance : Inhabited State := ⟨{}⟩
instance : Inhabited Chart := ⟨{}⟩

namespace Transition

/-- The names that mean something of their own, in the tree or in the written transition. -/
def reservedKeys : List String :=
  ["event", "target", "children", "actions", "action", "assign", "cond", "type"]

/-- Whether a name is reserved; data under a reserved name is never carried along. -/
def isReserved (key : String) : Bool := reservedKeys.contains key

/-- The data that is written with the transition. -/
def freeExtra (t : Transition) : SortedMap Json := t.extra.filter fun key _ => !isReserved key

/-- The transition with an action added at the end. -/
def addAction (t : Transition) (a : Action) : Transition := { t with actions := t.actions ++ [a] }

end Transition

namespace Invoke

/-- The handler for a completion. -/
def handler (i : Invoke) : Completion → Option Transition
  | .done => i.onDone
  | .error => i.onError

/-- The block with the handler for a completion set. -/
def setHandler (i : Invoke) (t : Transition) : Completion → Invoke
  | .done => { i with onDone := some t }
  | .error => { i with onError := some t }

end Invoke

namespace State

/-- The transitions by event, none when the map is absent. -/
def transitions (s : State) : SortedMap Transition := s.on.getD ∅

/-- The state with a transition put under an event. -/
def withTransition (s : State) (event : String) (t : Transition) : State :=
  { s with on := some (s.transitions.insert event t) }

end State

namespace Chart

/-- The state under a name. -/
def state? (c : Chart) (id : String) : Option State := c.states.get? id

/-- The transition from a state on an event. -/
def transition? (c : Chart) (state event : String) : Option Transition := do
  let s ← c.state? state
  let on ← s.on
  on.get? event

/-- The chart with a state put under a name. -/
def withState (c : Chart) (id : String) (s : State) : Chart :=
  { c with states := c.states.insert id s }

/-- The chart with another context. -/
def withContext (c : Chart) (context : Json) : Chart := { c with context := some context }

/-- The chart with one state changed; without that state nothing changes. -/
def modifyState (c : Chart) (id : String) (f : State → State) : Chart :=
  { c with states := c.states.modify id f }

/-- The chart with one transition changed; without that transition nothing changes. -/
def modifyTransition (c : Chart) (state event : String) (f : Transition → Transition) : Chart :=
  c.modifyState state fun s => { s with on := s.on.map fun on => on.modify event f }

end Chart

end FlatChart
