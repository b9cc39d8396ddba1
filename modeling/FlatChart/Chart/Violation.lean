import FlatChart.Chart.Basic

/-!
# Violations

What can be wrong in a chart that is otherwise well formed: an initial state that does not exist, a
final state with transitions, and targets that name no state. `Chart.checks` lists the checks that a
chart needs, `Chart.validate` makes all of them and gathers what they find, and a chart in which
nothing is found is valid. An empty initial state is no violation: it is what an empty tree compiles
to.
-/

namespace FlatChart

/-- A structural problem in a chart. -/
inductive Violation where
  /-- The initial state does not exist. -/
  | unknownInitial (initial : String)
  /-- A transition leads to a state that does not exist. -/
  | unknownTarget (state event target : String)
  /-- A handler of an invoke block leads to a state that does not exist. -/
  | unknownCompletionTarget (state : String) (completion : Completion) (target : String)
  /-- A final state has transitions. -/
  | finalWithTransitions (state : String)
  deriving DecidableEq

/-- The wording of a violation. -/
def Violation.message : Violation → String
  | .unknownInitial initial => "Initial state '" ++ initial ++ "' does not exist"
  | .unknownTarget state event target =>
    "Transition '" ++ state ++ "' --" ++ event ++ "--> targets unknown state '" ++ target ++ "'"
  | .unknownCompletionTarget state completion target =>
    completion.name ++ " handler of '" ++ state ++ "' targets unknown state '" ++ target ++ "'"
  | .finalWithTransitions state => "Final state '" ++ state ++ "' has outgoing transitions"

/-! ## Outcomes of checks -/

/-- The outcome of a check: it succeeds, or it finds violations, one at least. -/
inductive Validation where
  | success
  | failure (first : Violation) (rest : List Violation)
  deriving DecidableEq

namespace Validation

/-- The check that finds one violation. -/
def fail (v : Violation) : Validation := .failure v []

/-- What a check finds. -/
def violations : Validation → List Violation
  | .success => []
  | .failure first rest => first :: rest

/-- The outcome of a check that finds just these violations. -/
def ofViolations : List Violation → Validation
  | [] => .success
  | first :: rest => .failure first rest

/-- Several checks as one, which finds what each of them finds, in their order. -/
def all (checks : List Validation) : Validation := ofViolations (checks.flatMap violations)

end Validation

/-! ## Checks of a chart -/

namespace Chart

/-- The check of the initial state. -/
def checkInitial (c : Chart) : Validation :=
  if c.states.contains c.initial then .success else .fail (.unknownInitial c.initial)

/-- The check of a final state by the number of its transitions. -/
def checkFinal (id : String) (transitions : Nat) : Validation :=
  if transitions = 0 then .success else .fail (.finalWithTransitions id)

/-- The check that a transition leads to a state, if it leads anywhere; the violation is told from
the target. -/
def checkTarget (c : Chart) (t : Transition) (violation : String → Violation) : Validation :=
  match t.target with
  | none => .success
  | some target => if c.states.contains target then .success else .fail (violation target)

/-- The checks of the handlers of an invoke block that are present, `done` before `error`. -/
def completionChecks (c : Chart) (id : String) (i : Invoke) : List Validation :=
  [Completion.done, Completion.error].filterMap fun completion =>
    (i.handler completion).map fun t => c.checkTarget t (.unknownCompletionTarget id completion)

/-- The checks of a state: of a final state that it has no transitions, then of each transition in
order of the events, then of the invoke block if there is one. -/
def stateChecks (c : Chart) (id : String) (s : State) : List Validation :=
  (if s.final then [checkFinal id s.transitions.toList.length] else []) ++
    s.transitions.toList.map (fun e => c.checkTarget e.2 (.unknownTarget id e.1)) ++
    s.invoke.toList.flatMap (c.completionChecks id)

/-- The checks of a chart: of the initial state if there is one, then of each state in order of
their names. -/
def checks (c : Chart) : List Validation :=
  (if c.initial.isEmpty then [] else [c.checkInitial]) ++
    c.states.toList.flatMap fun e => c.stateChecks e.1 e.2

/-- All checks of a chart as one. -/
def validate (c : Chart) : Validation := .all c.checks

/-- All violations of a chart. -/
def violations (c : Chart) : List Violation := c.validate.violations

/-- Whether a chart has no violations. -/
def isValid (c : Chart) : Bool := c.validate = .success

end Chart

end FlatChart
