import FlatChart.Builder.Invocation

/-!
# Sessions

A session is a list of calls on a builder. `Call.run` performs one call, which either gives another
builder or fails and leaves the builder as it was, and `Builder.run` performs a whole session.
-/

namespace FlatChart

/-- One call on a builder. -/
inductive Call where
  | focus (focus : Focus)
  | action (callback : Callback)
  | assign (reducer : Reducer)
  | cond (guard : Guard)
  | onEntry (callback : Callback)
  | onExit (callback : Callback)
  | invoke (service : Service) (calls : InvocationCalls .pending)

/-- What a call answers. -/
inductive Answer where
  /-- The call succeeded, or had nothing to do. -/
  | ok
  /-- The call failed. -/
  | failed (missing : MissingTarget)
  /-- The reports of a chain of calls on an invoke block. -/
  | reports (reports : List Report)

/-- The answer of an operation that may fail, and the builder after it. -/
def Builder.attempt (b : Builder) (r : Except MissingTarget Builder) : Answer × Builder :=
  match r with
  | .ok b' => (.ok, b')
  | .error missing => (.failed missing, b)

/-- The answer of a call and the builder after it. -/
def Call.run (b : Builder) : Call → Answer × Builder
  | .focus f => (.ok, b.focus f)
  | .action callback => b.attempt (b.action callback)
  | .assign reducer => b.attempt (b.assign reducer)
  | .cond guard => b.attempt (b.cond guard)
  | .onEntry callback => (.ok, b.onEntry callback)
  | .onExit callback => (.ok, b.onExit callback)
  | .invoke service calls =>
    let (reports, b) := b.invokeChain service calls
    (.reports reports, b)

/-- The answers of a session and the builder after it. -/
def Builder.run (b : Builder) : List Call → List Answer × Builder
  | [] => ([], b)
  | call :: rest =>
    let (answer, b) := call.run b
    let (answers, b) := b.run rest
    (answer :: answers, b)

end FlatChart
