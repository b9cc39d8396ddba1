import FlatChart.Builder.Basic

/-!
# Wiring an invoke block

After `invoke` the two handlers of the block are wired one after the other, in either order and each
once:

    pending ── done ──→ doneWired ── error ──→ settled
       └────── error ─→ errorWired ── done ──→ settled

A handler is reached by its target; reducers are added to it before its target is set, and after it
until the other handler is begun. The types of `InvocationCalls` and `CompletionCalls` admit just
the chains of calls that this order allows, and `run` performs one.
-/

namespace FlatChart

/-- How far the handlers of an invoke block are wired. -/
inductive Stage where
  | pending
  | doneWired
  | errorWired
  | settled
  deriving DecidableEq

/-- `Wiring s k n` says that handler `k` can be begun at stage `s`, and that its target leads to
stage `n`. -/
inductive Wiring : Stage → Completion → Stage → Type where
  | doneFirst : Wiring .pending .done .doneWired
  | errorFirst : Wiring .pending .error .errorWired
  | errorLast : Wiring .doneWired .error .settled
  | doneLast : Wiring .errorWired .done .settled

mutual
/-- The calls that may follow at a stage. -/
inductive InvocationCalls : Stage → Type where
  /-- No further call. -/
  | stop {stage : Stage} : InvocationCalls stage
  /-- Back to the builder. -/
  | builder {stage : Stage} : InvocationCalls stage
  /-- Add a reducer to the handler that was wired last; some handler must have been. -/
  | assign {stage : Stage} (wired : stage ≠ .pending) (reducer : Reducer)
      (rest : InvocationCalls stage) : InvocationCalls stage
  /-- Begin a handler. -/
  | handle {stage next : Stage} {completion : Completion} (wiring : Wiring stage completion next)
      (rest : CompletionCalls completion next) : InvocationCalls stage

/-- The calls that may follow while a handler is begun; `next` is the stage after its target. -/
inductive CompletionCalls : Completion → Stage → Type where
  /-- No further call. -/
  | stop {completion : Completion} {next : Stage} : CompletionCalls completion next
  /-- Add a reducer to the handler. -/
  | assign {completion : Completion} {next : Stage} (reducer : Reducer)
      (rest : CompletionCalls completion next) : CompletionCalls completion next
  /-- Set the target of the handler. -/
  | target {completion : Completion} {next : Stage} (state : String)
      (rest : InvocationCalls next) : CompletionCalls completion next
end

/-- An invoke block between two handlers. -/
structure Invocation where
  /-- The builder. -/
  builder : Builder
  /-- The handler that was wired last. -/
  last : Option Completion

/-- What can be seen after a call of a chain. -/
inductive Report where
  /-- The chain stands between two handlers, at a stage. -/
  | invocation (stage : Stage) (invocation : Invocation)
  /-- The chain stands inside a handler. -/
  | completion (completion : Completion) (builder : Builder)
  /-- The chain has gone back to the builder. -/
  | builder (builder : Builder)
  /-- The call failed, and the chain ends. -/
  | failed (missing : MissingTarget)

namespace Invocation

/-- Adds a reducer to the handler that was wired last. A handler that does not resolve is passed
over in silence. -/
def assign (i : Invocation) (reducer : Reducer) : Invocation :=
  match i.last with
  | none => i
  | some completion =>
    match i.builder.complete .assign completion (·.addAction (.assign reducer)) with
    | .ok b => { i with builder := b }
    | .error _ => i

end Invocation

namespace Builder

/-- Adds a reducer to a handler that is begun. -/
def assignCompletion (b : Builder) (completion : Completion) (reducer : Reducer) :
    Except MissingTarget Builder :=
  b.complete .assign completion (·.addAction (.assign reducer))

/-- Sets the target of a handler that is begun. -/
def targetCompletion (b : Builder) (completion : Completion) (state : String) :
    Except MissingTarget Builder :=
  b.complete .target completion fun t => { t with target := some state }

end Builder

mutual
/-- Performs the calls at a stage: one report for each, and the builder after them. -/
def InvocationCalls.run : {stage : Stage} → InvocationCalls stage → Invocation →
    List Report × Builder
  | _, .stop, i => ([], i.builder)
  | _, .builder, i => ([.builder i.builder], i.builder)
  | stage, .assign _ reducer rest, i =>
    let i := i.assign reducer
    let (reports, b) := rest.run i
    (.invocation stage i :: reports, b)
  | _, @InvocationCalls.handle _ _ completion _ rest, i =>
    let (reports, b) := rest.run i.builder
    (.completion completion i.builder :: reports, b)

/-- Performs the calls inside a handler: one report for each, and the builder after them. A call
that fails ends the chain. -/
def CompletionCalls.run : {completion : Completion} → {next : Stage} →
    CompletionCalls completion next → Builder → List Report × Builder
  | _, _, .stop, b => ([], b)
  | completion, _, .assign reducer rest, b =>
    match b.assignCompletion completion reducer with
    | .error missing => ([.failed missing], b)
    | .ok b =>
      let (reports, b') := rest.run b
      (.completion completion b :: reports, b')
  | completion, next, .target state rest, b =>
    match b.targetCompletion completion state with
    | .error missing => ([.failed missing], b)
    | .ok b =>
      let i : Invocation := ⟨b, some completion⟩
      let (reports, b') := rest.run i
      (.invocation next i :: reports, b')
end

/-- Sets the invoke block in focus and performs a chain of calls on it. The first report is of the
block without handlers. -/
def Builder.invokeChain (b : Builder) (service : Service) (calls : InvocationCalls .pending) :
    List Report × Builder :=
  let i : Invocation := ⟨b.invoke service, none⟩
  let (reports, b) := calls.run i
  (.invocation .pending i :: reports, b)

end FlatChart
