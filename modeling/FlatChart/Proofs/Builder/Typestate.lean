import FlatChart.Proofs.Builder.Log

/-!
# What the stage of a chain says

A chain of calls on an invoke block is followed by its points (`InvocationCalls.points`), which are
its reports together with what happened inside the handler that is begun. At each point the stage,
or the handler that is begun, tells the invoke block in focus (`Point.Truthful`): between two
handlers just those of the stage are wired, and inside a handler just the reducers of this handler
have been added since.

Along a chain the builder is the one before it with a block put into the state in focus. If that
state exists, no call fails, and each edits the block as its stage says. If it does not, the first
call inside a handler fails, and as the chain ends there no stage beyond the first is reached. In
both cases the block that a handler needs is there, so no session ever misses it
(`Builder.truthful_session`).
-/

namespace FlatChart

/-! ## Stages -/

/-- The handlers that are wired at a stage. -/
def Stage.wired : Stage → List Completion
  | .pending => []
  | .doneWired => [.done]
  | .errorWired => [.error]
  | .settled => [.done, .error]

/-- What a stage says of an invoke block. -/
structure Stage.Describes (stage : Stage) (i : Invoke) : Prop where
  /-- The handlers that are wired have a target. -/
  wired : ∀ k ∈ stage.wired, ∃ t target, i.handler k = some t ∧ t.target = some target
  /-- The other handlers are absent. -/
  unwired : ∀ k ∉ stage.wired, i.handler k = none

/-- The target of a handler adds it to those that are wired. -/
theorem Wiring.mem_wired {stage next : Stage} {k other : Completion} (w : Wiring stage k next) :
    other ∈ next.wired ↔ other ∈ stage.wired ∨ other = k := by
  cases w <;> cases other <;> decide

/-- Only a handler that is not wired can be begun. -/
theorem Wiring.not_mem_wired {stage next : Stage} {k : Completion} (w : Wiring stage k next) :
    k ∉ stage.wired := by
  cases w <;> decide

/-! ## One edit of a block -/

namespace Invoke

variable {i : Invoke} {k other : Completion}

/-- The handler that is set is found. -/
theorem handler_setHandler (i : Invoke) (t : Transition) (k : Completion) :
    (i.setHandler t k).handler k = some t := by
  cases k <;> rfl

/-- The handlers that are not set are found as before. -/
theorem handler_setHandler_of_ne (t : Transition) (h : other ≠ k) :
    (i.setHandler t k).handler other = i.handler other := by
  cases k <;> cases other <;> first | rfl | exact absurd rfl h

/-- Setting a handler keeps the service. -/
theorem src_setHandler (i : Invoke) (t : Transition) (k : Completion) :
    (i.setHandler t k).src = i.src := by
  cases k <;> rfl

end Invoke

namespace Stage.Describes

variable {stage next : Stage} {i i' : Invoke} {k : Completion}

/-- A reducer that is added to a handler that is present leaves a block to its stage. -/
theorem edit_assign (h : stage.Describes i) (hk : i.handler k ≠ none) (f : Reducer) :
    stage.Describes (i.edit (k, .assign f)) := by
  have hmem : k ∈ stage.wired := by
    by_contra hnot
    exact hk (h.unwired k hnot)
  refine ⟨fun other hother => ?_, fun other hother => ?_⟩
  · by_cases heq : other = k
    · subst heq
      obtain ⟨t, target, ht, htarget⟩ := h.wired other hother
      refine ⟨_, target, Invoke.handler_setHandler .., ?_⟩
      rw [ht]
      exact htarget
    · obtain ⟨t, target, ht, htarget⟩ := h.wired other hother
      exact ⟨t, target, (Invoke.handler_setHandler_of_ne _ heq).trans ht, htarget⟩
  · have hne : other ≠ k := fun heq => hother (heq ▸ hmem)
    exact (Invoke.handler_setHandler_of_ne _ hne).trans (h.unwired other hother)

/-- The target of a handler leads to a block of the next stage, if the other handlers are as they
were at the stage before. -/
theorem edit_target (h : stage.Describes i) (w : Wiring stage k next)
    (hother : ∀ other ≠ k, i'.handler other = i.handler other) (target : String) :
    next.Describes (i'.edit (k, .target target)) := by
  refine ⟨fun other hmem => ?_, fun other hmem => ?_⟩
  · by_cases heq : other = k
    · subst heq
      exact ⟨_, target, Invoke.handler_setHandler .., rfl⟩
    · obtain ⟨t, target, ht, htarget⟩ := h.wired other ((w.mem_wired.1 hmem).resolve_right heq)
      refine ⟨t, target, ?_, htarget⟩
      rw [← ht, ← hother other heq]
      exact Invoke.handler_setHandler_of_ne _ heq
  · rw [w.mem_wired, not_or] at hmem
    rw [← h.unwired other hmem.1, ← hother other hmem.2]
    exact Invoke.handler_setHandler_of_ne _ hmem.2

end Stage.Describes

/-! ## Points of a chain -/

/-- A point that a chain of calls reaches. -/
inductive Point where
  /-- Between two handlers, at a stage. -/
  | invocation (stage : Stage) (i : Invocation)
  /-- Inside a handler, which was begun at `before` and was given `reducers` since. -/
  | completion (k : Completion) (before : Invocation) (reducers : List Reducer) (b : Builder)
  /-- Back at the builder. -/
  | builder (b : Builder)
  /-- At a call that failed. -/
  | failed (missing : MissingTarget)

/-- What can be seen at a point. -/
def Point.report : Point → Report
  | .invocation stage i => .invocation stage i
  | .completion k _ _ b => .completion k b
  | .builder b => .builder b
  | .failed missing => .failed missing

mutual
/-- The points that the calls at a stage reach. -/
def InvocationCalls.points :
    {stage : Stage} → InvocationCalls stage → Invocation → List Point
  | _, .stop, _ => []
  | _, .builder, i => [.builder i.builder]
  | stage, .assign _ reducer rest, i =>
    .invocation stage (i.assign reducer) :: rest.points (i.assign reducer)
  | _, @InvocationCalls.handle _ _ k _ rest, i =>
    .completion k i [] i.builder :: rest.points i [] i.builder

/-- The points that the calls inside a handler reach; the handler was begun at `before` and was
given `reducers` since. -/
def CompletionCalls.points :
    {k : Completion} → {next : Stage} → CompletionCalls k next → (before : Invocation) →
      (reducers : List Reducer) → Builder → List Point
  | _, _, .stop, _, _, _ => []
  | k, _, .assign reducer rest, before, reducers, b =>
    match b.assignCompletion k reducer with
    | .error missing => [.failed missing]
    | .ok b =>
      .completion k before (reducers ++ [reducer]) b ::
        rest.points before (reducers ++ [reducer]) b
  | k, next, .target state rest, _, _, b =>
    match b.targetCompletion k state with
    | .error missing => [.failed missing]
    | .ok b => .invocation next ⟨b, some k⟩ :: rest.points ⟨b, some k⟩
end

/-- The points that a chain reaches, from the block without handlers on. -/
def Builder.invokePoints (b : Builder) (service : Service) (calls : InvocationCalls .pending) :
    List Point :=
  .invocation .pending ⟨b.invoke service, none⟩ :: calls.points ⟨b.invoke service, none⟩

mutual
/-- The reports of the calls at a stage are of their points. -/
theorem InvocationCalls.reports_run : ∀ {stage : Stage} (calls : InvocationCalls stage)
    (i : Invocation), (calls.run i).1 = (calls.points i).map Point.report
  | _, .stop, _ => rfl
  | _, .builder, _ => rfl
  | stage, .assign _ reducer rest, i =>
    congrArg (Report.invocation stage (i.assign reducer) :: ·) (rest.reports_run (i.assign reducer))
  | _, @InvocationCalls.handle _ _ k _ rest, i =>
    congrArg (Report.completion k i.builder :: ·) (rest.reports_run i [] i.builder)

/-- The reports of the calls inside a handler are of their points. -/
theorem CompletionCalls.reports_run : ∀ {k : Completion} {next : Stage}
    (calls : CompletionCalls k next) (before : Invocation) (reducers : List Reducer) (b : Builder),
    (calls.run b).1 = (calls.points before reducers b).map Point.report
  | _, _, .stop, _, _, _ => rfl
  | k, _, .assign reducer rest, before, reducers, b => by
    rw [CompletionCalls.run, CompletionCalls.points]
    cases b.assignCompletion k reducer with
    | error missing => rfl
    | ok b =>
      have h := rest.reports_run before (reducers ++ [reducer]) b
      simp only [h]
      rfl
  | k, next, .target state rest, before, reducers, b => by
    rw [CompletionCalls.run, CompletionCalls.points]
    cases b.targetCompletion k state with
    | error missing => rfl
    | ok b =>
      have h := rest.reports_run ⟨b, some k⟩
      simp only [h]
      rfl
end

/-! ## What holds at a point -/

/-- What a point of a chain on a service says of the state in focus. -/
def Point.Truthful (service : Service) : Point → Prop
  | .invocation stage i =>
    (∀ s, i.builder.focused? = some s →
      ∃ block, s.invoke = some block ∧ block.src = service ∧ stage.Describes block) ∧
    (stage ≠ .pending →
      ∃ s block k t, i.builder.focused? = some s ∧ s.invoke = some block ∧ i.last = some k ∧
        block.handler k = some t)
  | .completion k before reducers b =>
    ∀ s, b.focused? = some s →
      ∃ block, s.invoke = some block ∧
        (block.handler k = none ∧ reducers = [] ∨
          ∃ t, block.handler k = some t ∧ t.target = none ∧ t.cond = none ∧ t.extra = ∅ ∧
            t.actions = reducers.map .assign) ∧
        ∃ s' block', before.builder.focused? = some s' ∧ s'.invoke = some block' ∧
          ∀ other ≠ k, block.handler other = block'.handler other
  | .builder _ => True
  | .failed missing => ∀ id, missing.lack ≠ .noInvoke id

/-- A block that is put into the state in focus is found there. -/
theorem Builder.focused?_withInvoke (b : Builder) (i : Invoke) :
    (b.withInvoke i).focused? = b.focused?.map fun s => { s with invoke := some i } := by
  unfold focused? withInvoke modifyFocused
  cases h : b.cursor.state with
  | none => simp [h]
  | some id => simp [h, Chart.state?_modifyState]

/-- Reducers alone make a handler without target, guard and data, and none of them make none. -/
theorem Transition.wired_assign (reducers : List Reducer) :
    wired (reducers.map .assign) =
      if reducers = [] then none else some { actions := reducers.map .assign } := by
  rw [wired, Edit.filterMap_target?_assign, Edit.filterMap_reducer?_assign]
  cases reducers <;> rfl

/-! ## One call of a chain -/

/-- A chain on a service stands between two handlers: `last` was wired last, and the builder before
the chain was `b`. -/
structure AtStage (b : Builder) (service : Service) (stage : Stage) (last : Option Completion)
    (block : Invoke) : Prop where
  /-- The block runs the service. -/
  src : block.src = service
  /-- The block is the one of the stage. -/
  describes : stage.Describes block
  /-- A handler is wired only in a state that exists. -/
  focused : stage ≠ .pending → b.focused? ≠ none
  /-- The handler that was wired last is present. -/
  last : stage ≠ .pending → ∃ k, last = some k ∧ block.handler k ≠ none

/-- A chain on a service stands inside a handler, which was begun on the block `before` and was
given `reducers` since. -/
structure InHandler (service : Service) (k : Completion) (before : Invoke) (reducers : List Reducer)
    (block : Invoke) : Prop where
  /-- The block runs the service. -/
  src : block.src = service
  /-- The handler is made by its reducers. -/
  handler : block.handler k = Transition.wired (reducers.map .assign)
  /-- The other handler is as it was. -/
  other : ∀ other ≠ k, block.handler other = before.handler other

namespace AtStage

variable {b : Builder} {service : Service} {stage next : Stage} {last : Option Completion}
  {block : Invoke} {k : Completion}

/-- A chain begins with a block without handlers. -/
theorem pending (b : Builder) (service : Service) :
    AtStage b service .pending none { src := service } where
  src := rfl
  describes := ⟨fun k hk => by simp [Stage.wired] at hk, fun k _ => by cases k <;> rfl⟩
  focused h := absurd rfl h
  last h := absurd rfl h

/-- A reducer that is added between two handlers leaves the chain at its stage. -/
theorem assign (h : AtStage b service stage (some k) block) (wired : stage ≠ .pending)
    (reducer : Reducer) :
    AtStage b service stage (some k) (block.edit (k, .assign reducer)) := by
  -- The reducer goes to the handler that was wired last, which is present at every stage but the
  -- first.
  obtain ⟨_, hlast, hk⟩ := h.last wired
  obtain rfl := Option.some.inj hlast
  exact {
    src := (Invoke.src_setHandler ..).trans h.src
    describes := h.describes.edit_assign hk reducer
    focused := h.focused
    last := fun _ => ⟨k, rfl, by simp [Invoke.edit, Invoke.handler_setHandler]⟩ }

/-- A handler that is begun has been given nothing yet. -/
theorem inHandler (h : AtStage b service stage last block) (w : Wiring stage k next) :
    InHandler service k block [] block where
  src := h.src
  handler := h.describes.unwired k w.not_mem_wired
  other _ _ := rfl

/-- Between two handlers the stage tells the truth. -/
theorem truthful (h : AtStage b service stage last block) :
    (Point.invocation stage ⟨b.withInvoke block, last⟩).Truthful service := by
  refine ⟨fun s hs => ?_, fun hwired => ?_⟩
  · rw [Builder.focused?_withInvoke] at hs
    obtain ⟨_, -, rfl⟩ := Option.map_eq_some_iff.1 hs
    exact ⟨block, rfl, h.src, h.describes⟩
  · obtain ⟨s, hs⟩ := Option.ne_none_iff_exists'.1 (h.focused hwired)
    obtain ⟨k, hlast, hk⟩ := h.last hwired
    obtain ⟨t, ht⟩ := Option.ne_none_iff_exists'.1 hk
    exact ⟨_, block, k, t, by rw [Builder.focused?_withInvoke, hs]; rfl, rfl, hlast, ht⟩

end AtStage

namespace InHandler

variable {b : Builder} {service : Service} {stage next : Stage} {k : Completion}
  {last : Option Completion} {before block : Invoke} {reducers : List Reducer}

/-- A reducer that is added to the handler is its last one. -/
theorem assign (h : InHandler service k before reducers block) (reducer : Reducer) :
    InHandler service k before (reducers ++ [reducer]) (block.edit (k, .assign reducer)) where
  src := (Invoke.src_setHandler ..).trans h.src
  handler := by
    rw [List.map_append, List.map_singleton, Transition.wired_concat, ← h.handler]
    exact Invoke.handler_setHandler ..
  other other hne := (Invoke.handler_setHandler_of_ne _ hne).trans (h.other other hne)

/-- The target of the handler leads to the next stage, in a state that exists. -/
theorem target (h : InHandler service k before reducers block)
    (hbefore : stage.Describes before) (w : Wiring stage k next) (hfocused : b.focused? ≠ none)
    (state : String) : AtStage b service next (some k) (block.edit (k, .target state)) where
  src := (Invoke.src_setHandler ..).trans h.src
  describes := hbefore.edit_target w h.other state
  focused _ := hfocused
  last _ := ⟨k, rfl, by simp [Invoke.edit, Invoke.handler_setHandler]⟩

/-- Inside a handler the handler tells the truth. -/
theorem truthful (h : InHandler service k before reducers block) :
    (Point.completion k ⟨b.withInvoke before, last⟩ reducers (b.withInvoke block)).Truthful
      service := by
  intro s hs
  rw [Builder.focused?_withInvoke] at hs
  obtain ⟨s', hfocused, rfl⟩ := Option.map_eq_some_iff.1 hs
  -- The handler is made by its first edit: it is absent just until there is a reducer.
  have hhandler := h.handler
  rw [Transition.wired_assign] at hhandler
  refine ⟨block, rfl, ?_, { s' with invoke := some before }, before, ?_, rfl, h.other⟩
  · by_cases hempty : reducers = []
    · rw [if_pos hempty] at hhandler
      exact .inl ⟨hhandler, hempty⟩
    · rw [if_neg hempty] at hhandler
      exact .inr ⟨_, hhandler, rfl, rfl, rfl, rfl⟩
  · rw [Builder.focused?_withInvoke, hfocused]
    rfl

end InHandler

/-! ## Chains and sessions -/

-- By induction on the chain: between two handlers the block in focus is the one of the stage, and
-- inside a handler it has just the reducers of this handler more.
mutual
/-- The points that the calls at a stage reach are truthful. -/
theorem InvocationCalls.truthful_points {b : Builder} {service : Service} :
    ∀ {stage : Stage} (calls : InvocationCalls stage) {last : Option Completion} {block : Invoke},
      AtStage b service stage last block →
      ∀ p ∈ calls.points ⟨b.withInvoke block, last⟩, p.Truthful service
  | _, .stop, _, _, _ => by simp [InvocationCalls.points]
  | _, .builder, _, _, _ => by simp [InvocationCalls.points, Point.Truthful]
  | stage, .assign wired reducer rest, last, block, h => by
    obtain ⟨k, rfl, -⟩ := h.last wired
    have hassign : Invocation.assign ⟨b.withInvoke block, some k⟩ reducer =
        ⟨b.withInvoke (block.edit (k, .assign reducer)), some k⟩ :=
      Invocation.assign_withInvoke b block (some k) reducer
    rw [InvocationCalls.points, hassign, List.forall_mem_cons]
    exact ⟨(h.assign wired reducer).truthful, rest.truthful_points (h.assign wired reducer)⟩
  | _, .handle w rest, _, _, h => by
    rw [InvocationCalls.points, List.forall_mem_cons]
    exact ⟨(h.inHandler w).truthful, rest.truthful_points w h.describes (h.inHandler w)⟩

/-- The points that the calls inside a handler reach are truthful. -/
theorem CompletionCalls.truthful_points {b : Builder} {service : Service} {stage : Stage} :
    ∀ {k : Completion} {next : Stage} (calls : CompletionCalls k next) {last : Option Completion}
      {before block : Invoke} {reducers : List Reducer}, Wiring stage k next →
      stage.Describes before → InHandler service k before reducers block →
      ∀ p ∈ calls.points ⟨b.withInvoke before, last⟩ reducers (b.withInvoke block),
        p.Truthful service
  | _, _, .stop, _, _, _, _, _, _, _ => by simp [CompletionCalls.points]
  | k, _, .assign reducer rest, last, before, block, reducers, w, hbefore, h => by
    have hcases := b.complete_withInvoke block .assign k (.assign reducer)
    unfold Edit.apply at hcases
    rw [CompletionCalls.points, Builder.assignCompletion]
    rcases hcases with ⟨-, hok⟩ | ⟨⟨missing, herror, hlack⟩, -⟩
    · simp only [hok, List.forall_mem_cons]
      exact ⟨(h.assign reducer).truthful, rest.truthful_points w hbefore (h.assign reducer)⟩
    · simp only [herror, List.forall_mem_singleton]
      exact hlack
  | k, next, .target state rest, last, before, block, reducers, w, hbefore, h => by
    have hcases := b.complete_withInvoke block .target k (.target state)
    unfold Edit.apply at hcases
    rw [CompletionCalls.points, Builder.targetCompletion]
    rcases hcases with ⟨hfocused, hok⟩ | ⟨⟨missing, herror, hlack⟩, -⟩
    · have hnext := h.target hbefore w hfocused state
      simp only [hok, List.forall_mem_cons]
      exact ⟨hnext.truthful, rest.truthful_points hnext⟩
    · simp only [herror, List.forall_mem_singleton]
      exact hlack
end

/-- The points of a chain are truthful. -/
theorem Builder.truthful_invokePoints (b : Builder) (service : Service)
    (calls : InvocationCalls .pending) :
    ∀ p ∈ b.invokePoints service calls, p.Truthful service :=
  List.forall_mem_cons.2
    ⟨(AtStage.pending b service).truthful, calls.truthful_points (AtStage.pending b service)⟩

/-- The reports of a chain are of its points. -/
theorem Builder.reports_invokeChain (b : Builder) (service : Service)
    (calls : InvocationCalls .pending) :
    (b.invokeChain service calls).1 = (b.invokePoints service calls).map Point.report :=
  congrArg (Report.invocation .pending ⟨b.invoke service, none⟩ :: ·)
    (calls.reports_run ⟨b.invoke service, none⟩)

/-- What a report says to be missing. -/
def Report.missing? : Report → Option MissingTarget
  | .failed missing => some missing
  | _ => none

/-- What an answer says to be missing. -/
def Answer.missing : Answer → List MissingTarget
  | .ok => []
  | .failed missing => [missing]
  | .reports rs => rs.filterMap Report.missing?

/-- The transition in focus does not want a block. -/
theorem Builder.lack_focusedTransition {b : Builder} {lack : Lack}
    (h : b.focusedTransition = .error lack) (id : String) : lack ≠ .noInvoke id := by
  unfold focusedTransition at h
  split at h
  · cases h
    simp
  · cases h
    simp
  · split at h
    · cases h
      simp
    · split at h <;> cases h
      simp

/-- An operation on the transition in focus does not fail for want of a block. -/
theorem Builder.missing_attempt_decorate (b : Builder) (operation : Operation)
    (f : Transition → Transition) :
    ∀ m ∈ (b.attempt (b.decorate operation f)).1.missing, ∀ id, m.lack ≠ .noInvoke id := by
  unfold decorate
  cases h : b.focusedTransition with
  | ok names => simp [attempt, Answer.missing]
  | error lack => simpa [attempt, Answer.missing] using lack_focusedTransition h

/-- No call fails for want of a block. -/
theorem Call.missing_run (b : Builder) (call : Call) :
    ∀ m ∈ (call.run b).1.missing, ∀ id, m.lack ≠ .noInvoke id := by
  cases call with
  | focus f => simp [Call.run, Answer.missing]
  | action f => exact b.missing_attempt_decorate .action _
  | assign f => exact b.missing_attempt_decorate .assign _
  | cond f => exact b.missing_attempt_decorate .cond _
  | onEntry f => simp [Call.run, Answer.missing]
  | onExit f => simp [Call.run, Answer.missing]
  | invoke service calls =>
    intro m hm
    have hreports : m ∈ (b.invokeChain service calls).1.filterMap Report.missing? := hm
    rw [Builder.reports_invokeChain, List.filterMap_map] at hreports
    obtain ⟨p, hp, hmissing⟩ := List.mem_filterMap.1 hreports
    have htruthful := b.truthful_invokePoints service calls p hp
    cases p with
    | failed missing =>
      obtain rfl := Option.some.inj hmissing
      exact htruthful
    | _ => cases hmissing

/-- No call of a session fails for want of a block. -/
theorem Builder.missing_run (b : Builder) :
    ∀ calls : List Call, ∀ answer ∈ (b.run calls).1, ∀ m ∈ answer.missing,
      ∀ id, m.lack ≠ .noInvoke id
  | [] => by simp [Builder.run]
  | call :: rest => by
    rw [Builder.run_cons, List.forall_mem_cons]
    exact ⟨call.missing_run b, missing_run _ rest⟩

/-- After any session, a chain of calls is truthful at all of its points, and no call of the session
fails for want of an invoke block. -/
theorem Builder.truthful_session (c : Chart) (session : List Call) :
    (∀ (service : Service) (calls : InvocationCalls .pending),
      ((c.build.run session).2.invokeChain service calls).1 =
          ((c.build.run session).2.invokePoints service calls).map Point.report ∧
        ∀ p ∈ (c.build.run session).2.invokePoints service calls, p.Truthful service) ∧
      ∀ answer ∈ (c.build.run session).1, ∀ m ∈ answer.missing, ∀ id, m.lack ≠ .noInvoke id :=
  ⟨fun service calls => ⟨Builder.reports_invokeChain _ service calls,
    Builder.truthful_invokePoints _ service calls⟩, c.build.missing_run session⟩

end FlatChart
