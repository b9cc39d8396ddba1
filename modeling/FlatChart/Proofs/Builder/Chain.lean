import FlatChart.Proofs.Builder.Idle

/-!
# Chains that fail and chains that do not

Only a call inside a handler can fail. On a state that exists none does, and each reducer that is
passed along the chain ends up in the handler that it was meant for, in the order of the calls: the
call between two handlers, which would drop a reducer without a word, always finds the handler that
was wired last (`InvocationCalls.filterMap_edits`). Without such a state the first call inside a
handler fails, the chain ends there, and the builder is as it was before. `Builder.invokeChain_fate`
puts the two together.

Which handler is wired first, and which of its reducers are added before its target, makes no
difference: all chains that wire the two handlers with the same targets and reducers give the same
builder (`Builder.invokeChain_of_wires`).
-/

namespace FlatChart

/-! ## What is passed along a chain -/

mutual
/-- The reducers that are passed between two handlers and after, in the order of the calls, each
with the handler that is begun or was wired last before. -/
def InvocationCalls.passed : {stage : Stage} → InvocationCalls stage →
    (last : Option Completion) → List (Option Completion × Reducer)
  | _, .stop, _ => []
  | _, .builder, _ => []
  | _, .assign _ reducer rest, last => (last, reducer) :: rest.passed last
  | _, .handle _ rest, _ => rest.passed

/-- The reducers that are passed inside a handler and after. -/
def CompletionCalls.passed : {k : Completion} → {next : Stage} → CompletionCalls k next →
    List (Option Completion × Reducer)
  | _, _, .stop => []
  | k, _, .assign reducer rest => (some k, reducer) :: rest.passed
  | k, _, .target _ rest => rest.passed (some k)
end

/-- The reducer that an edit adds, with the handler that it changes. -/
def passedBy? (e : Completion × Edit) : Option (Option Completion × Reducer) :=
  e.2.reducer?.map fun reducer => (some e.1, reducer)

-- By induction on the chain: beyond the first stage there is a handler that was wired last, so a
-- reducer that is passed there is an edit of it.
mutual
/-- Between two handlers every reducer that is passed is an edit. -/
theorem InvocationCalls.filterMap_edits : ∀ {stage : Stage} (calls : InvocationCalls stage)
    (last : Option Completion), (stage ≠ .pending → last.isSome) →
      (calls.edits last).filterMap passedBy? = calls.passed last
  | _, .stop, _, _ => rfl
  | _, .builder, _, _ => rfl
  | _, .assign wired reducer rest, last, h => by
    obtain ⟨k, rfl⟩ := Option.isSome_iff_exists.1 (h wired)
    exact congrArg ((some k, reducer) :: ·) (rest.filterMap_edits (some k) h)
  | _, .handle _ rest, _, _ => rest.filterMap_edits

/-- Inside a handler every reducer that is passed is an edit. -/
theorem CompletionCalls.filterMap_edits : ∀ {k : Completion} {next : Stage}
    (calls : CompletionCalls k next), calls.edits.filterMap passedBy? = calls.passed
  | _, _, .stop => rfl
  | k, _, .assign reducer rest => congrArg ((some k, reducer) :: ·) rest.filterMap_edits
  | k, _, .target _ rest => rest.filterMap_edits (some k) fun _ => rfl
end

/-- The actions of a handler, none when it is absent. -/
def Invoke.actionsOf (i : Invoke) (k : Completion) : List Action :=
  ((i.handler k).map Transition.actions).getD []

/-- The actions of a handler that edits make are the reducers that they add. -/
theorem Transition.actions_wired (edits : List Edit) :
    ((wired edits).map actions).getD [] = (edits.filterMap Edit.reducer?).map .assign := by
  cases edits <;> rfl

/-- The reducers that edits of a handler add are those that are passed to it. -/
theorem filterMap_filter_edits (edits : List (Completion × Edit)) (k : Completion) :
    ((edits.filter (·.1 = k)).map Prod.snd).filterMap Edit.reducer? =
      ((edits.filterMap passedBy?).filter (·.1 = some k)).map Prod.snd := by
  induction edits with
  | nil => rfl
  | cons e rest ih =>
    obtain ⟨other, e⟩ := e
    by_cases h : other = k <;> cases e <;>
      simpa [List.filterMap_cons, passedBy?, Edit.reducer?, h] using ih

/-- The actions of a handler are the reducers that are passed to it. -/
theorem Invoke.actionsOf_wired (service : Service) (edits : List (Completion × Edit))
    (k : Completion) :
    (wired service edits).actionsOf k =
      ((edits.filterMap passedBy?).filter (·.1 = some k)).map fun p => .assign p.2 := by
  have hhandler : (wired service edits).handler k =
      Transition.wired ((edits.filter (·.1 = k)).map Prod.snd) := by
    cases k <;> rfl
  rw [actionsOf, hhandler, Transition.actions_wired, filterMap_filter_edits, List.map_map]
  rfl

/-- On a chain no reducer is passed to no handler. -/
theorem InvocationCalls.fst_ne_none_of_mem_passed (calls : InvocationCalls .pending)
    {p : Option Completion × Reducer} (hp : p ∈ calls.passed none) : p.1 ≠ none := by
  rw [← calls.filterMap_edits none fun h => absurd rfl h] at hp
  obtain ⟨e, -, he⟩ := List.mem_filterMap.1 hp
  obtain ⟨f, -, rfl⟩ := Option.map_eq_some_iff.1 he
  exact Option.some_ne_none e.1

/-! ## Where a chain fails -/

/-- What a builder lacks for a handler of the state in focus. -/
inductive Builder.LacksState (b : Builder) : Lack → Prop
  /-- No state is in focus. -/
  | state (hs : b.cursor.state = none) : LacksState b .state
  /-- The state in focus does not exist. -/
  | unknownState {s : String} (hs : b.cursor.state = some s) (hstate : b.chart.state? s = none) :
    LacksState b (.unknownState s)

/-- The first call of a chain inside a handler. -/
def CompletionCalls.first? : {k : Completion} → {next : Stage} → CompletionCalls k next →
    Option Operation
  | _, _, .stop => none
  | _, _, .assign _ _ => some .assign
  | _, _, .target _ _ => some .target

/-- The handler that a chain begins first, and the first call inside it. -/
def InvocationCalls.first? : InvocationCalls .pending → Option (Completion × Operation)
  | @InvocationCalls.handle _ _ k _ rest => rest.first?.map fun operation => (k, operation)
  | _ => none

namespace Builder

variable {b : Builder}

/-- A builder without a state in focus lacks one, or the one in focus does not exist. -/
theorem exists_lacksState_iff : (∃ lack, b.LacksState lack) ↔ b.focused? = none := by
  constructor
  · rintro ⟨lack, h⟩
    cases h with
    | state hs => simp [focused?, hs]
    | unknownState hs hstate => simp [focused?, hs, hstate]
  · intro h
    cases hs : b.cursor.state with
    | none => exact ⟨_, .state hs⟩
    | some s => exact ⟨_, .unknownState hs (by simpa [focused?, hs] using h)⟩

/-- Without a state in focus no block is found. -/
theorem LacksState.focusedInvoke {lack : Lack} (h : b.LacksState lack) :
    b.focusedInvoke = .error lack := by
  cases h with
  | state hs => simp [Builder.focusedInvoke, hs]
  | unknownState hs hstate => simp [Builder.focusedInvoke, hs, hstate]

/-- Without a state in focus every call inside a handler fails. -/
theorem LacksState.complete {lack : Lack} (h : b.LacksState lack) (operation : Operation)
    (k : Completion) (f : Transition → Transition) :
    b.complete operation k f = .error ⟨lack, operation⟩ := by
  simp only [Builder.complete, h.focusedInvoke]

/-- Without a state in focus a chain inside a handler ends at its first call. -/
theorem LacksState.run {lack : Lack} (h : b.LacksState lack) {k : Completion} {next : Stage}
    (calls : CompletionCalls k next) :
    calls.run b = ((calls.first?.map fun operation => .failed ⟨lack, operation⟩).toList, b) := by
  cases calls with
  | stop => rfl
  | assign reducer rest =>
    rw [CompletionCalls.run, assignCompletion, h.complete]
    rfl
  | target state rest =>
    rw [CompletionCalls.run, targetCompletion, h.complete]
    rfl

/-- Without a state in focus a chain reports its first call inside a handler as failed, and nothing
after it. -/
theorem LacksState.invokeChain {lack : Lack} (h : b.LacksState lack) (service : Service)
    (calls : InvocationCalls .pending) :
    (b.invokeChain service calls).2 = b ∧
      (calls.first? = none → (b.invokeChain service calls).1.filterMap Report.missing? = []) ∧
      ∀ k operation, calls.first? = some (k, operation) →
        (b.invokeChain service calls).1 =
          [.invocation .pending ⟨b, none⟩, .completion k b, .failed ⟨lack, operation⟩] := by
  have hinvoke : b.invoke service = b :=
    modifyFocused_eq_self (by simp [exists_lacksState_iff.1 ⟨lack, h⟩])
  rw [Builder.invokeChain, hinvoke]
  cases calls with
  | stop => exact ⟨rfl, fun _ => rfl, nofun⟩
  | builder => exact ⟨rfl, fun _ => rfl, nofun⟩
  | assign wired => exact absurd rfl wired
  | handle wiring rest =>
    rw [InvocationCalls.run, h.run]
    refine ⟨rfl, fun hfirst => ?_, fun k operation hfirst => ?_⟩
    · rw [Option.map_eq_none_iff.1 hfirst]
      rfl
    · obtain ⟨_, hfirst, heq⟩ := Option.map_eq_some_iff.1 hfirst
      cases heq
      rw [hfirst]
      rfl

/-- On a state that exists no call of a chain fails, and each reducer that is passed inside a
handler or between two handlers is added once to the handler that is begun or was wired last, in the
order of the calls. As a chain may stop anywhere, this is so after each of its calls. Without such a
state the first call inside a handler fails for want of it, and the builder is as it was. -/
theorem invokeChain_fate (b : Builder) (service : Service) (calls : InvocationCalls .pending) :
    (∀ s, b.focused? = some s →
      (b.invokeChain service calls).1.filterMap Report.missing? = [] ∧
        (∀ p ∈ calls.passed none, p.1 ≠ none) ∧
        ∃ block, (b.invokeChain service calls).2.focused? = some { s with invoke := some block } ∧
          block.src = service ∧
          ∀ k, block.actionsOf k =
            ((calls.passed none).filter (·.1 = some k)).map fun p => .assign p.2) ∧
      (b.focused? = none → ∃ lack, b.LacksState lack) ∧
      ∀ lack, b.LacksState lack →
        (b.invokeChain service calls).2 = b ∧
          (calls.first? = none → (b.invokeChain service calls).1.filterMap Report.missing? = []) ∧
          ∀ k operation, calls.first? = some (k, operation) →
            (b.invokeChain service calls).1 =
              [.invocation .pending ⟨b, none⟩, .completion k b, .failed ⟨lack, operation⟩] := by
  refine ⟨fun s hs => ?_, exists_lacksState_iff.2, fun lack h => h.invokeChain service calls⟩
  have hmissing := Call.missing_run_invoke (b := b) (by simp [hs]) service calls
  have hfocused : (b.invokeChain service calls).2.focused? =
      some { s with invoke := some (calls.block service) } := by
    rw [invokeChain_eq, focused?_withInvoke, hs]
    rfl
  have hpassed := calls.filterMap_edits none fun h => absurd rfl h
  refine ⟨hmissing, fun p => calls.fst_ne_none_of_mem_passed, calls.block service, hfocused, rfl,
    fun k => ?_⟩
  rw [InvocationCalls.block, Invoke.actionsOf_wired, hpassed]

/-- A dryer that is running, with an invoke block of its own. -/
def dryer : Chart where
  initial := "running"
  states := .ofList [("running",
    { invoke := some ⟨⟨0, none, .ok⟩, some { actions := [.assign ⟨1, none, id⟩] }, none⟩ })]

/-- A chain that wires one handler, with a reducer before its target and one after it, and is
abandoned inside the other handler. -/
def dryerChain : InvocationCalls .pending :=
  .handle .doneFirst (.assign ⟨2, none, id⟩ (.target "dry" (.assign (by decide) ⟨3, none, id⟩
    (.handle .errorLast (.assign ⟨4, none, id⟩ .stop)))))

/-- On the dryer each reducer of the chain lands in its handler, also after the target and in the
handler without one. Where no state is in focus that exists, the chain ends at its first reducer. -/
theorem invokeChain_fate_dryer :
    (∃ block, (dryer.build.invokeChain ⟨5, none, .ok⟩ dryerChain).2.focused? =
        some { invoke := some block } ∧
      block.actionsOf .done = [.assign ⟨2, none, id⟩, .assign ⟨3, none, id⟩] ∧
      block.actionsOf .error = [.assign ⟨4, none, id⟩]) ∧
      ((dryer.build.focus ⟨some "idle", none⟩).invokeChain ⟨5, none, .ok⟩ dryerChain).1 =
        [.invocation .pending ⟨dryer.build.focus ⟨some "idle", none⟩, none⟩,
          .completion .done (dryer.build.focus ⟨some "idle", none⟩),
          .failed ⟨.unknownState "idle", .assign⟩] := by
  obtain ⟨hfocused, -⟩ := invokeChain_fate dryer.build ⟨5, none, .ok⟩ dryerChain
  obtain ⟨-, -, block, hblock, -, hactions⟩ := hfocused _ rfl
  obtain ⟨-, -, hlost⟩ :=
    invokeChain_fate (dryer.build.focus ⟨some "idle", none⟩) ⟨5, none, .ok⟩ dryerChain
  obtain ⟨-, -, hreports⟩ := hlost (.unknownState "idle") (.unknownState rfl rfl)
  exact ⟨⟨block, hblock, hactions .done, hactions .error⟩, hreports .done .assign rfl⟩

end Builder

/-! ## The order of wiring -/

/-- What is wired for a handler. -/
structure Plan where
  /-- The target. -/
  target : String
  /-- The reducers, in order. -/
  reducers : List Reducer

/-- The handler of a plan: its target, its reducers, and nothing else. -/
def Plan.handler (p : Plan) : Transition :=
  { target := some p.target, actions := p.reducers.map .assign }

/-- Adds reducers to the handler that was wired last. -/
def InvocationCalls.assigns {stage : Stage} (wired : stage ≠ .pending) (reducers : List Reducer)
    (rest : InvocationCalls stage) : InvocationCalls stage :=
  reducers.foldr (.assign wired) rest

/-- Adds reducers to the handler that is begun. -/
def CompletionCalls.assigns {k : Completion} {next : Stage} (reducers : List Reducer)
    (rest : CompletionCalls k next) : CompletionCalls k next :=
  reducers.foldr .assign rest

/-- Wires a handler by a plan: `n` of its reducers are added before its target is set, and the
others after that. -/
def CompletionCalls.wire {k : Completion} {next : Stage} (wired : next ≠ .pending) (p : Plan)
    (n : ℕ) (rest : InvocationCalls next) : CompletionCalls k next :=
  .assigns (p.reducers.take n) (.target p.target (.assigns wired (p.reducers.drop n) rest))

/-- A chain wires both handlers by a plan for each, in either order, and ends. -/
inductive InvocationCalls.Wires (done error : Plan) : InvocationCalls .pending → Prop
  | doneFirst (n m : ℕ) {rest : InvocationCalls .settled} (last : rest = .stop ∨ rest = .builder) :
    Wires done error <| .handle .doneFirst <| .wire (by decide) done n <|
      .handle .errorLast <| .wire (by decide) error m rest
  | errorFirst (n m : ℕ) {rest : InvocationCalls .settled} (last : rest = .stop ∨ rest = .builder) :
    Wires done error <| .handle .errorFirst <| .wire (by decide) error m <|
      .handle .doneLast <| .wire (by decide) done n rest

/-- The edits of a handler that wire it by a plan. -/
def Plan.edits (p : Plan) (n : ℕ) : List Edit :=
  (p.reducers.take n).map .assign ++ .target p.target :: (p.reducers.drop n).map .assign

/-- Wherever the target stands among its edits, they make the handler of the plan. -/
theorem Plan.wired_edits (p : Plan) (n : ℕ) : Transition.wired (p.edits n) = some p.handler := by
  have hne : (p.edits n).isEmpty = false := by simp [edits]
  have htarget : (p.edits n).filterMap Edit.target? = [p.target] := by
    rw [edits, List.filterMap_append, List.filterMap_cons, Edit.filterMap_target?_assign,
      Edit.filterMap_target?_assign]
    rfl
  have hreducers : (p.edits n).filterMap Edit.reducer? = p.reducers := by
    rw [edits, List.filterMap_append, List.filterMap_cons, Edit.filterMap_reducer?_assign,
      Edit.filterMap_reducer?_assign]
    exact List.take_append_drop n p.reducers
  rw [Transition.wired, hne, htarget, hreducers]
  rfl

/-- Reducers that are added between two handlers edit the handler that was wired last. -/
theorem InvocationCalls.edits_assigns {stage : Stage} (wired : stage ≠ .pending) (k : Completion)
    (rest : InvocationCalls stage) (reducers : List Reducer) :
    (assigns wired reducers rest).edits (some k) =
      reducers.map (fun f => (k, .assign f)) ++ rest.edits (some k) := by
  induction reducers with
  | nil => rfl
  | cons f reducers ih => exact congrArg ((k, Edit.assign f) :: ·) ih

/-- Reducers that are added inside a handler edit it. -/
theorem CompletionCalls.edits_assigns {k : Completion} {next : Stage}
    (rest : CompletionCalls k next) (reducers : List Reducer) :
    (assigns reducers rest).edits = reducers.map (fun f => (k, .assign f)) ++ rest.edits := by
  induction reducers with
  | nil => rfl
  | cons f reducers ih => exact congrArg ((k, Edit.assign f) :: ·) ih

/-- Wiring a handler by a plan edits it alone. -/
theorem CompletionCalls.edits_wire {k : Completion} {next : Stage} (wired : next ≠ .pending)
    (p : Plan) (n : ℕ) (rest : InvocationCalls next) :
    (wire (k := k) wired p n rest).edits =
      (p.edits n).map (fun e => (k, e)) ++ rest.edits (some k) := by
  rw [wire, edits_assigns, edits, InvocationCalls.edits_assigns, Plan.edits, List.map_append,
    List.map_cons, List.map_map, List.map_map, List.append_assoc]
  rfl

/-- Of edits of one handler another handler gets none. -/
theorem map_filter_edits (k other : Completion) (edits : List Edit) :
    ((edits.map fun e => (k, e)).filter (·.1 = other)).map Prod.snd =
      if k = other then edits else [] := by
  by_cases h : k = other
  · subst h
    rw [if_pos rfl, List.filter_eq_self.2 (by simp), List.map_map]
    exact List.map_id edits
  · rw [if_neg h, List.filter_eq_nil_iff.2 (by simp [h]), List.map_nil]

/-- The block of two plans. -/
def Invoke.planned (service : Service) (done error : Plan) : Invoke :=
  { src := service, onDone := some done.handler, onError := some error.handler }

/-- Edits that wire one handler and then the other make the block of their plans, whichever of the
two is the first. -/
theorem Invoke.wired_plans (service : Service) (done error : Plan) (n m : ℕ) :
    wired service ((done.edits n).map (fun e => (.done, e)) ++
        (error.edits m).map fun e => (.error, e)) = planned service done error ∧
      wired service ((error.edits m).map (fun e => (.error, e)) ++
        (done.edits n).map fun e => (.done, e)) = planned service done error := by
  simp only [wired, planned, List.filter_append, List.map_append, map_filter_edits, reduceCtorEq,
    if_true, if_false, List.append_nil, List.nil_append, Plan.wired_edits, and_self]

/-- Every chain that wires both handlers builds the block of their plans. -/
theorem InvocationCalls.Wires.block {service : Service} {done error : Plan}
    {calls : InvocationCalls .pending} (h : calls.Wires done error) :
    calls.block service = .planned service done error := by
  have hend : ∀ (rest : InvocationCalls .settled) (last : Option Completion),
      rest = .stop ∨ rest = .builder → rest.edits last = [] := by
    rintro _ last (rfl | rfl) <;> rfl
  rw [InvocationCalls.block]
  cases h with
  | doneFirst n m last =>
    rw [edits, CompletionCalls.edits_wire, edits, CompletionCalls.edits_wire, hend _ _ last,
      List.append_nil]
    exact (Invoke.wired_plans service done error n m).1
  | errorFirst n m last =>
    rw [edits, CompletionCalls.edits_wire, edits, CompletionCalls.edits_wire, hend _ _ last,
      List.append_nil]
    exact (Invoke.wired_plans service done error n m).2

namespace Builder

/-- On a state that exists all chains that wire both handlers by the same plans succeed and lead to
the same builder, where the state has the block of these plans in place of the one it had, and
everything else is as it was. -/
theorem invokeChain_of_wires {b : Builder} {id : String} {s : State}
    (hid : b.cursor.state = some id) (hs : b.chart.state? id = some s) (service : Service)
    {done error : Plan} {calls : InvocationCalls .pending} (h : calls.Wires done error) :
    (b.invokeChain service calls).1.filterMap Report.missing? = [] ∧
      (b.invokeChain service calls).2 =
        { b with chart := b.chart.modifyState id fun s =>
            { s with invoke := some (.planned service done error) } } := by
  have hfocused : b.focused? ≠ none := by simp [focused?, hid, hs]
  refine ⟨Call.missing_run_invoke hfocused service calls, ?_⟩
  rw [invokeChain_eq, h.block, withInvoke, modifyFocused, hid]

/-- What is wired for a dryer that is done. -/
def drying : Plan := ⟨"dry", [⟨2, none, id⟩, ⟨3, none, id⟩]⟩

/-- What is wired for a dryer that fails. -/
def failing : Plan := ⟨"running", [⟨4, none, id⟩]⟩

/-- Done first; the second of its reducers is added after its target. -/
def dryerDoneFirst : InvocationCalls .pending :=
  .handle .doneFirst (.assign ⟨2, none, id⟩ (.target "dry" (.assign (by decide) ⟨3, none, id⟩
    (.handle .errorLast (.assign ⟨4, none, id⟩ (.target "running" .builder))))))

/-- Failure first, its reducer after its target, and then all reducers before the other target. -/
def dryerErrorFirst : InvocationCalls .pending :=
  .handle .errorFirst (.target "running" (.assign (by decide) ⟨4, none, id⟩
    (.handle .doneLast (.assign ⟨2, none, id⟩ (.assign ⟨3, none, id⟩ (.target "dry" .stop))))))

/-- Both chains lead to the same builder, in which the dryer has the block of the two plans. -/
theorem invokeChain_of_wires_dryer :
    dryerDoneFirst.Wires drying failing ∧ dryerErrorFirst.Wires drying failing ∧
      (dryer.build.invokeChain ⟨5, none, .ok⟩ dryerDoneFirst).2 =
        (dryer.build.invokeChain ⟨5, none, .ok⟩ dryerErrorFirst).2 ∧
      (dryer.build.invokeChain ⟨5, none, .ok⟩ dryerDoneFirst).2.focused? =
        some { invoke := some ⟨⟨5, none, .ok⟩,
          some { target := some "dry", actions := [.assign ⟨2, none, id⟩, .assign ⟨3, none, id⟩] },
          some { target := some "running", actions := [.assign ⟨4, none, id⟩] }⟩ } := by
  have hdone : dryerDoneFirst.Wires drying failing := .doneFirst 1 1 (.inr rfl)
  have herror : dryerErrorFirst.Wires drying failing := .errorFirst 2 0 (.inl rfl)
  have hfirst := (invokeChain_of_wires (b := dryer.build) rfl rfl ⟨5, none, .ok⟩ hdone).2
  have hlast := (invokeChain_of_wires (b := dryer.build) rfl rfl ⟨5, none, .ok⟩ herror).2
  exact ⟨hdone, herror, hfirst.trans hlast.symm, congrArg focused? hfirst⟩

end Builder

end FlatChart
