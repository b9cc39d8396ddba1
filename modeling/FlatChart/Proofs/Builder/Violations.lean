import FlatChart.Proofs.Builder.Data
import FlatChart.Proofs.Builder.Typestate
import FlatChart.Proofs.Chart.Violations

/-!
# The violations of a decorated chart

All violations but those of handlers are told from the data of a chart (`Chart.filter_violations`),
which no session changes. A violation of a handler is told from the target of the handler, and every
target that a handler has after a session was there before the session or was set by it
(`Builder.handlerLeads_run`): calls that fail set nothing, a chain that replaces a block keeps
nothing of it, and each call sets targets only in the state in focus. `Builder.aims` are the targets
that a session sets. So a session makes a chart invalid only by aims at states that do not exist
(`Chart.violations_decoratedBy`).
-/

namespace FlatChart

/-! ## Violations that are told from the data -/

/-- Whether the violation is of a handler of an invoke block. -/
def Violation.isCompletion : Violation → Bool
  | .unknownCompletionTarget .. => true
  | _ => false

/-- The transitions of the data of a state are the data of its transitions. -/
theorem State.transitions_strip (s : State) :
    s.strip.transitions = s.transitions.map Transition.strip := by
  unfold transitions strip
  cases s.on with
  | none => exact SortedMap.toList_inj.1 (by simp)
  | some on => rfl

namespace Chart

variable {c : Chart} {id : String}

/-- The states of the data are the data of the states. -/
theorem state?_strip (c : Chart) (id : String) :
    c.strip.state? id = (c.state? id).map State.strip := SortedMap.get?_map ..

/-- In the data of a chart the initial state is found or not as in the chart. -/
theorem initialViolations_strip (c : Chart) : c.strip.initialViolations = c.initialViolations := by
  have hinitial : c.strip.initial = c.initial := rfl
  unfold initialViolations
  simp only [hinitial, state?_strip, Option.map_eq_none_iff]

/-- In the data of a state the same is found of a final state. -/
theorem finalViolations_strip (id : String) (s : State) :
    finalViolations id s.strip = finalViolations id s := by
  have hfinal : s.strip.final = s.final := rfl
  have hlength : s.strip.transitions.toList.length = s.transitions.toList.length := by
    rw [State.transitions_strip, SortedMap.toList_map, List.length_map]
  rw [finalViolations, finalViolations, hfinal, hlength]

/-- In the data of a chart the same is found of the transitions of a state. -/
theorem targetViolations_strip (c : Chart) (id : String) (s : State) :
    c.strip.targetViolations id s.strip = c.targetViolations id s := by
  rw [targetViolations, targetViolations, State.transitions_strip, SortedMap.toList_map,
    List.flatMap_map]
  refine List.flatMap_congr fun e _ => ?_
  have htarget : e.2.strip.target = e.2.target := rfl
  rw [violations_checkTarget, violations_checkTarget, htarget]
  simp only [state?_strip, Option.isNone_map]

/-- Apart from its handlers, what is found in a state is what is found in its data. -/
theorem filter_stateViolations (c : Chart) (id : String) (s : State) :
    (c.stateViolations id s).filter (!·.isCompletion) = c.strip.stateViolations id s.strip := by
  -- Only the last of the three lists is dropped, and it is the one that the data has nothing of.
  have hfinal : (finalViolations id s).filter (!·.isCompletion) = finalViolations id s := by
    refine List.filter_eq_self.2 fun v hv => ?_
    obtain ⟨-, -, rfl⟩ := mem_finalViolations.1 hv
    rfl
  have htargets : (c.targetViolations id s).filter (!·.isCompletion) = c.targetViolations id s := by
    refine List.filter_eq_self.2 fun v hv => ?_
    obtain ⟨_, _, _, -, -, -, rfl⟩ := mem_targetViolations.1 hv
    rfl
  have hcompletions : (c.completionViolations id s).filter (!·.isCompletion) = [] := by
    refine List.filter_eq_nil_iff.2 fun v hv => ?_
    obtain ⟨_, _, _, _, -, -, -, -, rfl⟩ := mem_completionViolations.1 hv
    simp [Violation.isCompletion]
  have hnone : c.strip.completionViolations id s.strip = [] := rfl
  rw [stateViolations, stateViolations, List.filter_append, List.filter_append, hfinal, htargets,
    hcompletions, finalViolations_strip, targetViolations_strip, hnone]

/-- Apart from those of handlers, the violations of a chart are those of its data. -/
theorem filter_violations (c : Chart) :
    c.violations.filter (!·.isCompletion) = c.strip.violations := by
  have hinitial : c.initialViolations.filter (!·.isCompletion) = c.initialViolations := by
    refine List.filter_eq_self.2 fun v hv => ?_
    obtain ⟨-, -, rfl⟩ := mem_initialViolations.1 hv
    rfl
  have hstates : c.strip.states = c.states.map State.strip := rfl
  rw [violations_eq, violations_eq, List.filter_append, hinitial, initialViolations_strip, hstates,
    SortedMap.toList_map, List.flatMap_map, List.filter_flatMap]
  simp only [filter_stateViolations]

/-! ## Targets of handlers -/

/-- The state has an invoke block whose handler for the completion leads to the target. -/
def HandlerLeads (c : Chart) (id : String) (k : Completion) (target : String) : Prop :=
  ∃ s i t, c.state? id = some s ∧ s.invoke = some i ∧ i.handler k = some t ∧ t.target = some target

/-- A handler violates when it leads to a state that does not exist. -/
theorem mem_violations_iff_handlerLeads {k : Completion} {target : String} :
    .unknownCompletionTarget id k target ∈ c.violations ↔
      c.HandlerLeads id k target ∧ c.state? target = none := by
  rw [mem_violations]
  constructor
  · rintro ⟨s, i, t, hs, hi, ht, htarget, hnone⟩
    exact ⟨⟨s, i, t, hs, hi, ht, htarget⟩, hnone⟩
  · rintro ⟨⟨s, i, t, hs, hi, ht, htarget⟩, hnone⟩
    exact ⟨s, i, t, hs, hi, ht, htarget, hnone⟩

end Chart

/-- The target of a handler that edits make is set by one of them. -/
theorem Invoke.exists_mem_of_handler_wired {service : Service} {edits : List (Completion × Edit)}
    {k : Completion} {t : Transition} {target : String}
    (ht : (wired service edits).handler k = some t) (htarget : t.target = some target) :
    (k, .target target) ∈ edits := by
  have hhandler : (wired service edits).handler k =
      Transition.wired ((edits.filter (·.1 = k)).map Prod.snd) := by cases k <;> rfl
  rw [hhandler, Transition.wired] at ht
  split at ht
  · cases ht
  · -- The last target that was set is the one of the handler.
    obtain rfl := Option.some.inj ht
    obtain ⟨e, he, heq⟩ := List.mem_filterMap.1 (List.mem_of_getLast? htarget)
    obtain ⟨⟨k', e⟩, hfilter, rfl⟩ := List.mem_map.1 he
    obtain ⟨hmem, hk⟩ := List.mem_filter.1 hfilter
    obtain rfl : k' = k := of_decide_eq_true hk
    cases e with
    | assign f => cases heq
    | target state =>
      obtain rfl : state = target := Option.some.inj heq
      exact hmem

/-! ## Targets that are set -/

/-- A target that was set for a handler. -/
structure Aim where
  /-- The state that was in focus. -/
  focus : Option String
  /-- The handler that was begun. -/
  completion : Completion
  /-- The target that was set. -/
  target : String
  deriving DecidableEq

mutual
/-- The targets that the calls at a stage set. -/
def InvocationCalls.aims : {stage : Stage} → InvocationCalls stage → Invocation → List Aim
  | _, .stop, _ => []
  | _, .builder, _ => []
  | _, .assign _ reducer rest, i => rest.aims (i.assign reducer)
  | _, .handle _ rest, i => rest.aims i.builder

/-- The targets that the calls inside a handler and after it set; a call that fails sets none and
ends the chain. -/
def CompletionCalls.aims :
    {k : Completion} → {next : Stage} → CompletionCalls k next → Builder → List Aim
  | _, _, .stop, _ => []
  | k, _, .assign reducer rest, b =>
    match b.assignCompletion k reducer with
    | .error _ => []
    | .ok b => rest.aims b
  | k, _, .target state rest, b =>
    match b.targetCompletion k state with
    | .error _ => []
    | .ok b' => ⟨b.cursor.state, k, state⟩ :: rest.aims ⟨b', some k⟩
end

/-- The targets that a call sets. -/
def Call.aims (b : Builder) : Call → List Aim
  | .invoke service calls => calls.aims ⟨b.invoke service, none⟩
  | _ => []

/-- The targets that a session sets. -/
def Builder.aims (b : Builder) : List Call → List Aim
  | [] => []
  | call :: rest => call.aims b ++ (call.run b).2.aims rest

/-- The target that an edit sets, with a state in focus. -/
def Edit.aim? (focus : Option String) (e : Completion × Edit) : Option Aim :=
  e.2.target?.map fun target => ⟨focus, e.1, target⟩

/-- A block is put where the cursor is, which does not move. -/
theorem Builder.cursor_withInvoke (b : Builder) (i : Invoke) :
    (b.withInvoke i).cursor = b.cursor := by
  unfold withInvoke modifyFocused
  split <;> rfl

-- By induction on the chain: in a state that exists no call fails, so every edit is made, with the
-- cursor where it was before the chain.
mutual
/-- In a state that exists, the calls at a stage set the targets of their edits. -/
theorem InvocationCalls.aims_withInvoke {b : Builder} (hb : b.focused? ≠ none) :
    ∀ {stage : Stage} (calls : InvocationCalls stage) (i : Invoke) (last : Option Completion),
      calls.aims ⟨b.withInvoke i, last⟩ = (calls.edits last).filterMap (Edit.aim? b.cursor.state)
  | _, .stop, _, _ => rfl
  | _, .builder, _, _ => rfl
  | _, .assign _ reducer rest, i, last => by
    have hassign : (last.toList.map fun k => (k, Edit.assign reducer)).filterMap
        (Edit.aim? b.cursor.state) = [] := by
      cases last <;> rfl
    rw [InvocationCalls.aims, Invocation.assign_withInvoke, rest.aims_withInvoke hb,
      InvocationCalls.edits, List.filterMap_append, hassign, List.nil_append]
  | _, .handle _ rest, i, _ => by
    rw [InvocationCalls.aims, InvocationCalls.edits, rest.aims_withInvoke hb]

/-- In a state that exists, the calls inside a handler set the targets of their edits. -/
theorem CompletionCalls.aims_withInvoke {b : Builder} (hb : b.focused? ≠ none) :
    ∀ {k : Completion} {next : Stage} (calls : CompletionCalls k next) (i : Invoke),
      calls.aims (b.withInvoke i) = calls.edits.filterMap (Edit.aim? b.cursor.state)
  | _, _, .stop, _ => rfl
  | k, _, .assign reducer rest, i => by
    have hok : (b.withInvoke i).assignCompletion k reducer = .ok _ :=
      Builder.complete_withInvoke_of_focused hb i .assign k (.assign reducer)
    have hnone : Edit.aim? b.cursor.state (k, .assign reducer) = none := rfl
    rw [CompletionCalls.aims, CompletionCalls.edits, List.filterMap_cons_none hnone,
      ← rest.aims_withInvoke hb (i.edit (k, .assign reducer))]
    simp only [hok]
  | k, _, .target state rest, i => by
    have hok : (b.withInvoke i).targetCompletion k state = .ok _ :=
      Builder.complete_withInvoke_of_focused hb i .target k (.target state)
    have hsome : Edit.aim? b.cursor.state (k, .target state) =
        some ⟨b.cursor.state, k, state⟩ := rfl
    rw [CompletionCalls.aims, CompletionCalls.edits, List.filterMap_cons_some hsome,
      ← rest.aims_withInvoke hb (i.edit (k, .target state))]
    simp only [hok, Builder.cursor_withInvoke]
end

/-- In a state that exists, a target of the block that a chain builds is set by the chain. -/
theorem InvocationCalls.mem_aims_of_block {b : Builder} (hb : b.focused? ≠ none)
    {service : Service} {calls : InvocationCalls .pending} {k : Completion} {t : Transition}
    {target : String} (ht : (calls.block service).handler k = some t)
    (htarget : t.target = some target) :
    ⟨b.cursor.state, k, target⟩ ∈ calls.aims ⟨b.invoke service, none⟩ := by
  have hedit : (k, .target target) ∈ calls.edits none :=
    Invoke.exists_mem_of_handler_wired ht htarget
  have haims : calls.aims ⟨b.invoke service, none⟩ =
      (calls.edits none).filterMap (Edit.aim? b.cursor.state) :=
    calls.aims_withInvoke hb { src := service } none
  rw [haims]
  exact List.mem_filterMap.2 ⟨_, hedit, rfl⟩

/-! ## Sessions -/

namespace Builder

variable {id : String} {k : Completion} {target : String}

/-- After a call, the target of a handler was there before or is set by the call. -/
theorem handlerLeads_call {b : Builder} {call : Call}
    (h : (call.run b).2.chart.HandlerLeads id k target) :
    b.chart.HandlerLeads id k target ∨ ⟨some id, k, target⟩ ∈ call.aims b := by
  obtain ⟨s', i, t, hs', hi, ht, htarget⟩ := h
  rw [run_call, Chart.state?_edited] at hs'
  obtain ⟨s, hs, rfl⟩ := Option.map_eq_some_iff.1 hs'
  by_cases hcursor : b.cursor.state = some id
  · rw [if_pos hcursor] at hi
    have hb : b.focused? ≠ none := by simp [focused?, hcursor, hs]
    -- A call that sets a block replaces the one of the state in focus, and any other keeps it.
    cases call with
    | invoke service calls =>
      obtain rfl : calls.block service = i := Option.some.inj hi
      have haim := InvocationCalls.mem_aims_of_block hb ht htarget
      rw [hcursor] at haim
      exact .inr haim
    | _ => exact .inl ⟨s, i, t, hs, hi, ht, htarget⟩
  · rw [if_neg hcursor] at hi
    exact .inl ⟨s, i, t, hs, hi, ht, htarget⟩

/-- After a session, the target of a handler was there before or is set by the session. -/
theorem handlerLeads_run : ∀ (session : List Call) {b : Builder},
    (b.run session).2.chart.HandlerLeads id k target →
      b.chart.HandlerLeads id k target ∨ ⟨some id, k, target⟩ ∈ b.aims session
  | [], _, h => .inl h
  | call :: rest, b, h => by
    rw [run_cons] at h
    rw [aims, List.mem_append]
    rcases handlerLeads_run rest h with hcall | hrest
    · exact (handlerLeads_call hcall).imp_right .inl
    · exact .inr (.inr hrest)

end Builder

namespace Chart

variable {c : Chart} {id : String}

/-- A session changes no data. -/
theorem strip_decoratedBy (c : Chart) (session : List Call) :
    (c.decoratedBy session).strip = c.strip := c.build.strip_run session

/-- A session makes no state and takes none away. -/
theorem state?_decoratedBy_eq_none_iff (c : Chart) (session : List Call) (id : String) :
    (c.decoratedBy session).state? id = none ↔ c.state? id = none := by
  have hstate : ((c.decoratedBy session).state? id).map State.strip =
      (c.state? id).map State.strip := by
    rw [← state?_strip, ← state?_strip, strip_decoratedBy]
  rw [← Option.map_eq_none_iff, hstate, Option.map_eq_none_iff]

/-- A session leaves all violations but those of handlers as they are, in order. -/
theorem filter_violations_decoratedBy (c : Chart) (session : List Call) :
    (c.decoratedBy session).violations.filter (!·.isCompletion) =
      c.violations.filter (!·.isCompletion) := by
  rw [filter_violations, filter_violations, strip_decoratedBy]

/-- A handler that violates after a session did before, or the session set its target. -/
theorem unknownCompletionTarget_decoratedBy {session : List Call} {k : Completion} {target : String}
    (h : .unknownCompletionTarget id k target ∈ (c.decoratedBy session).violations) :
    .unknownCompletionTarget id k target ∈ c.violations ∨
      ⟨some id, k, target⟩ ∈ c.build.aims session := by
  obtain ⟨hleads, hnone⟩ := mem_violations_iff_handlerLeads.1 h
  rw [state?_decoratedBy_eq_none_iff] at hnone
  refine (Builder.handlerLeads_run session hleads).imp_left fun hbefore => ?_
  exact mem_violations_iff_handlerLeads.2 ⟨hbefore, hnone⟩

/-- A valid chart stays valid when all targets that a session sets are states of it. -/
theorem isValid_decoratedBy {session : List Call} (hvalid : c.isValid = true)
    (haims : ∀ aim ∈ c.build.aims session, c.state? aim.target ≠ none) :
    (c.decoratedBy session).isValid = true := by
  refine isValid_iff.2 fun v hv => ?_
  have hbefore : v ∉ c.violations := fun h => isValid_iff.1 hvalid v (mem_violations.1 h)
  have hafter : v ∈ (c.decoratedBy session).violations := mem_violations.2 hv
  cases hkind : v.isCompletion with
  | false =>
    have hmem : v ∈ (c.decoratedBy session).violations.filter (!·.isCompletion) :=
      List.mem_filter.2 ⟨hafter, by rw [hkind]; rfl⟩
    rw [filter_violations_decoratedBy] at hmem
    exact hbefore (List.mem_filter.1 hmem).1
  | true =>
    cases v with
    | unknownCompletionTarget id k target =>
      -- A handler that violates only since the session was aimed at a state that does not exist.
      obtain ⟨-, hnone⟩ := mem_violations_iff_handlerLeads.1 hafter
      rw [state?_decoratedBy_eq_none_iff] at hnone
      have haim := (unknownCompletionTarget_decoratedBy hafter).resolve_left hbefore
      exact haims _ haim hnone
    | _ => cases hkind

/-- A session leaves all violations but those of handlers as they are, in order. A handler that
violates after the session did before, or the session set its target. So a valid chart stays valid
when all targets that are set are states of it. -/
theorem violations_decoratedBy (c : Chart) (session : List Call) :
    (c.decoratedBy session).violations.filter (!·.isCompletion) =
        c.violations.filter (!·.isCompletion) ∧
      (∀ id k target,
        .unknownCompletionTarget id k target ∈ (c.decoratedBy session).violations →
          .unknownCompletionTarget id k target ∈ c.violations ∨
            ⟨some id, k, target⟩ ∈ c.build.aims session) ∧
      (c.isValid = true → (∀ aim ∈ c.build.aims session, c.state? aim.target ≠ none) →
        (c.decoratedBy session).isValid = true) :=
  ⟨c.filter_violations_decoratedBy session, fun _ _ _ => unknownCompletionTarget_decoratedBy,
    isValid_decoratedBy⟩

/-- A printer that waits for a job and then runs it. -/
def printer : Chart :=
  { initial := "waiting", states := .ofList [("waiting", {}), ("running", {})] }

/-- A session on a printer. Its first target is not set, as no state is in focus that exists, and
the next one is set in a block that is replaced by one with two handlers. -/
def printing (failed : String) : List Call :=
  let service : Service := ⟨0, none, .ok⟩
  [.focus { state := some "tray" }, .invoke service (.handle .doneFirst (.target "empty" .stop)),
    .focus { state := some "running" },
    .invoke service (.handle .errorFirst (.target "running" .stop)),
    .invoke service
      (.handle .doneFirst (.target "waiting" (.handle .errorLast (.target failed .builder))))]

/-- A target that is no state is violated where the session set it, in the block that it left. With
a state for this target the session keeps the printer valid, whatever it asked for where no state
was in focus. -/
theorem violations_decoratedBy_printer :
    (.unknownCompletionTarget "running" .error "stuck" ∈
          (printer.decoratedBy (printing "stuck")).violations ∧
        ⟨some "running", .error, "stuck"⟩ ∈ printer.build.aims (printing "stuck")) ∧
      (printer.isValid = true ∧
        (∀ aim ∈ printer.build.aims (printing "waiting"), printer.state? aim.target ≠ none) ∧
        (printer.decoratedBy (printing "waiting")).isValid = true) := by
  have hviolates : .unknownCompletionTarget "running" .error "stuck" ∈
      (printer.decoratedBy (printing "stuck")).violations := by decide +kernel
  have hnone : printer.violations = [] := by decide +kernel
  have hvalid : printer.isValid = true := by decide +kernel
  have hstates : ∀ aim ∈ printer.build.aims (printing "waiting"),
      (printer.state? aim.target).isSome := by decide +kernel
  have haims : ∀ aim ∈ printer.build.aims (printing "waiting"),
      printer.state? aim.target ≠ none :=
    fun aim h => Option.isSome_iff_ne_none.1 (hstates aim h)
  have h := (violations_decoratedBy printer (printing "stuck")).2.1 _ _ _ hviolates
  rw [hnone] at h
  exact ⟨⟨hviolates, h.resolve_left List.not_mem_nil⟩, hvalid, haims,
    (violations_decoratedBy printer (printing "waiting")).2.2 hvalid haims⟩

end Chart

end FlatChart
