import FlatChart.Proofs.Builder.Typestate

/-!
# Calls that come to nothing

A call on the transition in focus succeeds just when there is one (`Builder.Resolves`), and fails
for the first reason in a fixed order otherwise (`Builder.Lacks`). A hook or an invoke block needs a
state in focus that exists. Where a call fails, or has nothing to work on, the builder is left as it
was (`Call.run_of_idles`). A chain on a state that exists does not fail, as each of its calls edits
the block that was put there (`InvocationCalls.missing_run_of_focused`), so what fails of a chain is
a chain on no state, and leaves nothing behind either.

From one call follows the session: without the calls that come to nothing it leads to the same
builder, and none of its calls fails (`Builder.run_kept`).
-/

namespace FlatChart

/-! ## Resolving the cursor -/

namespace Builder

/-- The cursor is on a transition that exists. -/
def Resolves (b : Builder) : Prop :=
  ∃ s e, b.cursor = ⟨some s, some e⟩ ∧ (b.chart.transition? s e).isSome

/-- What a builder lacks for an operation on the transition in focus: the first that is missing of
a state in focus, an event in focus, the state and its transition. -/
inductive Lacks (b : Builder) : Lack → Prop
  /-- No state is in focus. -/
  | state (hs : b.cursor.state = none) : Lacks b .state
  /-- A state is in focus, but no event. -/
  | event {s : String} (hs : b.cursor.state = some s) (he : b.cursor.event = none) :
    Lacks b (.event s)
  /-- Both are in focus, but the state does not exist. -/
  | unknownState {s e : String} (hs : b.cursor.state = some s) (he : b.cursor.event = some e)
    (hstate : b.chart.state? s = none) : Lacks b (.unknownState s)
  /-- The state exists and has no such transition. -/
  | unknownTransition {s e : String} (hs : b.cursor.state = some s) (he : b.cursor.event = some e)
    (hstate : (b.chart.state? s).isSome) (htransition : b.chart.transition? s e = none) :
    Lacks b (.unknownTransition s e)

variable {b : Builder}

/-- The transition in focus is not found for what the builder lacks. -/
theorem focusedTransition_eq_error_iff {lack : Lack} :
    b.focusedTransition = .error lack ↔ b.Lacks lack := by
  constructor
  · intro h
    unfold focusedTransition at h
    split at h
    · next hs =>
      cases h
      exact .state hs
    · next s hs he =>
      cases h
      exact .event hs he
    · next s e hs he =>
      split at h
      · next hstate =>
        cases h
        exact .unknownState hs he hstate
      · next state hstate =>
        split at h
        · next htransition =>
          cases h
          exact .unknownTransition hs he (by simp [hstate]) htransition
        · cases h
  · intro h
    cases h with
    | state hs => simp [focusedTransition, hs]
    | event hs he => simp [focusedTransition, hs, he]
    | unknownState hs he hstate => simp [focusedTransition, hs, he, hstate]
    | unknownTransition hs he hstate htransition =>
      obtain ⟨state, hstate⟩ := Option.isSome_iff_exists.1 hstate
      simp [focusedTransition, hs, he, hstate, htransition]

/-- The transition in focus is found just when the cursor is on one. -/
theorem exists_focusedTransition_iff :
    (∃ names, b.focusedTransition = .ok names) ↔ b.Resolves := by
  constructor
  · rintro ⟨names, h⟩
    unfold focusedTransition at h
    split at h
    · cases h
    · cases h
    · next s e hs he =>
      split at h
      · cases h
      · split at h
        · cases h
        · next t ht => exact ⟨s, e, by rw [← hs, ← he], by simp [ht]⟩
  · rintro ⟨s, e, hcursor, ht⟩
    obtain ⟨t, ht⟩ := Option.isSome_iff_exists.1 ht
    obtain ⟨state, hstate, -⟩ := Option.bind_eq_some_iff.1 ht
    exact ⟨(s, e), by simp [focusedTransition, hcursor, hstate, ht]⟩

/-! ## One call -/

/-- An operation succeeds where the transition in focus is found. -/
theorem attempt_decorate_of_ok {names : String × String} (h : b.focusedTransition = .ok names)
    (operation : Operation) (f : Transition → Transition) :
    (b.attempt (b.decorate operation f)).1 = .ok := by
  simp only [decorate, h, attempt]

/-- An operation that lacks something fails, and leaves the builder as it was. -/
theorem attempt_decorate_of_error {lack : Lack} (h : b.focusedTransition = .error lack)
    (operation : Operation) (f : Transition → Transition) :
    b.attempt (b.decorate operation f) = (.failed ⟨lack, operation⟩, b) := by
  simp only [decorate, h, attempt]

/-- A change that leaves no state as it is changes the chart just when there is a state in focus. -/
theorem chart_modifyFocused_ne_iff {f : State → State} (hf : ∀ s, f s ≠ s) :
    (b.modifyFocused f).chart ≠ b.chart ↔ b.focused? ≠ none := by
  constructor
  · intro h hnone
    exact h (by rw [modifyFocused_eq_self (by simp [hnone])])
  · intro h hchart
    obtain ⟨state, hstate⟩ := Option.ne_none_iff_exists'.1 h
    obtain ⟨s, hs, hstate⟩ := Option.bind_eq_some_iff.1 hstate
    -- The state would be found both as it was and changed.
    have hfound := b.chart.state?_modifyState s f
    have hmodify : (b.modifyFocused f).chart = b.chart.modifyState s f := by
      simp only [modifyFocused, hs]
    rw [← hmodify, hchart, hstate] at hfound
    exact hf state (Option.some.inj hfound).symm

end Builder

-- By induction on the chain: the block in focus is always one that was put there, and the state
-- stays, so every edit goes through.
mutual
/-- Between two handlers no call fails on a state that exists. -/
theorem InvocationCalls.missing_run_of_focused {b : Builder} (h : b.focused? ≠ none) :
    ∀ {stage : Stage} (calls : InvocationCalls stage) (i : Invoke) (last : Option Completion),
      (calls.run ⟨b.withInvoke i, last⟩).1.filterMap Report.missing? = []
  | _, .stop, _, _ => rfl
  | _, .builder, _, _ => rfl
  | _, .assign _ reducer rest, i, last => by
    rw [InvocationCalls.run, Invocation.assign_withInvoke]
    exact rest.missing_run_of_focused h _ last
  | _, .handle _ rest, i, _ => rest.missing_run_of_focused h i

/-- Inside a handler no call fails on a state that exists. -/
theorem CompletionCalls.missing_run_of_focused {b : Builder} (h : b.focused? ≠ none) :
    ∀ {k : Completion} {next : Stage} (calls : CompletionCalls k next) (i : Invoke),
      (calls.run (b.withInvoke i)).1.filterMap Report.missing? = []
  | _, _, .stop, _ => rfl
  | k, _, .assign reducer rest, i => by
    have hedit := Builder.complete_withInvoke_of_focused h i .assign k (.assign reducer)
    unfold Edit.apply at hedit
    rw [CompletionCalls.run, Builder.assignCompletion, hedit]
    exact rest.missing_run_of_focused h _
  | k, _, .target state rest, i => by
    have hedit := Builder.complete_withInvoke_of_focused h i .target k (.target state)
    unfold Edit.apply at hedit
    rw [CompletionCalls.run, Builder.targetCompletion, hedit]
    exact rest.missing_run_of_focused h _ (some k)
end

/-- The operation of a call on the transition in focus. -/
def Call.operation? : Call → Option Operation
  | .action _ => some .action
  | .assign _ => some .assign
  | .cond _ => some .cond
  | _ => none

/-- Whether the call works on the state in focus, whatever the event is. -/
def Call.worksOnState : Call → Bool
  | .onEntry _ => true
  | .onExit _ => true
  | .invoke _ _ => true
  | _ => false

/-- Whether a call comes to nothing: it fails, or it works on a state and there is none in focus. -/
def Call.idles (b : Builder) (call : Call) : Bool :=
  !(call.run b).1.missing.isEmpty || call.worksOnState && b.focused?.isNone

namespace Call

variable {b : Builder} {call : Call} {operation : Operation}

/-- A call with an operation attempts it on the transition in focus. -/
theorem run_eq_attempt (h : call.operation? = some operation) (b : Builder) :
    ∃ f, call.run b = b.attempt (b.decorate operation f) := by
  cases call with
  | action f =>
    obtain rfl := Option.some.inj h
    exact ⟨_, rfl⟩
  | assign f =>
    obtain rfl := Option.some.inj h
    exact ⟨_, rfl⟩
  | cond f =>
    obtain rfl := Option.some.inj h
    exact ⟨_, rfl⟩
  | _ => cases h

/-- An operation succeeds just when the cursor is on a transition that exists, and fails for what
the builder lacks. -/
theorem answer_iff (h : call.operation? = some operation) :
    ((call.run b).1 = .ok ↔ b.Resolves) ∧
      ∀ missing, (call.run b).1 = .failed missing ↔
        b.Lacks missing.lack ∧ missing.operation = operation := by
  obtain ⟨f, hrun⟩ := run_eq_attempt h b
  rw [hrun, ← Builder.exists_focusedTransition_iff]
  simp only [← Builder.focusedTransition_eq_error_iff]
  cases hfocused : b.focusedTransition with
  | ok names => simp [Builder.attempt_decorate_of_ok hfocused]
  | error lack =>
    rw [Builder.attempt_decorate_of_error hfocused]
    refine ⟨by simp, fun missing => ?_⟩
    constructor
    · intro heq
      cases heq
      exact ⟨rfl, rfl⟩
    · rintro ⟨hlack, rfl⟩
      cases hlack
      rfl

/-- A chain on a state that exists does not fail. -/
theorem missing_run_invoke (h : b.focused? ≠ none) (service : Service)
    (calls : InvocationCalls .pending) : ((invoke service calls).run b).1.missing = [] :=
  calls.missing_run_of_focused h { src := service } none

/-- A call that comes to nothing leaves the builder as it was. -/
theorem run_of_idles (h : call.idles b = true) : (call.run b).2 = b := by
  rw [idles, Bool.or_eq_true, Bool.and_eq_true, Bool.not_eq_true', List.isEmpty_eq_false_iff,
    Option.isNone_iff_eq_none] at h
  cases hoperation : call.operation? with
  | some operation =>
    -- An operation that succeeds comes to something, and one that fails gives the builder back.
    obtain ⟨f, hrun⟩ := run_eq_attempt hoperation b
    cases hfocused : b.focusedTransition with
    | ok names =>
      have hmissing : (call.run b).1.missing = [] := by
        rw [hrun, Builder.attempt_decorate_of_ok hfocused]
        rfl
      have hworks : call.worksOnState = false := by
        cases call <;> first | rfl | cases hoperation
      simp [hmissing, hworks] at h
    | error lack => rw [hrun, Builder.attempt_decorate_of_error hfocused]
  | none =>
    cases call with
    | focus f => simp [run, Answer.missing, worksOnState] at h
    | onEntry f =>
      have hnone : b.focused? = none := by simpa [run, Answer.missing, worksOnState] using h
      exact Builder.modifyFocused_eq_self (by simp [hnone])
    | onExit f =>
      have hnone : b.focused? = none := by simpa [run, Answer.missing, worksOnState] using h
      exact Builder.modifyFocused_eq_self (by simp [hnone])
    | invoke service calls =>
      -- A chain that fails is on no state, and then there is no state for its block either.
      have hnone : b.focused? = none := by
        by_contra hfocused
        simp [missing_run_invoke hfocused, hfocused] at h
      have hrun : ((invoke service calls).run b).2 = (b.invokeChain service calls).2 := rfl
      rw [hrun, Builder.invokeChain_eq]
      exact Builder.modifyFocused_eq_self (by simp [hnone])
    | _ => cases hoperation

end Call

/-! ## Sessions -/

namespace Builder

/-- The calls of a session that do not come to nothing. -/
def kept (b : Builder) : List Call → List Call
  | [] => []
  | call :: rest =>
    if call.idles b then (call.run b).2.kept rest else call :: (call.run b).2.kept rest

/-- Without the calls that come to nothing a session leads to the same builder. -/
theorem run_kept_snd (b : Builder) (calls : List Call) :
    (b.run (b.kept calls)).2 = (b.run calls).2 := by
  induction calls generalizing b with
  | nil => rfl
  | cons call rest ih =>
    have hrest := ih (call.run b).2
    rw [run_cons, kept]
    split
    · next h =>
      rw [Call.run_of_idles h] at hrest ⊢
      exact hrest
    · rw [run_cons]
      exact hrest

/-- None of the calls that are left fails. -/
theorem missing_run_kept (b : Builder) (calls : List Call) :
    ∀ answer ∈ (b.run (b.kept calls)).1, answer.missing = [] := by
  induction calls generalizing b with
  | nil => simp [kept, run]
  | cons call rest ih =>
    have hrest := ih (call.run b).2
    rw [kept]
    split
    · next h =>
      rw [Call.run_of_idles h] at hrest ⊢
      exact hrest
    · next h =>
      have hmissing : (call.run b).1.missing = [] := by
        by_contra hne
        exact h (by simp [Call.idles, hne])
      rw [run_cons, List.forall_mem_cons]
      exact ⟨hmissing, hrest⟩

/-- An operation on the transition in focus succeeds just when the cursor is on one, and fails
otherwise for what the builder lacks; a hook changes the chart just when there is a state in focus.
Calls that come to nothing leave the builder as it was, and a session without them leads to the same
builder without a call that fails. -/
theorem run_kept (b : Builder) :
    (∀ (call : Call) (operation : Operation), call.operation? = some operation →
      ((call.run b).1 = .ok ↔ b.Resolves) ∧
        (∀ missing, (call.run b).1 = .failed missing ↔
          b.Lacks missing.lack ∧ missing.operation = operation) ∧
        (¬b.Resolves → ∃ lack, b.Lacks lack)) ∧
      (∀ f, ((b.onEntry f).chart ≠ b.chart ↔ b.focused? ≠ none) ∧
        ((b.onExit f).chart ≠ b.chart ↔ b.focused? ≠ none)) ∧
      (∀ call : Call, call.idles b = true → (call.run b).2 = b) ∧
      ∀ calls, (b.run (b.kept calls)).2 = (b.run calls).2 ∧
        ∀ answer ∈ (b.run (b.kept calls)).1, answer.missing = [] := by
  have hlacks : ¬b.Resolves → ∃ lack, b.Lacks lack := by
    intro h
    cases hfocused : b.focusedTransition with
    | ok names => exact absurd (exists_focusedTransition_iff.1 ⟨names, hfocused⟩) h
    | error lack => exact ⟨lack, focusedTransition_eq_error_iff.1 hfocused⟩
  -- A hook makes the list of hooks longer, so it leaves no state as it is.
  have hentry : ∀ (f : Callback) (s : State), { s with entry := s.entry ++ [f] } ≠ s := by
    intro f s h
    simpa using congrArg State.entry h
  have hexit : ∀ (f : Callback) (s : State), { s with exit := s.exit ++ [f] } ≠ s := by
    intro f s h
    simpa using congrArg State.exit h
  refine ⟨fun call operation h => ?_, fun f => ⟨?_, ?_⟩, fun call => Call.run_of_idles,
    fun calls => ⟨b.run_kept_snd calls, b.missing_run_kept calls⟩⟩
  · obtain ⟨hok, hfailed⟩ := Call.answer_iff (b := b) h
    exact ⟨hok, hfailed, hlacks⟩
  · exact chart_modifyFocused_ne_iff (hentry f)
  · exact chart_modifyFocused_ne_iff (hexit f)

/-- A kiosk that idles until it is paid. -/
def kiosk : Chart where
  initial := "idle"
  states := .ofList [("idle", { on := some (.ofList [("PAY", {})]) })]

/-- A session on the kiosk. Before an event is in focus it adds a callback, it goes to a state that
does not exist, where it adds a hook, a whole chain and a reducer, and it sets a guard on an event
of another name; the other calls find what they need. -/
def kioskSession : List Call :=
  [.action ⟨0, none⟩,
    .focus ⟨some "open", some "PAY"⟩, .onEntry ⟨1, none⟩,
    .invoke ⟨2, none, .ok⟩ (.handle .doneFirst (.target "idle" .stop)), .assign ⟨3, none, id⟩,
    .focus ⟨some "idle", some "PAY"⟩, .action ⟨4, none⟩,
    .focus ⟨none, some "LEAVE"⟩, .cond ⟨5, none, fun _ => true⟩, .onExit ⟨6, none⟩]

/-- The first call on the kiosk lacks an event and idles, and the five calls of the session that are
kept leave the same builder. -/
theorem run_kept_kiosk :
    (Call.action ⟨0, none⟩).operation? = some .action ∧ ¬kiosk.build.Resolves ∧
      ((Call.action ⟨0, none⟩).run kiosk.build).1 = .failed ⟨.event "idle", .action⟩ ∧
      (Call.action ⟨0, none⟩).idles kiosk.build = true ∧
      ((Call.action ⟨0, none⟩).run kiosk.build).2 = kiosk.build ∧
      (kiosk.build.kept kioskSession).length = 5 ∧
      (kiosk.build.run (kiosk.build.kept kioskSession)).2 = (kiosk.build.run kioskSession).2 := by
  obtain ⟨hanswer, -, hidle, hsession⟩ := run_kept kiosk.build
  obtain ⟨hok, hfailed, -⟩ := hanswer (.action ⟨0, none⟩) .action rfl
  have hlacks : kiosk.build.Lacks (.event "idle") := .event rfl rfl
  have hanswer : ((Call.action ⟨0, none⟩).run kiosk.build).1 = .failed ⟨.event "idle", .action⟩ :=
    (hfailed _).2 ⟨hlacks, rfl⟩
  have hresolves : ¬kiosk.build.Resolves := by
    rw [← hok, hanswer]
    simp
  have hidles : (Call.action ⟨0, none⟩).idles kiosk.build = true := by decide +kernel
  exact ⟨rfl, hresolves, hanswer, hidles, hidle _ hidles, by decide +kernel,
    (hsession kioskSession).1⟩

end Builder

end FlatChart
