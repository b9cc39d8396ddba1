import Mathlib.Data.List.Basic
import FlatChart.Builder.Invocation
import FlatChart.Proofs.Chart.Modify

/-!
# What a chain of calls builds

A chain of calls on an invoke block lists edits of its two handlers (`InvocationCalls.edits`). A
handler that is edited has the last target set for it and the reducers added to it, in order; one
that is not edited is absent (`Invoke.wired`). `Builder.invokeChain_eq` says that a chain puts just
this block into the state in focus: no block that stood there before plays a part, and where there
is no such state nothing happens at all.
-/

namespace FlatChart

/-- A change of a handler. -/
inductive Edit where
  /-- A reducer is added. -/
  | assign (reducer : Reducer)
  /-- The target is set. -/
  | target (state : String)

namespace Edit

/-- The reducer that is added. -/
def reducer? : Edit → Option Reducer
  | .assign f => some f
  | .target _ => none

/-- The target that is set. -/
def target? : Edit → Option String
  | .assign _ => none
  | .target s => some s

/-- A handler after a change. -/
def apply : Edit → Transition → Transition
  | .assign f, t => t.addAction (.assign f)
  | .target s, t => { t with target := some s }

/-- Reducers set no target. -/
theorem filterMap_target?_assign (reducers : List Reducer) :
    (reducers.map assign).filterMap target? = [] := by
  rw [List.filterMap_map]
  exact List.filterMap_none ..

/-- The reducers that are added are found again. -/
theorem filterMap_reducer?_assign (reducers : List Reducer) :
    (reducers.map assign).filterMap reducer? = reducers := by
  rw [List.filterMap_map]
  exact List.filterMap_some ..

end Edit

mutual
/-- The edits that a chain makes at a stage, each with the handler that it changes; `last` is the
handler that was wired last. -/
def InvocationCalls.edits :
    {stage : Stage} → InvocationCalls stage → (last : Option Completion) → List (Completion × Edit)
  | _, .stop, _ => []
  | _, .builder, _ => []
  | _, .assign _ reducer rest, last =>
    last.toList.map (fun completion => (completion, .assign reducer)) ++ rest.edits last
  | _, .handle _ rest, _ => rest.edits

/-- The edits that a chain makes inside a handler and after it. -/
def CompletionCalls.edits :
    {completion : Completion} → {next : Stage} → CompletionCalls completion next →
      List (Completion × Edit)
  | _, _, .stop => []
  | completion, _, .assign reducer rest => (completion, .assign reducer) :: rest.edits
  | completion, _, .target state rest =>
    (completion, .target state) :: rest.edits (some completion)
end

/-- The handler that a list of edits makes: none without edits, else the last target and all
reducers in order. -/
def Transition.wired (edits : List Edit) : Option Transition :=
  if edits.isEmpty then none
  else some
    { target := (edits.filterMap Edit.target?).getLast?
      actions := (edits.filterMap Edit.reducer?).map .assign }

/-- The invoke block that edits of the handlers of a service make. -/
def Invoke.wired (service : Service) (edits : List (Completion × Edit)) : Invoke where
  src := service
  onDone := Transition.wired ((edits.filter (·.1 = .done)).map Prod.snd)
  onError := Transition.wired ((edits.filter (·.1 = .error)).map Prod.snd)

/-- The invoke block that a chain of calls builds. -/
def InvocationCalls.block (service : Service) (calls : InvocationCalls .pending) : Invoke :=
  .wired service (calls.edits none)

/-! ## One edit -/

/-- The block with an edit made; a handler that is absent is made first. -/
def Invoke.edit (i : Invoke) (e : Completion × Edit) : Invoke :=
  i.setHandler (e.2.apply ((i.handler e.1).getD {})) e.1

/-- One more edit of a handler. -/
theorem Transition.wired_concat (edits : List Edit) (e : Edit) :
    wired (edits ++ [e]) = some (e.apply ((wired edits).getD {})) := by
  have hnew : wired (edits ++ [e]) = some
      { target := ((edits ++ [e]).filterMap Edit.target?).getLast?
        actions := ((edits ++ [e]).filterMap Edit.reducer?).map .assign } := by
    rw [wired, if_neg (by simp)]
  -- Without edits the handler is absent, and what is edited then is an empty one.
  have hold : (wired edits).getD {} =
      { target := (edits.filterMap Edit.target?).getLast?
        actions := (edits.filterMap Edit.reducer?).map .assign } := by
    cases edits <;> rfl
  rw [hnew, hold, List.filterMap_append, List.filterMap_append]
  cases e with
  | assign f =>
    have htarget : [Edit.assign f].filterMap Edit.target? = [] := rfl
    have hreducer : [Edit.assign f].filterMap Edit.reducer? = [f] := rfl
    rw [htarget, hreducer, List.append_nil, List.map_append]
    rfl
  | target s =>
    have htarget : [Edit.target s].filterMap Edit.target? = [s] := rfl
    have hreducer : [Edit.target s].filterMap Edit.reducer? = [] := rfl
    rw [htarget, hreducer, List.append_nil, List.getLast?_concat]
    rfl

/-- One more edit of a block. -/
theorem Invoke.wired_concat (service : Service) (edits : List (Completion × Edit))
    (e : Completion × Edit) : wired service (edits ++ [e]) = (wired service edits).edit e := by
  obtain ⟨completion, e⟩ := e
  cases completion with
  | done => simp [wired, edit, handler, setHandler, Transition.wired_concat]
  | error => simp [wired, edit, handler, setHandler, Transition.wired_concat]

/-- Making edits one after the other, on top of those that were made before. -/
theorem Invoke.foldl_edit (service : Service) :
    ∀ edits before : List (Completion × Edit),
      edits.foldl edit (wired service before) = wired service (before ++ edits)
  | [], before => by rw [List.append_nil, List.foldl_nil]
  | e :: rest, before => by
    rw [List.foldl_cons, ← wired_concat, foldl_edit service rest, List.append_assoc]
    rfl

/-! ## A chain -/

namespace Builder

/-- The state in focus, if it exists. -/
def focused? (b : Builder) : Option State := b.cursor.state.bind b.chart.state?

/-- The builder with an invoke block put into the state in focus, if it exists. -/
def withInvoke (b : Builder) (i : Invoke) : Builder :=
  b.modifyFocused fun s => { s with invoke := some i }

/-- Only the last block that is put into a state stays. -/
theorem withInvoke_withInvoke (b : Builder) (i j : Invoke) :
    (b.withInvoke i).withInvoke j = b.withInvoke j := by
  unfold withInvoke modifyFocused
  cases h : b.cursor.state with
  | none => simp [h]
  | some s =>
    simp only [h, Chart.modifyState_modifyState]
    rfl

/-- A change that keeps the state in focus as it is, if it exists, changes nothing. -/
theorem modifyFocused_eq_self {b : Builder} {f : State → State}
    (h : ∀ s, b.focused? = some s → f s = s) : b.modifyFocused f = b := by
  unfold modifyFocused
  cases hs : b.cursor.state with
  | none => rfl
  | some id =>
    have hchart : b.chart.modifyState id f = b.chart :=
      Chart.modifyState_eq_self fun s hstate => h s (by rw [focused?, hs]; exact hstate)
    simp only [hchart]

/-- The block that was put into the state in focus is resolved again. -/
theorem focusedInvoke_withInvoke {b : Builder} {s : String} (hs : b.cursor.state = some s)
    (h : b.chart.state? s ≠ none) (i : Invoke) : (b.withInvoke i).focusedInvoke = .ok (s, i) := by
  have hfound := b.chart.state?_modifyState s fun s => { s with invoke := some i }
  obtain ⟨state, hstate⟩ := Option.ne_none_iff_exists'.1 h
  rw [hstate] at hfound
  unfold withInvoke modifyFocused focusedInvoke
  simp [hs, hfound]

/-- In a state that exists, an edit of the block that was put there puts the edited block there. -/
theorem complete_withInvoke_of_focused {b : Builder} (h : b.focused? ≠ none) (i : Invoke)
    (operation : Operation) (completion : Completion) (e : Edit) :
    (b.withInvoke i).complete operation completion e.apply =
      .ok (b.withInvoke (i.edit (completion, e))) := by
  obtain ⟨state, hfocused⟩ := Option.ne_none_iff_exists'.1 h
  obtain ⟨s, hs, hstate⟩ := Option.bind_eq_some_iff.1 hfocused
  -- The edited block replaces the one that was put there before.
  have hedited := b.withInvoke_withInvoke i (i.edit (completion, e))
  have hcursor : (b.withInvoke i).cursor.state = some s := by
    simp [withInvoke, modifyFocused, hs]
  rw [← hedited, complete, focusedInvoke_withInvoke hs (by simp [hstate]) i]
  generalize b.withInvoke i = b' at hcursor
  simp [withInvoke, modifyFocused, hcursor, Invoke.edit]

/-- An edit of the block that was put into the state in focus puts the edited block there. It only
fails when there is no such state, and not for want of a block. -/
theorem complete_withInvoke (b : Builder) (i : Invoke) (operation : Operation)
    (completion : Completion) (e : Edit) :
    (b.focused? ≠ none ∧
      (b.withInvoke i).complete operation completion e.apply =
        .ok (b.withInvoke (i.edit (completion, e)))) ∨
      (∃ missing, (b.withInvoke i).complete operation completion e.apply = .error missing ∧
        ∀ id, missing.lack ≠ .noInvoke id) ∧
        ∀ j, b.withInvoke j = b := by
  by_cases h : b.focused? = none
  · right
    have hsame : ∀ j, b.withInvoke j = b := fun j => modifyFocused_eq_self (by simp [h])
    refine ⟨?_, hsame⟩
    rw [hsame, complete, focusedInvoke]
    cases hs : b.cursor.state with
    | none => exact ⟨_, rfl, by simp⟩
    | some s =>
      have habsent : b.chart.state? s = none := by simpa [focused?, hs] using h
      simp only [habsent]
      exact ⟨_, rfl, by simp⟩
  · exact .inl ⟨h, complete_withInvoke_of_focused h i operation completion e⟩

end Builder

/-- A reducer that is added between two handlers edits the handler that was wired last. -/
theorem Invocation.assign_withInvoke (b : Builder) (i : Invoke) (last : Option Completion)
    (reducer : Reducer) :
    assign ⟨b.withInvoke i, last⟩ reducer =
      ⟨b.withInvoke ((last.toList.map fun completion => (completion, .assign reducer)).foldl
        Invoke.edit i), last⟩ := by
  cases last with
  | none => rfl
  | some completion =>
    have hedit := b.complete_withInvoke i .assign completion (.assign reducer)
    unfold assign
    unfold Edit.apply at hedit
    rcases hedit with ⟨-, h⟩ | ⟨⟨_, h, -⟩, hsame⟩
    · simp only [h]
      rfl
    · simp only [h]
      rw [hsame, hsame]

-- By induction on the chain: the block in focus is always the one that the edits so far have made.
-- A call that fails ends the chain, and then no block is in focus for any edit to change.
mutual
/-- A chain between two handlers puts the block with all its edits made into the state in focus. -/
theorem InvocationCalls.run_withInvoke (b : Builder) :
    ∀ {stage : Stage} (calls : InvocationCalls stage) (i : Invoke) (last : Option Completion),
      (calls.run ⟨b.withInvoke i, last⟩).2 =
        b.withInvoke ((calls.edits last).foldl Invoke.edit i)
  | _, .stop, _, _ => rfl
  | _, .builder, _, _ => rfl
  | _, .assign _ reducer rest, i, last => by
    rw [InvocationCalls.run, Invocation.assign_withInvoke, InvocationCalls.edits,
      List.foldl_append, ← rest.run_withInvoke b]
  | _, .handle _ rest, i, last => by
    rw [InvocationCalls.run, InvocationCalls.edits, ← rest.run_withInvoke b]

/-- A chain inside a handler puts the block with all its edits made into the state in focus. -/
theorem CompletionCalls.run_withInvoke (b : Builder) :
    ∀ {completion : Completion} {next : Stage} (calls : CompletionCalls completion next)
      (i : Invoke), (calls.run (b.withInvoke i)).2 = b.withInvoke (calls.edits.foldl Invoke.edit i)
  | _, _, .stop, _ => rfl
  | completion, _, .assign reducer rest, i => by
    have hedit := b.complete_withInvoke i .assign completion (.assign reducer)
    unfold Edit.apply at hedit
    rw [CompletionCalls.run, Builder.assignCompletion, CompletionCalls.edits, List.foldl_cons,
      ← rest.run_withInvoke b]
    rcases hedit with ⟨-, h⟩ | ⟨⟨_, h, -⟩, hsame⟩
    · rw [h]
    · rw [h, rest.run_withInvoke b, hsame, hsame]
  | completion, _, .target state rest, i => by
    have hedit := b.complete_withInvoke i .target completion (.target state)
    unfold Edit.apply at hedit
    rw [CompletionCalls.run, Builder.targetCompletion, CompletionCalls.edits, List.foldl_cons,
      ← rest.run_withInvoke b]
    rcases hedit with ⟨-, h⟩ | ⟨⟨_, h, -⟩, hsame⟩
    · rw [h]
    · rw [h, rest.run_withInvoke b, hsame, hsame]
end

/-- A chain of calls puts the block that it builds into the state in focus, if that exists, and does
nothing else. -/
theorem Builder.invokeChain_eq (b : Builder) (service : Service)
    (calls : InvocationCalls .pending) :
    (b.invokeChain service calls).2 = b.withInvoke (calls.block service) := by
  have hfold := Invoke.foldl_edit service (calls.edits none) []
  rw [List.nil_append] at hfold
  have hrun := calls.run_withInvoke b (.wired service []) none
  rw [hfold] at hrun
  exact hrun

end FlatChart
