import FlatChart.Proofs.Builder.Log

/-!
# Calls on the transition in focus

While the cursor is on a transition that exists, every call that decorates a transition succeeds,
and a run of such calls does to the transition what its log says (`Builder.run_decorates`).
-/

namespace FlatChart

/-- With both names given the cursor is on them, wherever it was before. -/
theorem Cursor.move_pair (c : Cursor) {id event : String} (hid : id ≠ "") (hevent : event ≠ "") :
    c.move { state := some id, event := some event } = ⟨some id, some event⟩ := by
  simp [move, givenName_eq_filter, hid, hevent, Option.filter_some]

/-- Whether the call decorates the transition in focus. -/
def Call.decorates : Call → Bool
  | .action _ => true
  | .assign _ => true
  | .cond _ => true
  | _ => false

/-- The log of a transition begins with its first call. -/
theorem Transition.logged_cons (t : Transition) (call : Call) (log : List Call) :
    t.logged (call :: log) = (call.editTransition t).logged log := by
  have hactions : (call :: log).filterMap Call.action? =
      call.action?.toList ++ log.filterMap Call.action? := by
    cases h : call.action? <;> simp [h]
  have hguard : ((call :: log).filterMap Call.guard?).getLast?.or t.cond =
      (log.filterMap Call.guard?).getLast?.or (call.guard?.or t.cond) := by
    cases h : call.guard? with
    | none => simp [h]
    | some f =>
      rw [List.filterMap_cons_some h, List.getLast?_cons]
      cases (log.filterMap Call.guard?).getLast? <;> rfl
  rw [logged, hactions, hguard, ← List.append_assoc]
  rfl

namespace Builder

variable {b : Builder} {id event : String}

/-- An operation on a transition that exists and is in focus changes it. -/
theorem decorate_of_transition? (hcursor : b.cursor = ⟨some id, some event⟩)
    (ht : (b.chart.transition? id event).isSome) (operation : Operation)
    (f : Transition → Transition) :
    b.decorate operation f = .ok { b with chart := b.chart.modifyTransition id event f } := by
  obtain ⟨t, ht⟩ := Option.isSome_iff_exists.1 ht
  obtain ⟨s, hs, -⟩ := Option.bind_eq_some_iff.1 ht
  simp only [decorate, focusedTransition, hcursor, hs, ht]

/-- A call that decorates a transition succeeds where the transition exists. -/
theorem run_of_decorates {call : Call} (hcall : call.decorates)
    (hcursor : b.cursor = ⟨some id, some event⟩) (ht : (b.chart.transition? id event).isSome) :
    call.run b =
      (.ok, { b with chart := b.chart.modifyTransition id event call.editTransition }) := by
  have hrun : ∀ operation, b.attempt (b.decorate operation call.editTransition) =
      (.ok, { b with chart := b.chart.modifyTransition id event call.editTransition }) := by
    intro operation
    rw [decorate_of_transition? hcursor ht, attempt]
  cases call with
  | action f => exact hrun .action
  | assign f => exact hrun .assign
  | cond f =>
    have hedit : (Call.cond f).editTransition = fun t => { t with cond := some f } := by
      funext t
      simp [Call.editTransition, Call.action?, Call.guard?]
    rw [hedit] at hrun ⊢
    exact hrun .cond
  | _ => cases hcall

/-- Calls that decorate a transition succeed one after the other. -/
theorem run_decorates (hcursor : b.cursor = ⟨some id, some event⟩)
    (ht : (b.chart.transition? id event).isSome) (calls : List Call)
    (hcalls : ∀ call ∈ calls, call.decorates) :
    b.run calls =
      (List.replicate calls.length .ok,
        { b with chart := b.chart.modifyTransition id event (·.logged calls) }) := by
  induction calls generalizing b with
  | nil =>
    have hchart : b.chart.modifyTransition id event (·.logged []) = b.chart :=
      Chart.modifyTransition_eq_self fun t _ => t.logged_nil
    rw [hchart]
    rfl
  | cons call calls ih =>
    obtain ⟨hcall, hcalls⟩ := List.forall_mem_cons.1 hcalls
    have hrest := ih
      (b := { b with chart := b.chart.modifyTransition id event call.editTransition })
      hcursor (by rw [Chart.transition?_modifyTransition, Option.isSome_map]; exact ht) hcalls
    have hlogged : (fun t : Transition => t.logged (call :: calls)) =
        (fun t => t.logged calls) ∘ call.editTransition :=
      funext fun t => t.logged_cons call calls
    rw [run, run_of_decorates hcall hcursor ht]
    simp only [hrest, Chart.modifyTransition_modifyTransition, hlogged]
    rfl

end Builder

end FlatChart
