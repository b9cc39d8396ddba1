import FlatChart.Builder.Session
import FlatChart.Proofs.Machine.Run
import FlatChart.Tree.Compile

/-!
# Final states

Validation makes sure that a final state has no transitions, so no event leads out of it. It does
not look at its invoke block: a handler that leads elsewhere or changes the context still does so in
a final state (`Chart.final_state_left`). Handlers that do neither are all that it takes for a final
state to be one, whatever the functions of the chart do (`Chart.stays_final_iff`).
-/

namespace FlatChart

/-! ## Transitions that change nothing -/

/-- Actions that do not change the context leave it as it is. -/
theorem Action.foldl_contextAfter_of_not_isAssign (context : Json) :
    ∀ actions : List Action, (∀ a ∈ actions, a.isAssign = false) →
      actions.foldl contextAfter context = context
  | [], _ => rfl
  | .effect _ :: rest, h =>
    foldl_contextAfter_of_not_isAssign context rest (List.forall_mem_cons.1 h).2
  | .assign _ :: _, h => absurd (List.forall_mem_cons.1 h).1 Bool.true_eq_false.mp

/-- Taken in a state, the transition leads nowhere else and leaves the context alone. -/
structure Transition.Idles (t : Transition) (id : String) : Prop where
  /-- The transition has no other target. -/
  target : ∀ target, t.target = some target → target = id
  /-- No action of the transition changes the context. -/
  actions : ∀ a ∈ t.actions, a.isAssign = false

instance (t : Transition) (id : String) : Decidable (t.Idles id) :=
  decidable_of_iff
    ((∀ target ∈ t.target, target = id) ∧ ∀ a ∈ t.actions, a.isAssign = false)
    ⟨fun h => ⟨h.1, h.2⟩, fun h => ⟨h.target, h.actions⟩⟩

namespace Transition.Idles

variable {t t' : Transition} {id : String}

/-- Transitions that are the same by label idle in the same states. -/
theorem of_byLabel (h : t.Idles id) (heq : t.byLabel = t'.byLabel) : t'.Idles id := by
  have htarget : t.byLabel.target = t'.byLabel.target := by rw [heq]
  have hactions :
      t.byLabel.actions.map Action.isAssign = t'.byLabel.actions.map Action.isAssign := by
    rw [heq]
  have hassign : Action.isAssign ∘ Action.byLabel = Action.isAssign := by
    funext a
    cases a <;> rfl
  simp only [byLabel, List.map_map, hassign] at htarget hactions
  refine ⟨fun target h' => h.target target (htarget.trans h'), fun a ha => ?_⟩
  have hmem : a.isAssign ∈ t.actions.map Action.isAssign := by
    rw [hactions]
    exact List.mem_map_of_mem ha
  obtain ⟨a', ha', hassign'⟩ := List.mem_map.1 hmem
  rw [← hassign', h.actions a' ha']

/-- A transition that idles leads to where it is taken. -/
theorem getD_target (h : t.Idles id) : t.target.getD id = id := by
  cases ht : t.target with
  | none => rfl
  | some target => exact h.target target ht

end Transition.Idles

/-! ## Final states with handlers that idle -/

namespace Chart

variable {c : Chart} {id : String}

/-- In a valid chart a final state offers nothing but handlers. -/
theorem exists_handler?_of_offers (hvalid : c.isValid = true) {s : State}
    (hs : c.state? id = some s) (hfinal : s.final = true) {t : Transition} (h : c.Offers id t) :
    ∃ k, c.handler? id k = some t := by
  cases h with
  | @transition event h =>
    obtain ⟨s', hs', ht⟩ := transition?_eq_some_iff.1 h
    obtain rfl := Option.some.inj (hs.symm.trans hs')
    have hempty : s.transitions ≠ ∅ := by
      intro hempty
      rw [hempty, SortedMap.get?_empty] at ht
      cases ht
    exact absurd ⟨s, hs, hfinal, hempty⟩ (isValid_iff.1 hvalid (.finalWithTransitions id))
  | @handler k h => exact ⟨k, h⟩

/-- A turn leaves state and context as they are when all that the current state offers idles. -/
theorem turn_of_idles {m : Machine} {turn : Turn}
    (hidle : ∀ t, c.Offers m.state t → t.Idles m.state) (hturn : turn.chart.byLabel = c.byLabel) :
    (m.turn turn).state = m.state ∧ (m.turn turn).context = m.context := by
  rcases m.turn_cases turn with h | ⟨t, ht, hstate, hcontext⟩
  · exact h
  · obtain ⟨t', ht', hlabel⟩ := ht.of_byLabel hturn
    have hidles : t.Idles m.state := (hidle t' ht').of_byLabel hlabel
    rw [hstate, hcontext, hidles.getD_target,
      Action.foldl_contextAfter_of_not_isAssign _ _ hidles.actions]
    exact ⟨rfl, rfl⟩

-- By induction on the turns; a turn keeps the state, and so what this state offers.
/-- A run leaves state and context as they are when all that the current state offers idles. -/
theorem run_of_idles : ∀ (turns : List Turn) {m : Machine},
    (∀ t, c.Offers m.state t → t.Idles m.state) →
      (∀ t ∈ turns, t.chart.byLabel = c.byLabel) →
      (m.run turns).state = m.state ∧ (m.run turns).context = m.context
  | [], _, _, _ => ⟨rfl, rfl⟩
  | turn :: rest, m, hidle, hturns => by
    obtain ⟨hturn, hrest⟩ := List.forall_mem_cons.1 hturns
    obtain ⟨hstate, hcontext⟩ := turn_of_idles hidle hturn
    rw [← hstate] at hidle
    obtain ⟨hstate', hcontext'⟩ := run_of_idles rest hidle hrest
    exact ⟨hstate'.trans hstate, hcontext'.trans hcontext⟩

end Chart

/-! ## Services that complete in a given way -/

/-- The action with its reducer giving one update always. -/
def Action.forced (update : Json) : Action → Action
  | .effect f => .effect f
  | .assign f => .assign { f with reduce := fun _ => update }

/-- The transition with its guard passing always and its reducers giving one update. -/
def Transition.forced (update : Json) (t : Transition) : Transition :=
  { t with
    actions := t.actions.map (Action.forced update)
    cond := t.cond.map fun g => { g with check := fun _ => true } }

/-- The invoke block with its service completing in one way always. -/
def Invoke.forced (outcome : Except Json Json) (update : Json) (i : Invoke) : Invoke where
  src := { i.src with run := fun _ => outcome }
  onDone := i.onDone.map (Transition.forced update)
  onError := i.onError.map (Transition.forced update)

/-- The state with its invoke block forced. -/
def State.forced (outcome : Except Json Json) (update : Json) (s : State) : State :=
  { s with invoke := s.invoke.map (Invoke.forced outcome update) }

/-- The chart with its invoke blocks forced. -/
def Chart.forced (c : Chart) (outcome : Except Json Json) (update : Json) : Chart :=
  { c with states := c.states.map (State.forced outcome update) }

section Forced

variable (outcome : Except Json Json) (update : Json)

/-- A transition that is forced is the same by label. -/
theorem Transition.byLabel_forced (t : Transition) : (t.forced update).byLabel = t.byLabel := by
  have hactions : Action.byLabel ∘ Action.forced update = Action.byLabel := by
    funext a
    cases a <;> rfl
  simp only [byLabel, forced, List.map_map, Option.map_map, hactions]
  rfl

/-- A state that is forced is the same by label. -/
theorem State.byLabel_forced (s : State) : (s.forced outcome update).byLabel = s.byLabel := by
  have htransition : Transition.byLabel ∘ Transition.forced update = Transition.byLabel :=
    funext (Transition.byLabel_forced update)
  have hinvoke : Invoke.byLabel ∘ Invoke.forced outcome update = Invoke.byLabel := by
    funext i
    simp only [Function.comp_apply, Invoke.byLabel, Invoke.forced, Option.map_map, htransition]
    rfl
  simp only [byLabel, forced, Option.map_map, hinvoke]

namespace Chart

/-- A chart that is forced is the same by label. -/
theorem byLabel_forced (c : Chart) : (c.forced outcome update).byLabel = c.byLabel := by
  have hstates : (c.states.map (State.forced outcome update)).map State.byLabel =
      c.states.map State.byLabel := by
    apply SortedMap.ext_get?
    intro id
    simp only [SortedMap.get?_map, Option.map_map]
    exact congrArg (Option.map · _) (funext (State.byLabel_forced outcome update))
  rw [byLabel, byLabel, ← hstates]
  rfl

/-- A machine on a forced chart is brought the handler for the outcome, forced. -/
theorem brought?_forced (c : Chart) (id : String) (context : Json) :
    Machine.brought? ⟨c.forced outcome update, id, context⟩ .settle =
      (c.handler? id (.ofOutcome outcome)).map (Transition.forced update) := by
  have hstate : (c.forced outcome update).state? id =
      (c.state? id).map (State.forced outcome update) := c.states.get?_map _ id
  simp only [Machine.brought?, handler?, hstate]
  cases c.state? id with
  | none => rfl
  | some s =>
    cases hi : s.invoke with
    | none => simp [State.forced, hi]
    | some i =>
      cases outcome <;>
        simp [State.forced, hi, Invoke.forced, Completion.ofOutcome, Invoke.handler]

end Chart

end Forced

/-! ## Final states that are not left -/

/-- An outcome of a service for each way to complete. -/
def Completion.outcome : Completion → Except Json Json
  | .done => .ok .null
  | .error => .error .null

/-- A service completes in the way of its outcome. -/
theorem Completion.ofOutcome_outcome (k : Completion) : ofOutcome k.outcome = k := by
  cases k <;> rfl

/-- Some update replaces every context, and a given one by another. -/
theorem Json.exists_update_ne (context : Json) :
    ∃ update, update ≠ context ∧ ∀ v : Json, v.update update = update := by
  -- Only an object is merged into the context, and neither of these two values is one.
  by_cases h : context = .null
  · refine ⟨.bool true, by simp [h], fun v => ?_⟩
    cases v <;> rfl
  · refine ⟨.null, fun heq => h heq.symm, fun v => ?_⟩
    cases v <;> rfl

/-- Forced actions leave the update behind, if any of them changes the context. -/
theorem Action.foldl_contextAfter_forced {update : Json}
    (hupdate : ∀ v : Json, v.update update = update) :
    ∀ (actions : List Action) (context : Json),
      (actions.map (Action.forced update)).foldl contextAfter context =
        if actions.any isAssign then update else context
  | [], _ => rfl
  | .effect _ :: rest, context => foldl_contextAfter_forced hupdate rest context
  | .assign f :: rest, context => by
    have hfirst : contextAfter context ((Action.assign f).forced update) = update := hupdate context
    rw [List.map_cons, List.foldl_cons, hfirst, foldl_contextAfter_forced hupdate rest, ite_self]
    rfl

namespace Machine

/-- A run on charts that are the same by label is on one. -/
theorem byLabel_chart_run {c : Chart} : ∀ (turns : List Turn) {m : Machine},
    m.chart.byLabel = c.byLabel → (∀ t ∈ turns, t.chart.byLabel = c.byLabel) →
      (m.run turns).chart.byLabel = c.byLabel
  | [], _, hm, _ => hm
  | turn :: rest, m, _, hturns => by
    obtain ⟨hturn, hrest⟩ := List.forall_mem_cons.1 hturns
    exact byLabel_chart_run rest (by rw [chart_turn, hturn]) hrest

/-- A machine that is done is in a final state. -/
theorem exists_final_of_isDone {c : Chart} {m : Machine} (hm : m.chart.byLabel = c.byLabel)
    (hdone : m.isDone = true) : ∃ s, c.state? m.state = some s ∧ s.final = true := by
  have hstates : (m.chart.state? m.state).map State.byLabel =
      (c.state? m.state).map State.byLabel := by
    rw [← Chart.state?_byLabel, ← Chart.state?_byLabel, hm]
  unfold isDone at hdone
  cases hs : m.chart.state? m.state with
  | none =>
    rw [hs] at hdone
    cases hdone
  | some s =>
    rw [hs] at hdone hstates
    obtain ⟨s', hs', hlabel⟩ := Option.map_eq_some_iff.1 hstates.symm
    have hfinal : s'.byLabel.final = s.byLabel.final := by rw [hlabel]
    exact ⟨s', hs', hfinal.trans hdone⟩

end Machine

namespace Chart

variable {c : Chart} {m : Machine}

/-- A service that completes takes the handler for its outcome, under functions that let it. -/
theorem turn_forced {k : Completion} {t : Transition} (ht : c.handler? m.state k = some t)
    (update : Json) :
    m.turn ⟨c.forced k.outcome update, .settle⟩ =
      { chart := c.forced k.outcome update
        state := t.target.getD m.state
        context :=
          (t.actions.map (Action.forced update)).foldl Action.contextAfter m.context } := by
  have hcond : ((t.forced update).cond.all fun g => g.check m.context) = true := by
    unfold Transition.forced
    cases t.cond <;> rfl
  rw [Machine.turn, Machine.after_eq]
  simp only [brought?_forced, Completion.ofOutcome_outcome, ht, Option.map_some, Option.getD_some,
    Machine.machine_take, hcond, if_true]
  rfl

/-- A machine stays in a state that offers handlers alone just when the handlers idle. -/
theorem stays_iff_idles (hoffers : ∀ t, c.Offers m.state t → ∃ k, c.handler? m.state k = some t) :
    (∀ turns : List Turn, (∀ t ∈ turns, t.chart.byLabel = c.byLabel) →
        (m.run turns).state = m.state ∧ (m.run turns).context = m.context) ↔
      ∀ k t, c.handler? m.state k = some t → t.Idles m.state := by
  constructor
  · -- If the service completes, the guard passes and reducers replace the context, a machine that
    -- stays has a handler that does not move it and has no reducer.
    intro hstays k t ht
    obtain ⟨update, hne, hupdate⟩ := Json.exists_update_ne m.context
    have hturn := hstays [⟨c.forced k.outcome update, .settle⟩] (by simp [byLabel_forced])
    have hrun : m.run [⟨c.forced k.outcome update, .settle⟩] = _ := turn_forced ht update
    obtain ⟨hstate, hcontext⟩ := hturn
    rw [hrun] at hstate hcontext
    simp only [Action.foldl_contextAfter_forced hupdate] at hcontext
    refine ⟨fun target htarget => ?_, fun a ha => ?_⟩
    · rw [htarget] at hstate
      exact hstate
    · by_contra hassign
      have hany : t.actions.any Action.isAssign = true :=
        List.any_eq_true.2 ⟨a, ha, by simpa using hassign⟩
      rw [if_pos hany] at hcontext
      exact hne hcontext
  · intro hidles turns hturns
    refine run_of_idles turns (fun t ht => ?_) hturns
    obtain ⟨k, hk⟩ := hoffers t ht
    exact hidles k t hk

/-- Once a run of a valid chart is in a final state, no turn changes the state or the context,
however the functions behave, just when the handlers of this state idle. -/
theorem stays_final_iff (c : Chart) (hvalid : c.isValid = true) (context : Json)
    (before : List Turn) (hbefore : ∀ t ∈ before, t.chart.byLabel = c.byLabel)
    (hdone : ((c.machine context).run before).isDone = true) :
    (∀ after : List Turn, (∀ t ∈ after, t.chart.byLabel = c.byLabel) →
        ((c.machine context).run (before ++ after)).state =
            ((c.machine context).run before).state ∧
          ((c.machine context).run (before ++ after)).context =
            ((c.machine context).run before).context) ↔
      ∀ k t, c.handler? ((c.machine context).run before).state k = some t →
        t.Idles ((c.machine context).run before).state := by
  obtain ⟨s, hs, hfinal⟩ :=
    Machine.exists_final_of_isDone (Machine.byLabel_chart_run before rfl hbefore) hdone
  simp only [Machine.run_append]
  exact stays_iff_idles fun t ht => exists_handler?_of_offers hvalid hs hfinal ht

/-- A candle that can be blown out. -/
def candle : Element :=
  let blow := (Element.component "Transition").withAttribute "event" (.data (.str "BLOW"))
    |>.withAttribute "target" (.data (.str "out"))
  Element.fragment
    |>.child (((Element.component "State").withAttribute "id" (.data (.str "lit"))).child blow)
    |>.child ((Element.component "Final").withAttribute "id" (.data (.str "out")))

/-- The candle with a service in its final state, and one handler of it wired. -/
def servedCandle (target : String) : Chart :=
  ((candle.compile none).build.run [
    .focus { state := some "out" },
    .invoke ⟨0, none, .ok⟩ (.handle .doneFirst (.target target .stop))]).2.chart

/-- A candle whose service leads to where it is stays out once it is blown out, whatever turns
follow. -/
theorem stays_final_candle :
    (servedCandle "out").isValid = true ∧
      (((servedCandle "out").machine .null).run
        [⟨servedCandle "out", .send "BLOW"⟩]).isDone = true ∧
      ∀ after : List Turn, (∀ t ∈ after, t.chart.byLabel = (servedCandle "out").byLabel) →
        (((servedCandle "out").machine .null).run
          ([⟨servedCandle "out", .send "BLOW"⟩] ++ after)).state = "out" := by
  have hvalid : (servedCandle "out").isValid = true := by decide +kernel
  have hdone : (((servedCandle "out").machine .null).run
      [⟨servedCandle "out", .send "BLOW"⟩]).isDone = true := by decide +kernel
  have hstate : (((servedCandle "out").machine .null).run
      [⟨servedCandle "out", .send "BLOW"⟩]).state = "out" := by decide +kernel
  have hiff := stays_final_iff (servedCandle "out") hvalid .null
    [⟨servedCandle "out", .send "BLOW"⟩] (by simp) hdone
  have hidles : ∀ k, ∀ t ∈ (servedCandle "out").handler? "out" k, t.Idles "out" := by
    intro k
    cases k <;> decide +kernel
  rw [hstate] at hiff
  exact ⟨hvalid, hdone, fun after hafter => (hiff.2 hidles after hafter).1⟩

/-- A valid chart leaves a final state when the service of the state completes. -/
theorem final_state_left :
    (servedCandle "lit").isValid = true ∧
      (((servedCandle "lit").machine .null).run
        [⟨servedCandle "lit", .send "BLOW"⟩]).isDone = true ∧
      (((servedCandle "lit").machine .null).run
        [⟨servedCandle "lit", .send "BLOW"⟩]).state = "out" ∧
      (((servedCandle "lit").machine .null).run
        [⟨servedCandle "lit", .send "BLOW"⟩, ⟨servedCandle "lit", .settle⟩]).state = "lit" := by
  decide +kernel

end Chart

end FlatChart
