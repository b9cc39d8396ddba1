import Mathlib.Data.List.Nodup
import FlatChart.Chart.Violation
import FlatChart.Proofs.Chart.Pairs

/-!
# The violations of a chart

`Chart.Violates` says of each violation when a chart has it, without any order, and
`Violation.Precedes` is the order in which violations are listed, without any chart. The checks of a
chart find just the violations that it has (`Chart.mem_violations`), and find them in this order
(`Chart.pairwise_violations`), in which nothing precedes itself. So the outcome of validation is
determined by the two, as `Chart.validate_spec` says.
-/

namespace FlatChart

/-! ## The order of violations -/

namespace Violation

/-- The state in which a violation stands; the one of the initial state stands in none. -/
def state? : Violation → Option String
  | .unknownInitial _ => none
  | .unknownTarget id _ _ => some id
  | .unknownCompletionTarget id _ _ => some id
  | .finalWithTransitions id => some id

/-- The order in which violations are listed. -/
inductive Precedes : Violation → Violation → Prop where
  /-- The violation of the initial state precedes those of the states. -/
  | initial {initial : String} {w : Violation} (hw : w.state? ≠ none) :
      Precedes (.unknownInitial initial) w
  /-- The violations of a state precede those of the states with greater names. -/
  | states {v w : Violation} {id id' : String} (hv : v.state? = some id) (hw : w.state? = some id')
      (hlt : id < id') : Precedes v w
  /-- In a state, being final with transitions precedes the targets of the transitions. -/
  | finalTarget {id event target : String} :
      Precedes (.finalWithTransitions id) (.unknownTarget id event target)
  /-- In a state, being final with transitions precedes the targets of the handlers. -/
  | finalCompletion {id target : String} {completion : Completion} :
      Precedes (.finalWithTransitions id) (.unknownCompletionTarget id completion target)
  /-- In a state, the targets of the transitions come in order of the events. -/
  | targets {id event event' target target' : String} (hlt : event < event') :
      Precedes (.unknownTarget id event target) (.unknownTarget id event' target')
  /-- In a state, the targets of the transitions precede those of the handlers. -/
  | targetCompletion {id event target target' : String} {completion : Completion} :
      Precedes (.unknownTarget id event target) (.unknownCompletionTarget id completion target')
  /-- In a state, the target of the handler for `done` precedes that of the one for `error`. -/
  | completions {id target target' : String} :
      Precedes (.unknownCompletionTarget id .done target)
        (.unknownCompletionTarget id .error target')

/-- No violation precedes itself. -/
theorem Precedes.irrefl (v : Violation) : ¬v.Precedes v := by
  intro h
  cases h with
  | initial hw => exact hw rfl
  | states hv hw hlt =>
    rw [Option.some.inj (hv.symm.trans hw)] at hlt
    exact String.lt_irrefl _ hlt
  | targets hlt => exact String.lt_irrefl _ hlt

end Violation

/-! ## Outcomes of checks -/

namespace Validation

/-- The check that finds some violations finds these. -/
@[simp] theorem violations_ofViolations (vs : List Violation) :
    (ofViolations vs).violations = vs := by
  cases vs <;> rfl

/-- Several checks together find what each of them finds. -/
theorem violations_all (checks : List Validation) :
    (all checks).violations = checks.flatMap violations := violations_ofViolations _

/-- A check succeeds just when it finds nothing. -/
theorem eq_success_iff {r : Validation} : r = .success ↔ r.violations = [] := by
  cases r <;> simp [violations]

/-- The check that finds one violation finds just this one. -/
@[simp] theorem violations_fail (v : Violation) : (fail v).violations = [v] := rfl

/-- A check that succeeds finds nothing. -/
@[simp] theorem violations_success : success.violations = [] := rfl

end Validation

namespace Chart

variable {c : Chart} {id : String} {s : State} {v : Violation}

/-- When a chart has a violation. -/
def Violates (c : Chart) : Violation → Prop
  | .unknownInitial initial => initial = c.initial ∧ initial ≠ "" ∧ c.state? initial = none
  | .unknownTarget id event target =>
    ∃ t, c.transition? id event = some t ∧ t.target = some target ∧ c.state? target = none
  | .unknownCompletionTarget id completion target =>
    ∃ s i t, c.state? id = some s ∧ s.invoke = some i ∧ i.handler completion = some t ∧
      t.target = some target ∧ c.state? target = none
  | .finalWithTransitions id => ∃ s, c.state? id = some s ∧ s.final = true ∧ s.transitions ≠ ∅

/-! ## What one check finds -/

/-- A chart has the states that it finds. -/
theorem contains_states (c : Chart) (id : String) : c.states.contains id = (c.state? id).isSome :=
  c.states.contains_eq_isSome_get? id

/-- The check of the initial state finds that it does not exist. -/
theorem violations_checkInitial (c : Chart) :
    c.checkInitial.violations =
      if c.state? c.initial = none then [.unknownInitial c.initial] else [] := by
  rw [checkInitial, contains_states]
  cases c.state? c.initial <;> rfl

/-- The check of a final state finds that it has transitions. -/
theorem mem_checkFinal :
    v ∈ (checkFinal id s.transitions.toList.length).violations ↔
      s.transitions ≠ ∅ ∧ v = .finalWithTransitions id := by
  have hempty : s.transitions.toList.length = 0 ↔ s.transitions = ∅ := by
    rw [List.length_eq_zero_iff, ← SortedMap.toList_inj, SortedMap.toList_empty]
  rw [checkFinal]
  by_cases h : s.transitions = ∅ <;> simp [hempty, h]

/-- The check of a target finds that it does not exist. -/
theorem violations_checkTarget (c : Chart) (t : Transition) (violation : String → Violation) :
    (c.checkTarget t violation).violations =
      ((t.target.filter fun target => (c.state? target).isNone).map violation).toList := by
  rw [checkTarget]
  cases t.target with
  | none => rfl
  | some target => cases h : c.state? target <;> simp [contains_states, Option.filter, h]

/-- What the check of a target finds is told from the target. -/
theorem mem_checkTarget {t : Transition} {violation : String → Violation} :
    v ∈ (c.checkTarget t violation).violations ↔
      ∃ target, t.target = some target ∧ c.state? target = none ∧ v = violation target := by
  rw [violations_checkTarget, Option.mem_toList, Option.map_eq_some_iff]
  simp only [Option.filter_eq_some_iff, Option.isNone_iff_eq_none, and_assoc, @eq_comm _ v]

/-- The check of one target finds one violation at most. -/
theorem pairwise_checkTarget (c : Chart) (t : Transition) (violation : String → Violation) :
    (c.checkTarget t violation).violations.Pairwise Violation.Precedes := by
  rw [violations_checkTarget]
  cases (t.target.filter fun target => (c.state? target).isNone).map violation <;> simp

/-! ## What the checks of a state find -/

/-- What is found in a final state. -/
def finalViolations (id : String) (s : State) : List Violation :=
  if s.final then (checkFinal id s.transitions.toList.length).violations else []

/-- What is found in the transitions of a state. -/
def targetViolations (c : Chart) (id : String) (s : State) : List Violation :=
  s.transitions.toList.flatMap fun e => (c.checkTarget e.2 (.unknownTarget id e.1)).violations

/-- What is found in the invoke block of a state. -/
def completionViolations (c : Chart) (id : String) (s : State) : List Violation :=
  s.invoke.toList.flatMap fun i => (c.completionChecks id i).flatMap Validation.violations

/-- What is found in a state. -/
def stateViolations (c : Chart) (id : String) (s : State) : List Violation :=
  finalViolations id s ++ c.targetViolations id s ++ c.completionViolations id s

/-- The checks of a state find what is found in a state. -/
theorem flatMap_stateChecks (c : Chart) (id : String) (s : State) :
    (c.stateChecks id s).flatMap Validation.violations = c.stateViolations id s := by
  have hfinal : (if s.final then [checkFinal id s.transitions.toList.length] else []).flatMap
      Validation.violations = finalViolations id s := by
    unfold finalViolations
    cases s.final <;> simp
  rw [stateChecks, List.flatMap_append, List.flatMap_append, hfinal, List.flatMap_map,
    List.flatMap_assoc]
  rfl

/-- A final state with transitions is found. -/
theorem mem_finalViolations :
    v ∈ finalViolations id s ↔
      s.final = true ∧ s.transitions ≠ ∅ ∧ v = .finalWithTransitions id := by
  unfold finalViolations
  cases s.final <;> simp [mem_checkFinal]

/-- The transitions of a state that lead to no state are found. -/
theorem mem_targetViolations :
    v ∈ c.targetViolations id s ↔
      ∃ event t target, s.transitions.get? event = some t ∧ t.target = some target ∧
        c.state? target = none ∧ v = .unknownTarget id event target := by
  simp only [targetViolations, List.mem_flatMap, mem_checkTarget, Prod.exists,
    SortedMap.get?_eq_some_iff, exists_and_left]

/-- The handlers of a state that lead to no state are found. -/
theorem mem_completionViolations :
    v ∈ c.completionViolations id s ↔
      ∃ i completion t target, s.invoke = some i ∧ i.handler completion = some t ∧
        t.target = some target ∧ c.state? target = none ∧
        v = .unknownCompletionTarget id completion target := by
  have hall : ∀ completion, completion ∈ [Completion.done, .error] := by
    intro completion
    cases completion <;> simp
  simp only [completionViolations, completionChecks, List.mem_flatMap, List.mem_filterMap,
    Option.map_eq_some_iff, Option.mem_toList]
  constructor
  · rintro ⟨i, hi, _, ⟨completion, -, t, ht, rfl⟩, hv⟩
    obtain ⟨target, h⟩ := mem_checkTarget.1 hv
    exact ⟨i, completion, t, target, hi, ht, h⟩
  · rintro ⟨i, completion, t, target, hi, ht, h⟩
    exact ⟨i, hi, _, ⟨completion, hall completion, t, ht, rfl⟩, mem_checkTarget.2 ⟨target, h⟩⟩

/-- What is found in a state stands in this state. -/
theorem state?_of_mem_stateViolations (hv : v ∈ c.stateViolations id s) : v.state? = some id := by
  rw [stateViolations, List.mem_append, List.mem_append, mem_finalViolations, mem_targetViolations,
    mem_completionViolations] at hv
  rcases hv with (⟨-, -, rfl⟩ | ⟨_, _, _, -, -, -, rfl⟩) | ⟨_, _, _, _, -, -, -, -, rfl⟩ <;> rfl

/-- The transitions of a state are checked in order of their events. -/
theorem pairwise_targetViolations (c : Chart) (id : String) (s : State) :
    (c.targetViolations id s).Pairwise Violation.Precedes := by
  refine List.pairwise_flatMap.2 ⟨fun e _ => c.pairwise_checkTarget .., ?_⟩
  refine s.transitions.sorted_toList.imp fun hlt v hv w hw => ?_
  obtain ⟨_, -, -, rfl⟩ := mem_checkTarget.1 hv
  obtain ⟨_, -, -, rfl⟩ := mem_checkTarget.1 hw
  exact .targets hlt

/-- The handler for `done` is checked before the one for `error`. -/
theorem pairwise_completionViolations (c : Chart) (id : String) (s : State) :
    (c.completionViolations id s).Pairwise Violation.Precedes := by
  unfold completionViolations
  cases s.invoke with
  | none => exact .nil
  | some i =>
    have hone : ∀ r ∈ c.completionChecks id i, r.violations.Pairwise Violation.Precedes := by
      intro r hr
      obtain ⟨completion, -, h⟩ := List.mem_filterMap.1 hr
      obtain ⟨t, -, rfl⟩ := Option.map_eq_some_iff.1 h
      exact c.pairwise_checkTarget ..
    rw [Option.toList_some, List.flatMap_singleton]
    refine List.pairwise_flatMap.2 ⟨hone, List.pairwise_filterMap.2 (List.pairwise_pair.2 ?_)⟩
    intro r hr r' hr' v hv w hw
    obtain ⟨_, -, rfl⟩ := Option.map_eq_some_iff.1 hr
    obtain ⟨_, -, rfl⟩ := Option.map_eq_some_iff.1 hr'
    obtain ⟨_, -, -, rfl⟩ := mem_checkTarget.1 hv
    obtain ⟨_, -, -, rfl⟩ := mem_checkTarget.1 hw
    exact .completions

/-- What is found in a state is found in order. -/
theorem pairwise_stateViolations (c : Chart) (id : String) (s : State) :
    (c.stateViolations id s).Pairwise Violation.Precedes := by
  have hfinal : (finalViolations id s).Pairwise Violation.Precedes := by
    unfold finalViolations checkFinal
    split_ifs <;> simp
  have htargets := List.pairwise_append.2 ⟨hfinal, c.pairwise_targetViolations id s, ?_⟩
  · refine List.pairwise_append.2 ⟨htargets, c.pairwise_completionViolations id s, ?_⟩
    intro v hv w hw
    obtain ⟨_, _, _, _, -, -, -, -, rfl⟩ := mem_completionViolations.1 hw
    rcases List.mem_append.1 hv with hv | hv
    · obtain ⟨-, -, rfl⟩ := mem_finalViolations.1 hv
      exact .finalCompletion
    · obtain ⟨_, _, _, -, -, -, rfl⟩ := mem_targetViolations.1 hv
      exact .targetCompletion
  · intro v hv w hw
    obtain ⟨-, -, rfl⟩ := mem_finalViolations.1 hv
    obtain ⟨_, _, _, -, -, -, rfl⟩ := mem_targetViolations.1 hw
    exact .finalTarget

/-! ## What the checks of a chart find -/

/-- What is found of the initial state, if there is one. -/
def initialViolations (c : Chart) : List Violation :=
  if c.initial ≠ "" ∧ c.state? c.initial = none then [.unknownInitial c.initial] else []

/-- The checks of a chart find what is found of the initial state and then what is found in each
state, in order of their names. -/
theorem violations_eq (c : Chart) :
    c.violations =
      c.initialViolations ++ c.states.toList.flatMap fun e => c.stateViolations e.1 e.2 := by
  have hinitial : (if c.initial.isEmpty then [] else [c.checkInitial]).flatMap
      Validation.violations = c.initialViolations := by
    unfold initialViolations
    by_cases h : c.initial = "" <;> simp [h, violations_checkInitial]
  rw [violations, validate, Validation.violations_all, checks, List.flatMap_append, hinitial,
    List.flatMap_assoc]
  simp only [flatMap_stateChecks]

/-- An initial state that does not exist is found. -/
theorem mem_initialViolations :
    v ∈ c.initialViolations ↔
      c.initial ≠ "" ∧ c.state? c.initial = none ∧ v = .unknownInitial c.initial := by
  unfold initialViolations
  split <;> simp_all

/-- The checks of a chart find just the violations that it has. -/
theorem mem_violations : v ∈ c.violations ↔ c.Violates v := by
  have hstates : (v ∈ c.states.toList.flatMap fun e => c.stateViolations e.1 e.2) ↔
      ∃ id s, c.state? id = some s ∧ v ∈ c.stateViolations id s := by
    simp only [List.mem_flatMap, Prod.exists, ← SortedMap.get?_eq_some_iff]
    rfl
  rw [violations_eq, List.mem_append, hstates, mem_initialViolations]
  simp only [stateViolations, List.mem_append, mem_finalViolations, mem_targetViolations,
    mem_completionViolations]
  -- A violation is found only where its own kind is, and there it tells where it was found.
  cases v with
  | unknownInitial initial =>
    simp only [Violates, reduceCtorEq, Violation.unknownInitial.injEq, and_false, exists_false,
      or_false]
    constructor
    · rintro ⟨hname, hstate, rfl⟩
      exact ⟨rfl, hname, hstate⟩
    · rintro ⟨rfl, hname, hstate⟩
      exact ⟨hname, hstate, rfl⟩
  | unknownTarget id event target =>
    simp only [Violates, transition?_eq_some_iff, reduceCtorEq, Violation.unknownTarget.injEq,
      and_false, exists_false, or_false, false_or]
    constructor
    · rintro ⟨_, s, hs, _, t, _, ht, htarget, hstate, rfl, rfl, rfl⟩
      exact ⟨t, ⟨s, hs, ht⟩, htarget, hstate⟩
    · rintro ⟨t, ⟨s, hs, ht⟩, htarget, hstate⟩
      exact ⟨id, s, hs, event, t, target, ht, htarget, hstate, rfl, rfl, rfl⟩
  | unknownCompletionTarget id completion target => simp [Violates]
  | finalWithTransitions id => simp [Violates]

/-- The violations of a chart are found in order. -/
theorem pairwise_violations (c : Chart) : c.violations.Pairwise Violation.Precedes := by
  have hinitial : c.initialViolations.Pairwise Violation.Precedes := by
    unfold initialViolations
    split <;> simp
  have hstates : (c.states.toList.flatMap fun e => c.stateViolations e.1 e.2).Pairwise
      Violation.Precedes := by
    refine List.pairwise_flatMap.2 ⟨fun e _ => c.pairwise_stateViolations e.1 e.2, ?_⟩
    -- The states come in order of their names, and what is found in a state tells its name.
    refine c.states.sorted_toList.imp fun hlt v hv w hw => ?_
    exact .states (state?_of_mem_stateViolations hv) (state?_of_mem_stateViolations hw) hlt
  rw [violations_eq]
  refine List.pairwise_append.2 ⟨hinitial, hstates, ?_⟩
  intro v hv w hw
  obtain ⟨-, -, rfl⟩ := mem_initialViolations.1 hv
  obtain ⟨e, -, hw⟩ := List.mem_flatMap.1 hw
  refine .initial ?_
  rw [state?_of_mem_stateViolations hw]
  exact Option.some_ne_none _

/-- A chart is valid just when it has no violation. -/
theorem isValid_iff : c.isValid = true ↔ ∀ v, ¬c.Violates v := by
  rw [isValid, decide_eq_true_iff, Validation.eq_success_iff, ← violations,
    List.eq_nil_iff_forall_not_mem]
  simp only [mem_violations]

/-- Validation finds every violation of a chart once and nothing else, in order, and it succeeds
just when it finds nothing. -/
theorem validate_spec (c : Chart) :
    (∀ v, v ∈ c.validate.violations ↔ c.Violates v) ∧ c.validate.violations.Nodup ∧
      c.validate.violations.Pairwise Violation.Precedes ∧
      (c.validate = .success ↔ c.validate.violations = []) := by
  have hnodup : c.violations.Nodup := c.pairwise_violations.imp fun h heq => by
    rw [heq] at h
    exact Violation.Precedes.irrefl _ h
  exact ⟨fun _ => mem_violations, hnodup, c.pairwise_violations, Validation.eq_success_iff⟩

end Chart

end FlatChart
