import FlatChart.Chart.Basic
import FlatChart.Proofs.Json.Nesting

/-!
# The data of a chart

What is left of a chart when everything that is not data is dropped: hooks, actions, guards, invoke
blocks and data under reserved names (`Chart.strip`). `Chart.EveryDatum` says something of all data
that is left, `Chart.Fits` and `Chart.Rereads` are the two instances of it that decide whether the
written chart can be read, and neither of them depends on what is dropped.
-/

namespace FlatChart

/-- Whether the value is `null`. -/
def Json.isNull : Json → Bool
  | .null => true
  | _ => false

/-! ## Dropping everything else -/

/-- Target and unreserved data of a transition. -/
def Transition.strip (t : Transition) : Transition where
  target := t.target
  extra := t.extra.filter fun key _ => key ∉ reservedKeys

/-- Kind and transitions of a state, absent and empty transitions kept apart. -/
def State.strip (s : State) : State := { final := s.final, on := s.on.map (·.map Transition.strip) }

/-- Initial state, context and states of a chart; a context of `null` is none. -/
def Chart.strip (c : Chart) : Chart where
  initial := c.initial
  context := c.context.filter fun v => !v.isNull
  states := c.states.map State.strip

namespace Transition

/-- A name is reserved when it is one of the reserved names. -/
theorem isReserved_eq_decide (key : String) : isReserved key = decide (key ∈ reservedKeys) :=
  List.contains_eq_mem ..

/-- The data that is written is what is left. -/
theorem freeExtra_eq (t : Transition) : t.freeExtra = t.strip.extra := by
  simp only [freeExtra, strip, isReserved_eq_decide, decide_not]

/-- What is left of a transition is its target and the data that is written. -/
theorem strip_eq (t : Transition) : t.strip = { target := t.target, extra := t.freeExtra } := by
  rw [freeExtra_eq]
  rfl

/-- Data that is kept once is kept again. -/
@[simp] theorem freeExtra_strip (t : Transition) : t.strip.freeExtra = t.freeExtra := by
  apply SortedMap.toList_inj.1
  simp [strip_eq, freeExtra, List.filter_filter]

/-- Data is kept when its name is not reserved. -/
theorem get?_freeExtra (t : Transition) (key : String) :
    t.freeExtra.get? key = if key ∈ reservedKeys then none else t.extra.get? key := by
  rw [freeExtra_eq, strip, SortedMap.get?_filter]
  by_cases hkey : key ∈ reservedKeys <;> cases t.extra.get? key <;> simp [hkey, Option.filter_some]

end Transition

/-! ## All data -/

/-- What holds of all unreserved data of a transition. -/
def Transition.EveryDatum (p : Json → Prop) (t : Transition) : Prop :=
  ∀ key v, key ∉ reservedKeys → t.extra.get? key = some v → p v

/-- What holds of all unreserved data of the transitions of a state. -/
def State.EveryDatum (p : Json → Prop) (s : State) : Prop :=
  ∀ on, s.on = some on → ∀ event t, on.get? event = some t → t.EveryDatum p

/-- What holds of the context of a chart, and what holds of all unreserved data of its
transitions. -/
structure Chart.EveryDatum (p q : Json → Prop) (c : Chart) : Prop where
  /-- The context. -/
  context : ∀ v, c.context = some v → p v
  /-- The data of the transitions. -/
  states : ∀ id s, c.state? id = some s → s.EveryDatum q

/-- The data nests as deep as a reader allows. Within 127 brackets the context stands inside one and
the data of a transition inside five. -/
def Chart.Fits : Chart → Prop := Chart.EveryDatum (·.nesting ≤ 126) (·.nesting ≤ 122)

/-- Every float in the value reads back. -/
def Json.Rereads (v : Json) : Prop := ∀ x ∈ v.floats, x.ReadsBack

instance (v : Json) : Decidable v.Rereads := inferInstanceAs (Decidable (∀ x ∈ v.floats, _))

/-- Every float in the data of the chart reads back. -/
def Chart.Rereads : Chart → Prop := Chart.EveryDatum Json.Rereads Json.Rereads

variable {p q : Json → Prop}

/-- All unreserved data of a transition is all that is left of its data. -/
theorem Transition.everyDatum_iff (t : Transition) :
    t.EveryDatum p ↔ ∀ e ∈ t.freeExtra.toList, p e.2 := by
  constructor
  · rintro h ⟨key, v⟩ he
    rw [← SortedMap.get?_eq_some_iff, get?_freeExtra] at he
    split_ifs at he with hr
    exact h key v hr he
  · intro h key v hr hv
    have he : (key, v) ∈ t.freeExtra.toList := by
      rw [← SortedMap.get?_eq_some_iff, get?_freeExtra, if_neg hr]
      exact hv
    exact h _ he

/-- All data of a state is the data of its entries. -/
theorem State.everyDatum_iff (s : State) :
    s.EveryDatum p ↔ ∀ on, s.on = some on → ∀ e ∈ on.toList, e.2.EveryDatum p := by
  constructor
  · intro h on hon e he
    exact h on hon e.1 e.2 (SortedMap.get?_eq_some_iff.2 he)
  · intro h on hon event t ht
    exact h on hon (event, t) (SortedMap.get?_eq_some_iff.1 ht)

/-- All data of a chart is its context and the data of its entries. -/
theorem Chart.everyDatum_iff (c : Chart) :
    c.EveryDatum p q ↔
      (∀ v, c.context = some v → p v) ∧ ∀ e ∈ c.states.toList, e.2.EveryDatum q := by
  constructor
  · intro h
    exact ⟨h.context, fun e he => h.states e.1 e.2 (SortedMap.get?_eq_some_iff.2 he)⟩
  · rintro ⟨hc, hs⟩
    exact ⟨hc, fun id s h => hs (id, s) (SortedMap.get?_eq_some_iff.1 h)⟩

section Decidable

variable [DecidablePred p] [DecidablePred q]

instance (t : Transition) : Decidable (t.EveryDatum p) := decidable_of_iff _ t.everyDatum_iff.symm

instance (s : State) : Decidable (s.EveryDatum p) :=
  decidable_of_iff (∀ on ∈ s.on, ∀ e ∈ on.toList, e.2.EveryDatum p) s.everyDatum_iff.symm

instance (c : Chart) : Decidable (c.EveryDatum p q) :=
  decidable_of_iff ((∀ v ∈ c.context, p v) ∧ ∀ e ∈ c.states.toList, e.2.EveryDatum q)
    c.everyDatum_iff.symm

end Decidable

instance (c : Chart) : Decidable c.Fits := inferInstanceAs (Decidable (c.EveryDatum _ _))
instance (c : Chart) : Decidable c.Rereads := inferInstanceAs (Decidable (c.EveryDatum _ _))

/-! ## What is dropped does not matter -/

/-- A transition has the data that is left of it. -/
theorem Transition.everyDatum_strip (t : Transition) : t.strip.EveryDatum p ↔ t.EveryDatum p := by
  rw [everyDatum_iff, everyDatum_iff, freeExtra_strip]

/-- A state has the data that is left of it. -/
theorem State.everyDatum_strip (s : State) : s.strip.EveryDatum p ↔ s.EveryDatum p := by
  rw [everyDatum_iff, everyDatum_iff, strip]
  cases s.on with
  | none => simp
  | some on =>
    have h := SortedMap.forall_toList_map (f := Transition.strip) (m := on) (p := (·.EveryDatum p))
    simp only [Transition.everyDatum_strip] at h
    simp only [Option.map_some, Option.some.injEq, forall_eq']
    exact h

/-- A chart has the data that is left of it, and a context of `null` besides at most. -/
theorem Chart.everyDatum_strip (c : Chart) (hnull : p .null) :
    c.strip.EveryDatum p q ↔ c.EveryDatum p q := by
  have hcontext : (∀ v, c.strip.context = some v → p v) ↔ ∀ v, c.context = some v → p v := by
    unfold strip
    cases c.context with
    | none => simp
    | some v => cases v <;> simp [Json.isNull, hnull]
  have hstates :=
    SortedMap.forall_toList_map (f := State.strip) (m := c.states) (p := (·.EveryDatum q))
  simp only [State.everyDatum_strip] at hstates
  rw [everyDatum_iff, everyDatum_iff, hcontext]
  exact and_congr_right fun _ => hstates

/-- Whether a chart fits is decided by the data that is left of it. -/
theorem Chart.fits_strip (c : Chart) : c.strip.Fits ↔ c.Fits :=
  c.everyDatum_strip (Nat.zero_le _)

/-- Whether a chart reads back is decided by the data that is left of it. -/
theorem Chart.rereads_strip (c : Chart) : c.strip.Rereads ↔ c.Rereads :=
  c.everyDatum_strip fun _ hx => absurd hx List.not_mem_nil

end FlatChart
