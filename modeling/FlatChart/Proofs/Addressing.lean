import FlatChart.Proofs.Builder.Focused
import FlatChart.Tree.Compile

/-!
# Addressing a transition

A transition is addressed by its state and its event: the cursor is moved to both, and a callback is
attached (`Builder.address`). A move takes an empty name for no name, while a tree may declare
states and transitions with empty names. So of the transitions of a compiled tree just those with
two names that are not empty can be addressed (`Element.addresses_compiled_iff`). With an empty
event the call fails, and with an empty state the callback goes to the state that was in focus
before, if that has a transition on the event (`Element.turnstile_misaddressed`).
-/

namespace FlatChart

/-- The calls that attach a callback to the transition from a state on an event. -/
def Builder.address (b : Builder) (id event : String) (f : Callback) : List Answer × Builder :=
  b.run [.focus { state := some id, event := some event }, .action f]

/-- One transition has one more callback, its last action, and no other transition changes. -/
structure Chart.Gains (c d : Chart) (id event : String) (f : Callback) : Prop where
  /-- The transition gains the callback. -/
  gained : ∃ t, c.transition? id event = some t ∧
    d.transition? id event = some (t.addAction (.effect f))
  /-- The other transitions are as they were. -/
  kept : ∀ id' event', ¬(id' = id ∧ event' = event) →
    d.transition? id' event' = c.transition? id' event'

namespace Chart

variable {c d : Chart} {id event : String} {f : Callback}

/-- A callback that is added to a transition is gained by it alone. -/
theorem gains_modifyTransition (h : (c.transition? id event).isSome) :
    c.Gains (c.modifyTransition id event (·.addAction (.effect f))) id event f where
  gained := by
    obtain ⟨t, ht⟩ := Option.isSome_iff_exists.1 h
    exact ⟨t, ht, by rw [transition?_modifyTransition, ht]; rfl⟩
  kept _ _ hne := c.transition?_modifyTransition_of_ne hne _

/-- A transition that is as it was has gained nothing. -/
theorem not_gains_of_eq (h : d.transition? id event = c.transition? id event) :
    ¬c.Gains d id event f := by
  rintro ⟨⟨t, ht, ht'⟩, -⟩
  rw [h, ht] at ht'
  have hactions : t.actions = t.actions ++ [.effect f] :=
    congrArg Transition.actions (Option.some.inj ht')
  simp at hactions

end Chart

namespace Builder

variable {b : Builder} {id event : String} {f : Callback}

/-- A builder addresses a transition: both calls succeed, and the transition alone gains the
callback. -/
structure Addresses (b : Builder) (id event : String) (f : Callback) : Prop where
  /-- The move and the call succeed. -/
  succeeds : (b.address id event f).1 = [.ok, .ok]
  /-- The transition gains the callback, and no other transition changes. -/
  gains : b.chart.Gains (b.address id event f).2.chart id event f

/-- The move always succeeds, and then the callback is attached where the cursor is. -/
theorem address_eq (b : Builder) (id event : String) (f : Callback) :
    b.address id event f =
      ([.ok, ((Call.action f).run (b.focus { state := some id, event := some event })).1],
        ((Call.action f).run (b.focus { state := some id, event := some event })).2) := rfl

/-- If there is a transition where the move leads, it is changed. -/
theorem address_of_move (target : String × String)
    (hmove : b.cursor.move { state := some id, event := some event } =
      ⟨some target.1, some target.2⟩)
    (ht : (b.chart.transition? target.1 target.2).isSome) :
    b.address id event f =
      ([.ok, .ok],
        ⟨b.chart.modifyTransition target.1 target.2 (·.addAction (.effect f)),
          ⟨some target.1, some target.2⟩⟩) := by
  have haction := decorate_of_transition? (b := b.focus { state := some id, event := some event })
    hmove ht .action (·.addAction (.effect f))
  rw [address_eq, Call.run, action, haction, attempt, focus, hmove]

/-- Without an event the call fails. -/
theorem address_empty_event (b : Builder) (id : String) (f : Callback) :
    ∃ missing, (b.address id "" f).1 = [.ok, .failed missing] := by
  have hevent : (b.focus { state := some id, event := some "" }).cursor.event = none := rfl
  rw [address_eq, Call.run, action, decorate, focusedTransition, hevent]
  cases (b.focus { state := some id, event := some "" }).cursor.state with
  | none => exact ⟨_, rfl⟩
  | some s => exact ⟨_, rfl⟩

/-- Without a state the transitions of the state with the empty name are as they were, unless the
cursor was on this state. -/
theorem transition?_address_empty_state (hcursor : b.cursor.state ≠ some "") :
    (b.address "" event f).2.chart.transition? "" event = b.chart.transition? "" event := by
  have hchart : (b.address "" event f).2.chart =
      b.chart.edited ⟨b.cursor.state, givenName (some event)⟩ (.action f) :=
    congrArg Builder.chart
      ((b.focus { state := some "", event := some event }).run_call (.action f))
  rw [hchart, Chart.edited]
  cases hstate : b.cursor.state with
  | none => rfl
  | some s =>
    have hne : "" ≠ s := fun heq => hcursor (by rw [hstate, heq])
    rw [Chart.transition?, Chart.transition?, Chart.state?_modifyState_of_ne _ hne]

/-- A transition that exists is addressed just when both of its names are given, if the cursor was
not on the state with the empty name. -/
theorem addresses_iff (hcursor : b.cursor.state ≠ some "")
    (ht : (b.chart.transition? id event).isSome) :
    b.Addresses id event f ↔ id ≠ "" ∧ event ≠ "" := by
  constructor
  · rintro ⟨hanswers, hgains⟩
    refine ⟨?_, ?_⟩
    · rintro rfl
      exact Chart.not_gains_of_eq (transition?_address_empty_state hcursor) hgains
    · rintro rfl
      obtain ⟨missing, hfailed⟩ := b.address_empty_event id f
      rw [hfailed] at hanswers
      cases hanswers
  · rintro ⟨hid, hevent⟩
    have haddress := address_of_move (f := f) (id, event)
      (b.cursor.move_pair hid hevent) ht
    refine ⟨?_, ?_⟩
    · rw [haddress]
    · rw [haddress]
      exact Chart.gains_modifyTransition ht

end Builder

namespace Element

/-- After any session on the chart of a tree, a transition of the chart is addressed just when
neither its state nor its event has the empty name. -/
theorem addresses_compiled_iff (tree : Element) (context : Option Json) (session : List Call)
    (f : Callback) (id event : String)
    (ht : ((tree.compile context).transition? id event).isSome) :
    ((tree.compile context).build.run session).2.Addresses id event f ↔ id ≠ "" ∧ event ≠ "" := by
  have hcursor : ((tree.compile context).build.run session).2.cursor.state ≠ some "" := by
    rw [Builder.run_build]
    exact fun h => Chart.ne_empty_of_cursorAfter h rfl
  have hfound : (((tree.compile context).decoratedBy session).transition? id event).isSome := by
    rw [Chart.transition?_decoratedBy, Option.isSome_map]
    exact ht
  exact Builder.addresses_iff hcursor hfound

/-- A turnstile whose gate opens on an event and on the event with the empty name; a state with the
empty name opens on the same event. -/
def turnstile : Element :=
  let transition (event : String) :=
    (component "Transition").withAttribute "event" (.data (.str event))
  let state (id : String) := (component "State").withAttribute "id" (.data (.str id))
  fragment.child ((state "gate").child (transition "OPEN") |>.child (transition ""))
    |>.child ((state "").child (transition "OPEN"))

/-- After a session that gives it a callback, the transition of the gate is addressed. -/
theorem addresses_turnstile :
    ((turnstile.compile none).transition? "gate" "OPEN").isSome ∧
      ((turnstile.compile none).build.run
        [.focus { event := some "OPEN" }, .action ⟨0, none⟩]).2.Addresses "gate" "OPEN"
        ⟨1, none⟩ := by
  have ht : ((turnstile.compile none).transition? "gate" "OPEN").isSome := by decide +kernel
  have hiff := addresses_compiled_iff turnstile none
    [.focus { event := some "OPEN" }, .action ⟨0, none⟩] ⟨1, none⟩ "gate" "OPEN" ht
  exact ⟨ht, hiff.2 (by decide)⟩

/-- The transition of the state with the empty name exists and is not addressed: no call fails, but
the gate gains the callback. Nor is the transition of the gate on the event with the empty name. -/
theorem turnstile_misaddressed :
    ((turnstile.compile none).transition? "" "OPEN").isSome ∧
      ¬(turnstile.compile none).build.Addresses "" "OPEN" ⟨0, none⟩ ∧
      ((turnstile.compile none).build.address "" "OPEN" ⟨0, none⟩).1 = [.ok, .ok] ∧
      (turnstile.compile none).Gains
        ((turnstile.compile none).build.address "" "OPEN" ⟨0, none⟩).2.chart "gate" "OPEN"
        ⟨0, none⟩ ∧
      ((turnstile.compile none).transition? "gate" "").isSome ∧
      ¬(turnstile.compile none).build.Addresses "gate" "" ⟨0, none⟩ := by
  have hgate : ((turnstile.compile none).transition? "gate" "OPEN").isSome := by decide +kernel
  have hcursor : (turnstile.compile none).build.cursor.state ≠ some "" := by decide +kernel
  have hmove : (turnstile.compile none).build.cursor.move
      { state := some "", event := some "OPEN" } = ⟨some "gate", some "OPEN"⟩ := by decide +kernel
  have haddress := Builder.address_of_move (f := ⟨0, none⟩) ("gate", "OPEN") hmove hgate
  refine ⟨by decide +kernel, ?_, ?_, ?_, by decide +kernel, ?_⟩
  · intro h
    exact Chart.not_gains_of_eq (Builder.transition?_address_empty_state hcursor) h.gains
  · rw [haddress]
  · rw [haddress]
    exact Chart.gains_modifyTransition hgate
  · intro h
    obtain ⟨missing, hfailed⟩ :=
      (turnstile.compile none).build.address_empty_event "gate" ⟨0, none⟩
    have hanswers := h.succeeds
    rw [hfailed] at hanswers
    cases hanswers

end Element

end FlatChart
