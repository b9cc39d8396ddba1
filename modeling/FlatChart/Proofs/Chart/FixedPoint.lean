import FlatChart.Proofs.Chart.RoundTrip
import FlatChart.Proofs.Json.Given

/-!
# A chart that was read can be saved

What is read of any text is data and nothing else, and it nests within the limits of a reader: it is
`Settled` at every level, from the transitions outward. So the text of a chart that was read is read
as that chart (`Chart.read_text_of_read`), whatever form the first text had.
-/

namespace FlatChart

open Reader

namespace Transition

/-- There is nothing to drop, and data nests at most `depth` deep. -/
structure Settled (depth : ℕ) (t : Transition) : Prop where
  /-- Nothing but data. -/
  strip : t.strip = t
  /-- The nesting of the data. -/
  nesting : t.EveryDatum (·.nesting ≤ depth)

/-- All data read so far nests at most `depth` deep. -/
def Draft.Settled (depth : ℕ) (d : Draft) : Prop :=
  ∀ key v, d.extra.get? key = some v → v.nesting ≤ depth

/-- One more member of a transition keeps the data within its limit. -/
theorem gives_readMember (depth : ℕ) (d : Draft) (key : String) (hd : d.Settled depth) :
    Gives (readMember depth d key) (Draft.Settled depth) := by
  intro text s rest h
  unfold readMember at h
  -- Only the last case reads data; target, actions and guard leave it as it is.
  split at h
  · obtain ⟨⟨target, _⟩, -, h⟩ := bind_eq_ok.1 h
    cases h
    exact hd
  · obtain ⟨⟨actions, _⟩, -, h⟩ := bind_eq_ok.1 h
    cases h
    exact hd
  · obtain ⟨⟨cond, _⟩, -, h⟩ := bind_eq_ok.1 h
    cases h
    exact hd
  · obtain ⟨_, -, h⟩ := bind_eq_ok.1 h
    obtain ⟨⟨v, _⟩, hv, h⟩ := bind_eq_ok.1 h
    cases h
    exact SortedMap.forall_get?_insert hd (gives_readData depth _ _ _ hv)

/-- A transition of which all data is settled is settled: reserved names are dropped when its
members are put together. -/
theorem Draft.Settled.transition {depth : ℕ} {d : Draft} (hd : d.Settled depth) :
    d.transition.Settled depth := by
  constructor
  · have hextra : d.transition.freeExtra = d.transition.extra := by
      apply SortedMap.toList_inj.1
      simp [Draft.transition, freeExtra, List.filter_filter]
    rw [strip_eq, hextra]
    rfl
  · intro key v _ hv
    rw [Draft.transition, SortedMap.get?_filter, Option.filter_eq_some_iff] at hv
    exact hd key v hv.1

/-- A transition that was read is settled. -/
theorem gives_read (depth : ℕ) : Gives (read depth) (Settled depth) := by
  intro text t rest h
  rw [read] at h
  split at h
  · obtain ⟨⟨d, _⟩, hd, h⟩ := bind_eq_ok.1 h
    cases h
    have hnone : Draft.Settled depth {} := by simp [Draft.Settled]
    exact (gives_readMembers (gives_readMember depth) _ _ {} hnone _ _ _ hd).transition
  · exact absurd h (readUnexpected_ne_ok _ _ _)

end Transition

namespace State

/-- There is nothing to drop, and data nests at most `depth` deep. -/
structure Settled (depth : ℕ) (s : State) : Prop where
  /-- Nothing but data. -/
  strip : s.strip = s
  /-- The nesting of the data. -/
  nesting : s.EveryDatum (·.nesting ≤ depth)

/-- All transitions read so far are settled. -/
def Draft.Settled (depth : ℕ) (d : Draft) : Prop :=
  ∀ on, d.on.join = some on → ∀ event t, on.get? event = some t → t.Settled depth

/-- Transitions that were read are settled. -/
theorem gives_readOn (depth : ℕ) :
    Gives (readOn depth) fun on? =>
      ∀ on, on? = some on → ∀ event t, on.get? event = some t → t.Settled depth :=
  gives_readOptional (gives_readMap (Transition.gives_read depth))

/-- One more member of a state keeps its transitions settled. -/
theorem gives_readMember (depth : ℕ) (d : Draft) (key : String) (hd : d.Settled depth) :
    Gives (readMember depth d key) (Draft.Settled depth) := by
  intro text s rest h
  unfold readMember at h
  split at h
  · obtain ⟨⟨kind, _⟩, -, h⟩ := bind_eq_ok.1 h
    cases h
    exact hd
  · obtain ⟨⟨on, _⟩, hon, h⟩ := bind_eq_ok.1 h
    cases h
    intro transitions htransitions
    obtain ⟨read?, rfl, rfl⟩ := Option.join_eq_some_iff.1 htransitions
    exact gives_readOnce (gives_readOn depth) _ _ _ _ _ hon _ rfl _ rfl
  · exact gives_skipMember d _ _ _ h ▸ hd

/-- The items of a state that is written as an array have settled transitions. -/
theorem gives_readParts (depth : ℕ) : Gives (readParts depth) (Draft.Settled depth) := by
  intro text d rest h
  unfold readParts at h
  obtain ⟨next, -, h⟩ := bind_eq_ok.1 h
  cases next with
  | closed _ =>
    cases h
    exact nofun
  | entry text =>
    obtain ⟨⟨kind, _⟩, -, h⟩ := bind_eq_ok.1 h
    obtain ⟨next, -, h⟩ := bind_eq_ok.1 h
    cases next with
    | closed _ =>
      cases h
      exact nofun
    | entry text =>
      obtain ⟨⟨on, _⟩, hon, h⟩ := bind_eq_ok.1 h
      obtain ⟨_, -, h⟩ := bind_eq_ok.1 h
      cases h
      exact gives_readOn depth _ _ _ hon

/-- A state whose transitions are settled is settled. -/
theorem Draft.Settled.state {depth : ℕ} {d : Draft} (hd : d.Settled depth) :
    d.state.Settled depth := by
  constructor
  · have hon : d.on.join.map (·.map Transition.strip) = d.on.join := by
      cases hjoin : d.on.join with
      | none => rfl
      | some on =>
        rw [Option.map_some, SortedMap.map_eq_self fun event t ht => (hd on hjoin event t ht).strip]
    rw [strip, Draft.state, hon]
  · intro on hon event t ht
    exact (hd on hon event t ht).nesting

/-- A state that was read is settled. -/
theorem gives_read (depth : ℕ) : Gives (read depth) (Settled depth) := by
  intro text s rest h
  rw [read] at h
  split at h
  · obtain ⟨⟨d, _⟩, hd, h⟩ := bind_eq_ok.1 h
    cases h
    exact (gives_readParts depth _ _ _ hd).state
  · obtain ⟨⟨d, _⟩, hd, h⟩ := bind_eq_ok.1 h
    cases h
    exact (gives_readMembers (gives_readMember depth) _ _ {} nofun _ _ _ hd).state
  · exact absurd h (readUnexpected_ne_ok _ _ _)

end State

namespace Chart

/-- There is nothing to drop, and data nests as deep as a reader allows. -/
structure Settled (c : Chart) : Prop where
  /-- Nothing but data. -/
  strip : c.strip = c
  /-- The nesting of the data. -/
  fits : c.Fits

/-- The context read so far is none or data within its limit. -/
def SettledContext (context : Option Json) : Prop :=
  ∀ v, context = some v → v ≠ .null ∧ v.nesting ≤ 126

/-- All states read so far are settled. -/
def SettledStates (states : SortedMap State) : Prop :=
  ∀ id s, states.get? id = some s → s.Settled 122

/-- All that was read so far is settled. -/
structure Draft.Settled (d : Draft) : Prop where
  /-- The context. -/
  context : SettledContext d.context.join
  /-- The states. -/
  states : ∀ states, d.states = some states → SettledStates states

/-- Nothing was read so far that is not settled. -/
theorem Draft.Settled.empty (initial : Option String) : Draft.Settled { initial } := ⟨nofun, nofun⟩

/-- A context that was read is settled. -/
theorem gives_readContext : Gives readContext SettledContext := gives_readOptional_readData 126

/-- States that were read are settled. -/
theorem gives_readStates : Gives readStates SettledStates := gives_readMap (State.gives_read 122)

/-- One more member of a chart keeps it settled. -/
theorem gives_readMember (d : Draft) (key : String) (hd : d.Settled) :
    Gives (readMember d key) Draft.Settled := by
  intro text s rest h
  unfold readMember at h
  split at h
  · obtain ⟨⟨initial, _⟩, -, h⟩ := bind_eq_ok.1 h
    cases h
    exact ⟨hd.context, hd.states⟩
  · obtain ⟨⟨context, _⟩, hcontext, h⟩ := bind_eq_ok.1 h
    cases h
    refine ⟨fun v hv => ?_, hd.states⟩
    obtain ⟨read?, rfl, rfl⟩ := Option.join_eq_some_iff.1 hv
    exact gives_readOnce gives_readContext _ _ _ _ _ hcontext _ rfl _ rfl
  · obtain ⟨⟨states, _⟩, hstates, h⟩ := bind_eq_ok.1 h
    cases h
    exact ⟨hd.context, gives_readOnce gives_readStates _ _ _ _ _ hstates⟩
  · exact gives_skipMember d _ _ _ h ▸ hd

/-- The items of a chart that is written as an array are settled. -/
theorem gives_readParts : Gives readParts Draft.Settled := by
  intro text d rest h
  unfold readParts at h
  obtain ⟨next, -, h⟩ := bind_eq_ok.1 h
  cases next with
  | closed _ => cases h
  | entry text =>
    obtain ⟨⟨initial, _⟩, -, h⟩ := bind_eq_ok.1 h
    obtain ⟨next, -, h⟩ := bind_eq_ok.1 h
    cases next with
    | closed _ =>
      cases h
      exact .empty _
    | entry text =>
      obtain ⟨⟨context, _⟩, hcontext, h⟩ := bind_eq_ok.1 h
      obtain ⟨next, -, h⟩ := bind_eq_ok.1 h
      have hsettled := gives_readContext _ _ _ hcontext
      cases next with
      | closed _ =>
        cases h
        exact ⟨hsettled, nofun⟩
      | entry text =>
        obtain ⟨⟨states, _⟩, hstates, h⟩ := bind_eq_ok.1 h
        obtain ⟨_, -, h⟩ := bind_eq_ok.1 h
        cases h
        refine ⟨hsettled, ?_⟩
        rintro _ ⟨⟩
        exact gives_readStates _ _ _ hstates

/-- A chart of which all is settled is settled. -/
theorem Draft.Settled.chart {d : Draft} {c : Chart} (hd : d.Settled) (hc : d.chart? = some c) :
    c.Settled := by
  obtain ⟨initial, -, rfl⟩ := Option.map_eq_some_iff.1 hc
  have hstates : SettledStates (d.states.getD ∅) := by
    cases hstates : d.states with
    | none => exact fun id s hs => by simp at hs
    | some states => exact hd.states states hstates
  constructor
  · have hcontext : d.context.join.filter (fun v => !v.isNull) = d.context.join := by
      cases hjoin : d.context.join with
      | none => rfl
      | some v =>
        have hv := (hd.context v hjoin).1
        cases v with
        | null => exact absurd rfl hv
        | _ => rfl
    rw [strip, hcontext, SortedMap.map_eq_self fun id s hs => (hstates id s hs).strip]
  · exact ⟨fun v hv => (hd.context v hv).2, fun id s hs => (hstates id s hs).nesting⟩

/-- What a settled draft is completed to is settled. -/
theorem Draft.Settled.of_completed {d : Draft} {rest rest' : List Char} {c : Chart}
    (hd : d.Settled) (h : completed (d, rest') = .ok (c, rest)) : c.Settled := by
  unfold completed at h
  split at h
  · next hc =>
    cases h
    exact hd.chart hc
  · cases h

/-- A chart that was read is settled. -/
theorem gives_readValue : Gives readValue Settled := by
  intro text c rest h
  rw [readValue_eq] at h
  split at h
  · obtain ⟨⟨d, _⟩, hd, h⟩ := bind_eq_ok.1 h
    exact (gives_readParts _ _ _ hd).of_completed h
  · obtain ⟨⟨d, _⟩, hd, h⟩ := bind_eq_ok.1 h
    exact (gives_readMembers gives_readMember _ _ {} (.empty none) _ _ _ hd).of_completed h
  · exact absurd h (readUnexpected_ne_ok _ _ _)

/-- A chart that a text holds is settled. -/
theorem settled_of_read {text : String} {c : Chart} (h : read text = .ok c) : c.Settled := by
  obtain ⟨⟨c, _⟩, hc, h⟩ := bind_eq_ok.1 h
  obtain ⟨_, -, h⟩ := bind_eq_ok.1 h
  cases h
  exact gives_readValue _ _ _ hc

/-- A chart that was read from any text, and whose floats read back, is read again from its own
text. -/
theorem read_text_of_read {text : String} {c : Chart} (h : read text = .ok c) (hc : c.Rereads) :
    read c.text = .ok c := by
  have hsettled := settled_of_read h
  have hread := (c.yields_read hc).ok hsettled.fits
  rw [hread, hsettled.strip]

/-- A chart as an array, with a state as an array, and with a state that has a member of no meaning;
its transition has functions, data under a reserved name, and data that stands twice in it. -/
def handwritten : String :=
  "[ \"lit\", null, \x7b \"off\": [null, \x7b\x7d], \"lit\": \x7b \"note\": [[]], \"on\": \x7b" ++
  "\"FADE\": \x7b \"actions\": \"log\", \"event\": 1, \"delay\": [], \"target\": \"off\", " ++
  "\"delay\": [0.5] \x7d \x7d \x7d \x7d ]"

/-- The same chart as it is written by rule. -/
def rewritten : String :=
  "\x7b\"initial\":\"lit\",\"states\":\x7b\"lit\":\x7b\"on\":\x7b\"FADE\":" ++
  "\x7b\"target\":\"off\",\"delay\":[0.5]\x7d\x7d\x7d,\"off\":\x7b\"on\":\x7b\x7d\x7d\x7d\x7d"

/-- The chart by hand is read, is written by rule, and is read as the same chart again. -/
theorem read_text_handwritten :
    ∃ c, (read handwritten = .ok c ∧ c.Rereads) ∧ c.text = rewritten ∧ read c.text = .ok c := by
  have hc : ∃ c ∈ (read handwritten).toOption, c.Rereads ∧ c.text = rewritten := by decide +kernel
  obtain ⟨c, hmem, hrereads, htext⟩ := hc
  have hread : read handwritten = .ok c := by
    cases h : read handwritten with
    | error e => rw [h] at hmem; cases hmem
    | ok c' => rw [h] at hmem; cases hmem; rfl
  exact ⟨c, ⟨hread, hrereads⟩, htext, read_text_of_read hread hrereads⟩

end Chart

end FlatChart
