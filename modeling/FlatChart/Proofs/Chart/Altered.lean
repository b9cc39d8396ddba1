import FlatChart.Proofs.Chart.Layout
import FlatChart.Proofs.Json.Altered

/-!
# What is passed over in a chart

Functions are written as labels only, so what stands in their places is passed over when a chart is
read: the members of a chart and of a state that have an unknown name, and what stands under the
names of the actions and the guard of a transition. Any layouts may be put there (`ChartAltered`),
however deep, with numbers of any size and with texts that are made of no characters, and members
may come and go: the text is read as before (`Chart.read_altered`). Every text from which a chart is
read is such a layout, so this is said of them all (`Chart.exists_layout_read_altered`). It is shown
from the inside out, one level of the chart after the other, and always of the reader on the layout
alone, as readers settle on layouts.
-/

namespace FlatChart

open Reader

/-! ## Members that are passed over -/

/-- A transition altered into another in what stands under the names of its actions and its
guard. -/
def TransitionAltered : Layout → Layout → Prop :=
  Altered (fun _ => False) fun l w w' => w = w' ∨ l.IsOneOf ["actions", "cond"]

/-- Transitions altered into others, event by event. -/
def OnAltered : Layout → Layout → Prop :=
  Altered (fun _ => False) fun _ w w' => TransitionAltered w w'

/-- A state altered into another in its transitions, and in members whose name is neither that of
its kind nor that of its transitions. -/
def StateAltered : Layout → Layout → Prop :=
  Altered (fun l => l.IsNoneOf ["type", "on"]) fun l w w' =>
    w = w' ∨ l.IsOneOf ["on"] ∧ OnAltered w w'

/-- States altered into others, name by name. -/
def StatesAltered : Layout → Layout → Prop :=
  Altered (fun _ => False) fun _ w w' => StateAltered w w'

/-- A chart altered into another in its states, and in members whose name is that of no part of
it. -/
def ChartAltered : Layout → Layout → Prop :=
  Altered (fun l => l.IsNoneOf ["initial", "context", "states"]) fun l w w' =>
    w = w' ∨ l.IsOneOf ["states"] ∧ StatesAltered w w'

/-- A transition is read as the transition it is altered into. -/
theorem TransitionAltered.alone_read {w w' : Layout} (h : TransitionAltered w w') (depth : ℕ) :
    alone (Transition.read depth) w = alone (Transition.read depth) w' := by
  refine (Transition.readsMembers_read depth).altered (fun _ _ _ hfree => hfree.elim) ?_ h
  intro d l w w' hvalue k hk
  rcases hvalue with rfl | hname
  · rfl
  · have hmem := hname.mem hk
    rw [Transition.aloneUnder_readMember, Transition.aloneUnder_readMember]
    simp only [List.mem_cons, List.not_mem_nil, or_false] at hmem
    rcases hmem with rfl | rfl <;> rfl

/-- Transitions are read as the transitions they are altered into. -/
theorem OnAltered.alone_readOn {w w' : Layout} (h : OnAltered w w') (depth : ℕ) :
    alone (State.readOn depth) w = alone (State.readOn depth) w' := by
  have hread := Transition.settlesOn_read depth
  have hmap := alone_readMap_congr hread
    (fun _ _ _ (hvalue : TransitionAltered _ _) => hvalue.alone_read depth) h
  exact alone_readOptional_congr (settlesOn_readMap hread) h.kind_eq hmap

/-- A state is read as the state it is altered into. -/
theorem StateAltered.alone_read {w w' : Layout} (h : StateAltered w w') (depth : ℕ) :
    alone (State.read depth) w = alone (State.read depth) w' := by
  refine (State.readsMembers_read depth).altered ?_ ?_ h
  · rintro d l w ⟨k, hk, hother⟩
    rw [aloneMember_of_spelled hk, State.aloneUnder_readMember]
    exact State.memberAlone_of_notMem depth w d hother
  · intro d l w w' hvalue k hk
    rcases hvalue with rfl | ⟨hname, hon⟩
    · rfl
    · obtain rfl : k = "on" := List.mem_singleton.1 (hname.mem hk)
      rw [State.aloneUnder_readMember, State.aloneUnder_readMember]
      simp only [State.memberAlone, hon.alone_readOn depth]

/-- States are read as the states they are altered into. -/
theorem StatesAltered.alone_readStates {w w' : Layout} (h : StatesAltered w w') :
    alone Chart.readStates w = alone Chart.readStates w' :=
  alone_readMap_congr (State.settlesOn_read _)
    (fun _ _ _ (hvalue : StateAltered _ _) => hvalue.alone_read _) h

namespace Chart

/-- A chart is read alone as the chart that it is altered into. -/
theorem alone_readValue_altered {w w' : Layout} (h : ChartAltered w w') :
    alone readValue w = alone readValue w' := by
  refine readsMembers_readValue.altered ?_ ?_ h
  · rintro d l w ⟨k, hk, hother⟩
    rw [aloneMember_of_spelled hk, aloneUnder_readMember]
    exact memberAlone_of_notMem w d hother
  · intro d l w w' hvalue k hk
    rcases hvalue with rfl | ⟨hname, hstates⟩
    · rfl
    · obtain rfl : k = "states" := List.mem_singleton.1 (hname.mem hk)
      rw [aloneUnder_readMember, aloneUnder_readMember]
      simp only [memberAlone, hstates.alone_readStates]

/-- Inside a text a chart is read as the chart that it is altered into, with the same text left. -/
theorem readValue_altered {w w' : Layout} (h : ChartAltered w w') (before before' : Gap)
    (after : List Char) :
    readValue (before.chars ++ (w.chars ++ after)) =
      readValue (before'.chars ++ (w'.chars ++ after)) := by
  have halone := alone_readValue_altered h
  cases h with
  | same => rw [readValue_gap, readValue_gap]
  | @obj members members' last last' hmembers =>
    -- Nothing is asked of what follows, as an object ends with its bracket.
    calc readValue (before.chars ++ ((Layout.obj members last).chars ++ after))
        = leaving after (alone readValue (.obj members last)) :=
          readsMembers_readValue.chars members last before after
      _ = leaving after (alone readValue (.obj members' last')) := by rw [halone]
      _ = readValue (before'.chars ++ ((Layout.obj members' last').chars ++ after)) :=
          (readsMembers_readValue.chars members' last' before' after).symm

/-- A text that holds a chart is read as the text in which the chart is altered in what is passed
over, whatever stands around it in both: with equal charts, and with equal errors. -/
theorem read_altered {w w' : Layout} (h : ChartAltered w w') (before before' : Gap)
    (after : List Char) :
    Chart.read (String.ofList (before.chars ++ (w.chars ++ after))) =
      Chart.read (String.ofList (before'.chars ++ (w'.chars ++ after))) := by
  rw [Chart.read, Chart.read, String.toList_ofList, String.toList_ofList,
    readValue_altered h before before' after]

/-- A record player with one state, its guard and the further members of its state. -/
def jukebox (cond : Layout) (more : List (Label × Layout)) : Layout :=
  .obj [(.tight "initial" (by decide), .str (unescaped "a" (by decide))),
    (.tight "states" (by decide), .obj [(.tight "a" (by decide), .obj
      ((.tight "on" (by decide), .obj [(.tight "E" (by decide), .obj
        [(.tight "cond" (by decide), cond)] [])] []) :: more) [])] [])] []

/-- Another guard, and a member under the name of its hooks. -/
theorem jukebox_altered (cond cond' entry : Layout) :
    ChartAltered (jukebox cond []) (jukebox cond' [(.tight "entry" (by decide), entry)]) := by
  have htransition : TransitionAltered (.obj [(.tight "cond" (by decide), cond)] [])
      (.obj [(.tight "cond" (by decide), cond')] []) :=
    .obj [] [] (.kept rfl (.inr ⟨"cond", rfl, by decide⟩) .nil)
  have hon : OnAltered _ _ := .obj [] [] (.kept (l := .tight "E" (by decide)) rfl htransition .nil)
  have hstate : StateAltered _ _ :=
    .obj [] [] (.kept (l := .tight "on" (by decide)) rfl (.inr ⟨⟨"on", rfl, by decide⟩, hon⟩)
      (.added (l := .tight "entry" (by decide)) entry ⟨"entry", rfl, by decide⟩ .nil))
  have hstates : StatesAltered _ _ :=
    .obj [] [] (.kept (l := .tight "a" (by decide)) rfl hstate .nil)
  exact .obj [] [] (.kept rfl (.inl rfl)
    (.kept rfl (.inr ⟨⟨"states", rfl, by decide⟩, hstates⟩) .nil))

/-- The text of a player with an empty guard. -/
def jukeboxText : String :=
  "\x7b\"initial\":\"a\",\"states\":\x7b\"a\":\x7b\"on\":\x7b\"E\":\x7b\"cond\":null" ++
    "\x7d\x7d\x7d\x7d\x7d"

/-- The same text with half of a surrogate pair inside two brackets for a guard, and with a number
that has no value for the hooks of the state. -/
def jukeboxTextAltered : String :=
  "\x7b\"initial\":\"a\",\"states\":\x7b\"a\":\x7b\"on\":\x7b\"E\":\x7b\"cond\":[[\"\\ud800\"]]" ++
    "\x7d\x7d,\"entry\":1e999\x7d\x7d\x7d"

/-- Half of a surrogate pair inside two brackets. -/
def loneHalf : Layout :=
  have hd : IsHex 'd' := .inr (.inl (by decide))
  .arr [(([], []), .arr [(([], []),
    .str [.unit ⟨'d', hd⟩ ⟨'8', .inl rfl⟩ ⟨'0', .inl rfl⟩ ⟨'0', .inl rfl⟩])] [])] []

/-- A number that is too large to have a value. -/
def hugeNumber : Layout :=
  .num ⟨⟨false, ['1'], none, some (false, ['9', '9', '9'])⟩,
    ⟨by simp [IsDigits], by decide, by simp, by simp [IsDigits]⟩, false, false⟩

/-- A player is read, and read alike with half of a surrogate pair for its guard and with hooks that
are a number without a value. -/
theorem read_altered_jukebox :
    (Chart.read jukeboxText).isOk = true ∧
      Chart.read jukeboxText = Chart.read jukeboxTextAltered := by
  have h := read_altered (jukebox_altered .null loneHalf hugeNumber) [] [] []
  have htext : String.ofList ((jukebox .null []).chars ++ []) = jukeboxText := by decide +kernel
  have htext' : String.ofList
      ((jukebox loneHalf [(.tight "entry" (by decide), hugeNumber)]).chars ++ []) =
        jukeboxTextAltered := by decide +kernel
  rw [show Gap.chars [] = [] from rfl, List.nil_append, List.nil_append, htext, htext'] at h
  exact ⟨by decide +kernel, h⟩

end Chart

end FlatChart
