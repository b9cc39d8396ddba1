import Mathlib.Data.List.Induction
import FlatChart.Builder.Session
import FlatChart.Proofs.Builder.Invocation

/-!
# A session is its log

The builder after a session is told from the list of calls alone, without running it. The cursor
after some calls is given by the moves among them (`Chart.cursorAfter`), each state and transition
has its log, the calls that were made while the cursor was there (`Chart.callsWhile`), and
`Chart.logged` adds to every hook, action, guard and invoke block what its log says and leaves
everything else as it is. `Builder.run_build` says that this is the chart that a session gives.
-/

namespace FlatChart

namespace Call

/-- Where a call moves the cursor. -/
def focus? : Call → Option Focus
  | .focus f => some f
  | _ => none

/-- The action that a call adds to a transition. -/
def action? : Call → Option Action
  | .action f => some (.effect f)
  | .assign f => some (.assign f)
  | _ => none

/-- The guard that a call sets for a transition. -/
def guard? : Call → Option Guard
  | .cond f => some f
  | _ => none

/-- The entry hook that a call adds to a state. -/
def entry? : Call → Option Callback
  | .onEntry f => some f
  | _ => none

/-- The exit hook that a call adds to a state. -/
def exit? : Call → Option Callback
  | .onExit f => some f
  | _ => none

/-- The invoke block that a call sets for a state. -/
def block? : Call → Option Invoke
  | .invoke service calls => some (calls.block service)
  | _ => none

end Call

namespace Chart

/-- The cursor after some calls on a builder of the chart. Its state is the last one that is not the
empty name, of the initial state and the states of the moves, and its event is that of the last move
if this is not the empty name. -/
def cursorAfter (c : Chart) (calls : List Call) : Cursor :=
  let moves := calls.filterMap Call.focus?
  { state := ((c.initial :: moves.filterMap Focus.state).filter (· ≠ "")).getLast?
    event := moves.getLast?.bind fun move => move.event.filter (· ≠ "") }

/-- The calls that were made while the cursor passed a test. -/
def callsWhile (c : Chart) (test : Cursor → Bool) (calls : List Call) : List Call :=
  (calls.zipIdx.filter fun (_, i) => test (c.cursorAfter (calls.take i))).map Prod.fst

/-- The calls that were made while the cursor was on a state. -/
def callsIn (c : Chart) (calls : List Call) (id : String) : List Call :=
  c.callsWhile (fun cursor => cursor.state = some id) calls

/-- The calls that were made while the cursor was on a state and an event. -/
def callsOn (c : Chart) (calls : List Call) (id event : String) : List Call :=
  c.callsWhile (· = ⟨some id, some event⟩) calls

end Chart

/-- A transition with the actions and the last guard of its log. -/
def Transition.logged (t : Transition) (log : List Call) : Transition :=
  { t with
    actions := t.actions ++ log.filterMap Call.action?
    cond := (log.filterMap Call.guard?).getLast?.or t.cond }

/-- A state with the hooks and the last invoke block of its log, and its transitions with theirs. -/
def State.logged (s : State) (log : List Call) (logOn : String → List Call) : State :=
  { s with
    on := s.on.map (·.mapEntries fun event t => t.logged (logOn event))
    entry := s.entry ++ log.filterMap Call.entry?
    exit := s.exit ++ log.filterMap Call.exit?
    invoke := (log.filterMap Call.block?).getLast?.or s.invoke }

/-- The chart with each of its states and transitions as its log of a session says. -/
def Chart.logged (c : Chart) (calls : List Call) : Chart :=
  { c with
    states := c.states.mapEntries fun id s => s.logged (c.callsIn calls id) (c.callsOn calls id) }

/-- An empty log changes nothing. -/
theorem Transition.logged_nil (t : Transition) : t.logged [] = t := by
  simp [logged]

/-- Without any call a chart is as it was. -/
theorem Chart.logged_nil (c : Chart) : c.logged [] = c := by
  have hstate : ∀ s : State, s.logged [] (fun _ => []) = s := by
    intro s
    have hon : (fun m : SortedMap Transition => m.mapEntries fun _ t => t.logged []) = id :=
      funext fun _ => SortedMap.mapEntries_eq_self fun _ t _ => t.logged_nil
    simp [State.logged, hon]
  have hstates : c.states.mapEntries (fun id s => s.logged (c.callsIn [] id) (c.callsOn [] id)) =
      c.states := SortedMap.mapEntries_eq_self fun _ s _ => hstate s
  rw [logged, hstates]

/-! ## One more call -/

/-- A name is given just when there is one and it is not empty. -/
theorem givenName_eq_filter (name : Option String) : givenName name = name.filter (· ≠ "") := by
  cases name with
  | none => rfl
  | some s => simp [givenName, Option.filter_some]

/-- What one more item gives at the end of a list. -/
theorem filterMap_concat {α β : Type} (f : α → Option β) (l : List α) (a : α) :
    (l ++ [a]).filterMap f = l.filterMap f ++ (f a).toList := by
  rw [List.filterMap_append]
  cases h : f a <;> simp [h]

namespace Chart

/-- The cursor is never on the empty name. -/
theorem ne_empty_of_cursorAfter {c : Chart} {calls : List Call} {id : String}
    (h : (c.cursorAfter calls).state = some id) : id ≠ "" := by
  have hmem := List.mem_of_getLast? h
  exact of_decide_eq_true (List.mem_filter.1 hmem).2

/-- At first the cursor is on the initial state. -/
theorem cursorAfter_nil (c : Chart) : c.cursorAfter [] = .startingAt c.initial := by
  simp only [cursorAfter, Cursor.startingAt, givenName_eq_filter, List.filterMap_nil]
  by_cases h : c.initial = "" <;> simp [h, Option.filter_some]

/-- A move goes on from where the cursor is, and any other call leaves it there. -/
theorem cursorAfter_concat (c : Chart) (calls : List Call) (call : Call) :
    c.cursorAfter (calls ++ [call]) =
      match call.focus? with
      | some f => (c.cursorAfter calls).move f
      | none => c.cursorAfter calls := by
  simp only [cursorAfter, filterMap_concat]
  cases call.focus? with
  | none => simp only [Option.toList_none, List.append_nil]
  | some f =>
    simp only [Option.toList_some, Cursor.move, givenName_eq_filter, filterMap_concat,
      List.getLast?_concat]
    congr 1
    -- The state of the move is one more at the end, which is dropped when it is the empty name.
    cases f.state with
    | none => simp
    | some s => by_cases hs : s = "" <;> simp [hs, Option.filter_some]

/-- A log grows by the call that is made while the cursor passes the test. -/
theorem callsWhile_concat (c : Chart) (test : Cursor → Bool) (calls : List Call) (call : Call) :
    c.callsWhile test (calls ++ [call]) =
      c.callsWhile test calls ++ if test (c.cursorAfter calls) then [call] else [] := by
  -- Up to each earlier call the calls are the same as without the last one.
  have hbefore :
      calls.zipIdx.filter (fun (_, i) => test (c.cursorAfter ((calls ++ [call]).take i))) =
        calls.zipIdx.filter fun (_, i) => test (c.cursorAfter (calls.take i)) := by
    apply List.filter_congr
    rintro ⟨x, i⟩ hx
    have hi : i ≤ calls.length := by
      have := List.snd_lt_of_mem_zipIdx hx
      omega
    simp only [List.take_append_of_le_length hi]
  have hlast : (calls ++ [call]).take calls.length = calls := List.take_left
  rw [callsWhile, callsWhile, List.zipIdx_append, List.filter_append, hbefore, List.map_append]
  congr 1
  simp only [List.zipIdx_cons, List.zipIdx_nil, Nat.zero_add, List.filter_cons, hlast,
    List.filter_nil]
  split <;> rfl

end Chart

/-- A transition with the change that a call makes while the cursor is on it. -/
def Call.editTransition (call : Call) (t : Transition) : Transition :=
  { t with
    actions := t.actions ++ call.action?.toList
    cond := call.guard?.or t.cond }

/-- Transitions with the change that a call makes while the cursor is on one of them, if it is. -/
def Call.editOn (call : Call) (event : Option String) (on : SortedMap Transition) :
    SortedMap Transition :=
  match event with
  | none => on
  | some event => on.modify event call.editTransition

/-- A state with the change that a call makes while the cursor is on it, with or without an
event. -/
def Call.editState (call : Call) (event : Option String) (s : State) : State :=
  { s with
    on := s.on.map (call.editOn event)
    entry := s.entry ++ call.entry?.toList
    exit := s.exit ++ call.exit?.toList
    invoke := call.block?.or s.invoke }

/-- A chart with the change that a call makes with the cursor where it is. -/
def Chart.edited (c : Chart) (cursor : Cursor) (call : Call) : Chart :=
  match cursor.state with
  | none => c
  | some id => c.modifyState id (call.editState cursor.event)

/-- The last thing of a list, where there may be one more. -/
theorem getLast?_append_toList {α : Type} (l : List α) (a : Option α) :
    (l ++ a.toList).getLast? = a.or l.getLast? := by
  cases a <;> simp

/-- One more entry in the log of a transition. -/
theorem Transition.logged_concat (t : Transition) (log : List Call) (call : Call) :
    t.logged (log ++ [call]) = call.editTransition (t.logged log) := by
  simp only [logged, Call.editTransition, filterMap_concat, getLast?_append_toList,
    List.append_assoc, Option.or_assoc]

/-- One more entry in the log of a state that the cursor is on, and in that of its transition. -/
theorem State.logged_concat (s : State) (log : List Call) (logOn : String → List Call)
    (event : Option String) (call : Call) :
    s.logged (log ++ [call])
        (fun other => logOn other ++ if event = some other then [call] else []) =
      call.editState event (s.logged log logOn) := by
  have hon : s.on.map (·.mapEntries fun other t =>
        t.logged (logOn other ++ if event = some other then [call] else [])) =
      (s.on.map (·.mapEntries fun other t => t.logged (logOn other))).map (call.editOn event) := by
    rw [Option.map_map]
    congr 1
    funext on
    -- Without an event in focus no transition changes, and with one only the transition on it.
    cases event with
    | none =>
      simp only [Function.comp_apply, Call.editOn]
      apply SortedMap.mapEntries_congr
      intro other t _
      rw [if_neg (by simp), List.append_nil]
    | some event =>
      simp only [Function.comp_apply, Call.editOn, SortedMap.modify_mapEntries]
      apply SortedMap.mapEntries_congr
      intro other t _
      by_cases h : other = event
      · rw [if_pos (by rw [h]), if_pos h, Transition.logged_concat]
      · rw [if_neg (fun he => h (Option.some.inj he).symm), if_neg h, List.append_nil]
  simp only [logged, Call.editState, hon, filterMap_concat, getLast?_append_toList,
    List.append_assoc, Option.or_assoc]

/-- One more entry in the logs of a chart. -/
theorem Chart.logged_concat (c : Chart) (calls : List Call) (call : Call) :
    c.logged (calls ++ [call]) = (c.logged calls).edited (c.cursorAfter calls) call := by
  -- The call goes into the log of the state in focus, and of the transition in focus if it has one.
  have hin : ∀ id, c.callsIn (calls ++ [call]) id =
      c.callsIn calls id ++ if (c.cursorAfter calls).state = some id then [call] else [] := by
    intro id
    rw [callsIn, callsIn, callsWhile_concat]
    simp
  have hon : ∀ id, c.callsOn (calls ++ [call]) id = fun event =>
      c.callsOn calls id event ++
        if c.cursorAfter calls = ⟨some id, some event⟩ then [call] else [] := by
    intro id
    funext event
    rw [callsOn, callsOn, callsWhile_concat]
    simp
  unfold logged edited
  generalize c.cursorAfter calls = cursor at hin hon
  obtain ⟨state, event⟩ := cursor
  simp only [hin, hon]
  cases state with
  | none => simp
  | some id =>
    simp only [modifyState, SortedMap.modify_mapEntries]
    congr 1
    apply SortedMap.mapEntries_congr
    intro other s _
    by_cases h : other = id
    · subst h
      simpa using s.logged_concat (c.callsIn calls other) (c.callsOn calls other) event call
    · have h' : id ≠ other := fun hid => h hid.symm
      simp [h, h']

namespace Builder

/-- An operation on the transition in focus changes nothing else, and nothing at all when there is
none. -/
theorem chart_decorate (b : Builder) (operation : Operation) (f : Transition → Transition) :
    (b.attempt (b.decorate operation f)).2 =
      match b.cursor.state, b.cursor.event with
      | some s, some e => { b with chart := b.chart.modifyTransition s e f }
      | _, _ => b := by
  -- The operation fails where the edit has nothing to change, so both leave the builder as it is.
  have hunchanged : ∀ s e, b.chart.transition? s e = none →
      b = { b with chart := b.chart.modifyTransition s e f } := by
    intro s e h
    rw [Chart.modifyTransition_eq_self (by simp [h])]
  unfold decorate focusedTransition
  cases b.cursor.state with
  | none => rfl
  | some s =>
    cases b.cursor.event with
    | none => rfl
    | some e =>
      cases hs : b.chart.state? s with
      | none =>
        have hnone : b.chart.transition? s e = none := by simp [Chart.transition?, hs]
        simp only [hs]
        exact hunchanged s e hnone
      | some state =>
        cases ht : b.chart.transition? s e with
        | none =>
          simp only [hs, ht]
          exact hunchanged s e ht
        | some t =>
          simp only [hs, ht]
          rfl

/-- A call that changes no transition changes the state in focus, if there is one. -/
theorem modifyFocused_eq_edited (b : Builder) (call : Call) (f : State → State)
    (haction : call.action? = none) (hguard : call.guard? = none)
    (hf : ∀ s, f s =
      { s with
        entry := s.entry ++ call.entry?.toList
        exit := s.exit ++ call.exit?.toList
        invoke := call.block?.or s.invoke }) :
    b.modifyFocused f = { b with chart := b.chart.edited b.cursor call } := by
  have hsame : ∀ t, call.editTransition t = t := by
    intro t
    simp [Call.editTransition, haction, hguard]
  have hon : ∀ event on, call.editOn event on = on := by
    intro event on
    cases event with
    | none => rfl
    | some event => exact SortedMap.modify_eq_self fun t _ => hsame t
  have hstate : ∀ event, f = call.editState event := by
    intro event
    funext s
    have hid : call.editOn event = id := funext (hon event)
    rw [hf, Call.editState, hid, Option.map_id, id]
  unfold modifyFocused Chart.edited
  cases b.cursor.state with
  | none => rfl
  | some s => simp only [hstate b.cursor.event]

/-- A call that changes no state itself changes the transition in focus, if there is one. -/
theorem decorate_eq_edited (b : Builder) (call : Call) (operation : Operation)
    (f : Transition → Transition) (hentry : call.entry? = none) (hexit : call.exit? = none)
    (hblock : call.block? = none) (hf : ∀ t, f t = call.editTransition t) :
    (b.attempt (b.decorate operation f)).2 = { b with chart := b.chart.edited b.cursor call } := by
  have hstate : ∀ event s,
      call.editState event s = { s with on := s.on.map (call.editOn event) } := by
    intro event s
    simp [Call.editState, hentry, hexit, hblock]
  obtain rfl : f = call.editTransition := funext hf
  rw [chart_decorate]
  unfold Chart.edited
  cases b.cursor.state with
  | none => rfl
  | some s =>
    cases b.cursor.event with
    | none =>
      have hsame : b.chart.modifyState s (call.editState none) = b.chart := by
        apply Chart.modifyState_eq_self
        intro state _
        have hid : call.editOn none = id := rfl
        rw [hstate, hid, Option.map_id, id]
      simp only [hsame]
    | some e =>
      have hmodify : b.chart.modifyState s (call.editState (some e)) =
          b.chart.modifyTransition s e call.editTransition :=
        congrArg (b.chart.modifyState s) (funext (hstate (some e)))
      simp only [hmodify]

/-- A call changes the chart by its edit at the cursor, and the cursor by its move. -/
theorem run_call (b : Builder) (call : Call) :
    (call.run b).2 =
      { chart := b.chart.edited b.cursor call
        cursor := match call.focus? with
          | some f => b.cursor.move f
          | none => b.cursor } := by
  cases call with
  | focus f =>
    -- A move edits nothing; it only sets the cursor.
    have h := b.modifyFocused_eq_edited (.focus f) id rfl rfl fun s => by
      simp [Call.entry?, Call.exit?, Call.block?]
    have hsame : b.modifyFocused id = b := modifyFocused_eq_self fun _ _ => rfl
    have hchart : b.chart.edited b.cursor (.focus f) = b.chart := by
      rw [hsame] at h
      exact (congrArg Builder.chart h).symm
    rw [hchart]
    rfl
  | action f => exact b.decorate_eq_edited (.action f) .action _ rfl rfl rfl fun _ => rfl
  | assign f => exact b.decorate_eq_edited (.assign f) .assign _ rfl rfl rfl fun _ => rfl
  | cond f =>
    exact b.decorate_eq_edited (.cond f) .cond _ rfl rfl rfl fun t => by
      simp [Call.editTransition, Call.action?, Call.guard?]
  | onEntry f =>
    exact b.modifyFocused_eq_edited (.onEntry f) _ rfl rfl fun s => by
      simp [Call.entry?, Call.exit?, Call.block?]
  | onExit f =>
    exact b.modifyFocused_eq_edited (.onExit f) _ rfl rfl fun s => by
      simp [Call.entry?, Call.exit?, Call.block?]
  | invoke service calls =>
    rw [Call.run, invokeChain_eq]
    exact b.modifyFocused_eq_edited (.invoke service calls) _ rfl rfl fun s => by
      simp [Call.entry?, Call.exit?, Call.block?]

/-- A session begins with its first call. -/
theorem run_cons (b : Builder) (call : Call) (rest : List Call) :
    b.run (call :: rest) =
      ((call.run b).1 :: ((call.run b).2.run rest).1, ((call.run b).2.run rest).2) := rfl

/-- A session goes on where the one before it ended. -/
theorem run_append (b : Builder) (later : List Call) :
    ∀ calls : List Call, b.run (calls ++ later) =
      ((b.run calls).1 ++ ((b.run calls).2.run later).1, ((b.run calls).2.run later).2)
  | [] => rfl
  | call :: rest => by
    have h := run_append (call.run b).2 later rest
    rw [List.cons_append, run_cons, run_cons, h, List.cons_append]

/-- A session with one more call. -/
theorem run_concat (b : Builder) (calls : List Call) (call : Call) :
    (b.run (calls ++ [call])).2 = (call.run (b.run calls).2).2 := by
  rw [run_append]
  rfl

/-- After a session on a builder of a chart, the chart is as the logs of its states and transitions
say, and the cursor is where the moves lead. -/
theorem run_build (c : Chart) (calls : List Call) :
    (c.build.run calls).2 = ⟨c.logged calls, c.cursorAfter calls⟩ := by
  -- From the last call, as logs and the cursor depend on all calls before one.
  induction calls using List.reverseRecOn with
  | nil =>
    rw [Chart.logged_nil, Chart.cursorAfter_nil]
    rfl
  | append_singleton calls call ih =>
    rw [run_concat, ih, run_call, Chart.logged_concat, Chart.cursorAfter_concat]

end Builder

namespace Chart

/-- The chart after a session on a builder of it. -/
def decoratedBy (c : Chart) (session : List Call) : Chart := (c.build.run session).2.chart

/-- The transitions after a session are the transitions with their logs. -/
theorem transition?_decoratedBy (c : Chart) (session : List Call) (id event : String) :
    (c.decoratedBy session).transition? id event =
      (c.transition? id event).map (·.logged (c.callsOn session id event)) := by
  have hstate : (c.logged session).state? id = (c.state? id).map fun s =>
      s.logged (c.callsIn session id) (c.callsOn session id) := SortedMap.get?_mapEntries ..
  rw [decoratedBy, Builder.run_build, transition?, transition?, hstate]
  cases c.state? id with
  | none => rfl
  | some s => cases hon : s.on <;> simp [State.logged, hon, SortedMap.get?_mapEntries]

end Chart

end FlatChart
