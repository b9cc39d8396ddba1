import FlatChart.Chart.Basic
import FlatChart.Json.Reader.Field

/-!
# Reading a chart

`Chart.read` restores the data of a written chart: functions are written as labels only, so what
stands in their places is passed over. Charts and states are read from an object or from an array of
their data in order; a transition is an object, whose unreserved members become its data. Brackets
nest at most `maxDepth` deep in what is read.
-/

namespace FlatChart

open Reader

/-! ## Transitions -/

namespace Transition

/-- What has been read of a transition. -/
structure Draft where
  /-- The target, which may be `null`. -/
  target : Option (Option String) := none
  /-- Whether there were actions. -/
  actions : Option Unit := none
  /-- Whether there was a guard. -/
  cond : Option Unit := none
  /-- The data of all other members. -/
  extra : SortedMap Json := ∅

/-- The transition of what has been read: data under a reserved name is dropped. -/
def Draft.transition (d : Draft) : Transition :=
  { target := d.target.join, extra := d.extra.filter fun key _ => !isReserved key }

/-- One member of a transition. -/
def readMember (depth : Nat) (d : Draft) (key : String) : Reader Draft := fun text =>
  match key with
  | "target" => do
    let (target, rest) ← readOnce key d.target (readOptional readString) text
    .ok ({ d with target }, rest)
  | "actions" => do
    let (actions, rest) ← readOnce key d.actions readSkipped text
    .ok ({ d with actions }, rest)
  | "cond" => do
    let (cond, rest) ← readOnce key d.cond readSkipped text
    .ok ({ d with cond }, rest)
  | key => do
    let text ← readColon text
    let (v, rest) ← readData depth text
    .ok ({ d with extra := d.extra.insert key v }, rest)

/-- A transition, data inside it nesting at most `depth` deep. -/
def read (depth : Nat) : Reader Transition := fun text =>
  match skipBlank text with
  | '\x7b' :: rest => do
    let (d, rest) ← readMembers readText (readMember depth) rest.length true {} rest
    .ok (d.transition, rest)
  | text => readUnexpected "struct TransitionRepr" text

end Transition

/-! ## States -/

namespace State

/-- The name of the kind of a state, of which only final states have one. -/
def kindOfName (name : String) : Except ReadError Unit :=
  if name = "final" then .ok () else .error (.mismatch (.unknownVariant name "final"))

/-- The kind of a state: its name, or an object with `null` under its name. -/
def readKind : Reader Unit := fun text =>
  match skipBlank text with
  | [] => .error .truncated
  | '"' :: rest => do
    let (name, rest) ← readText rest
    kindOfName name
    .ok ((), rest)
  | '\x7b' :: rest => do
    let (name, rest) ← readName rest
    kindOfName name
    let rest ← readColon rest
    let rest ←
      match skipBlank rest with
      | 'n' :: rest => readWord ['u', 'l', 'l'] rest
      | text => readUnexpected "unit" text
    match skipBlank rest with
    | [] => .error .truncated
    | '\x7d' :: rest => .ok ((), rest)
    | _ => .error .malformed
  | _ => .error .malformed

/-- What has been read of a state. -/
structure Draft where
  /-- The kind, which may be `null`. -/
  kind : Option (Option Unit) := none
  /-- The transitions, which may be `null`. -/
  on : Option (Option (SortedMap Transition)) := none

/-- The state of what has been read. -/
def Draft.state (d : Draft) : State := { final := d.kind.join.isSome, on := d.on.join }

/-- The transitions of a state by event, data inside them nesting at most `depth` deep. -/
def readOn (depth : Nat) : Reader (Option (SortedMap Transition)) :=
  readOptional (readMap (Transition.read depth))

/-- One member of a state. -/
def readMember (depth : Nat) (d : Draft) (key : String) : Reader Draft := fun text =>
  match key with
  | "type" => do
    let (kind, rest) ← readOnce key d.kind (readOptional readKind) text
    .ok ({ d with kind }, rest)
  | "on" => do
    let (on, rest) ← readOnce key d.on (readOn depth) text
    .ok ({ d with on }, rest)
  | _ => skipMember d text

/-- The items of a state that is written as an array: its kind and its transitions. -/
def readParts (depth : Nat) : Reader Draft := fun text => do
  match ← readNext ']' true text with
  | .closed rest => .ok ({}, rest)
  | .entry text =>
    let (kind, rest) ← readOptional readKind text
    match ← readNext ']' false rest with
    | .closed rest => .ok ({ kind := some kind }, rest)
    | .entry text =>
      let (on, rest) ← readOn depth text
      let rest ← readArrayEnd rest
      .ok ({ kind := some kind, on := some on }, rest)

/-- A state, data inside it nesting at most `depth` deep in a transition. -/
def read (depth : Nat) : Reader State := fun text =>
  match skipBlank text with
  | '[' :: rest => do
    let (d, rest) ← readParts depth rest
    .ok (d.state, rest)
  | '\x7b' :: rest => do
    let (d, rest) ← readMembers readText (readMember depth) rest.length true {} rest
    .ok (d.state, rest)
  | text => readUnexpected "struct StateNode" text

end State

/-! ## Charts -/

namespace Chart

/-- What has been read of a chart. -/
structure Draft where
  /-- The initial state. -/
  initial : Option String := none
  /-- The context, which may be `null`. -/
  context : Option (Option Json) := none
  /-- The states. -/
  states : Option (SortedMap State) := none

/-- The chart of what has been read, if its initial state is known. -/
def Draft.chart? (d : Draft) : Option Chart :=
  d.initial.map fun initial =>
    { initial, context := d.context.join, states := d.states.getD ∅ }

/-- The context inside a chart, whose own bracket counts. -/
def readContext : Reader (Option Json) := readOptional (readData (maxDepth - 1))

/-- The states of a chart. The brackets of the chart, its states, a state, its transitions and a
transition stand around the data of a transition. -/
def readStates : Reader (SortedMap State) := readMap (State.read (maxDepth - 5))

/-- One member of a chart. -/
def readMember (d : Draft) (key : String) : Reader Draft := fun text =>
  match key with
  | "initial" => do
    let (initial, rest) ← readOnce key d.initial readString text
    .ok ({ d with initial }, rest)
  | "context" => do
    let (context, rest) ← readOnce key d.context readContext text
    .ok ({ d with context }, rest)
  | "states" => do
    let (states, rest) ← readOnce key d.states readStates text
    .ok ({ d with states }, rest)
  | _ => skipMember d text

/-- The items of a chart that is written as an array: initial state, context and states. -/
def readParts : Reader Draft := fun text => do
  match ← readNext ']' true text with
  | .closed _ =>
    .error (.mismatch (.invalidLength 0 "struct Configuration with 3 elements"))
  | .entry text =>
    let (initial, rest) ← readString text
    match ← readNext ']' false rest with
    | .closed rest => .ok ({ initial := some initial }, rest)
    | .entry text =>
      let (context, rest) ← readContext text
      match ← readNext ']' false rest with
      | .closed rest => .ok ({ initial := some initial, context := some context }, rest)
      | .entry text =>
        let (states, rest) ← readStates text
        let rest ← readArrayEnd rest
        .ok ({ initial := some initial, context := some context, states := some states }, rest)

/-- A chart inside a text. -/
def readValue : Reader Chart := fun text => do
  let (d, rest) ←
    match skipBlank text with
    | '[' :: rest => readParts rest
    | '\x7b' :: rest => readMembers readText readMember rest.length true {} rest
    | text => readUnexpected "struct Configuration" text
  match d.chart? with
  | some c => .ok (c, rest)
  | none => .error (.mismatch (.missingField "initial"))

/-- The chart that a text holds, with nothing but blanks around it. -/
def read (text : String) : Except ReadError Chart := do
  let (c, rest) ← readValue text.toList
  readEnd rest
  .ok c

end Chart

end FlatChart
