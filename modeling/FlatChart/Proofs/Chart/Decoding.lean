import FlatChart.Chart.Reading
import FlatChart.Proofs.Json.Decoding

/-!
# Reading a chart is decoding its document

The decoders of transitions, states and charts, for documents of any shape: objects with any members
in any order, arrays, and everything that is refused. `Chart.read_text` says that reading the
compact text of a document gives just what decoding the document gives, with the same error where it
fails.
-/

namespace FlatChart

open Reader

namespace Transition

/-- One member of a transition. -/
def decodeMember (depth : ℕ) (d : Draft) (m : String × Document) : Except ReadError Draft :=
  match m.1 with
  | "target" => do
    let target ← Document.once m.1 d.target (Document.optional Document.string) m.2
    .ok { d with target }
  | "actions" => do
    let actions ← Document.once m.1 d.actions (fun _ => .ok ()) m.2
    .ok { d with actions }
  | "cond" => do
    let cond ← Document.once m.1 d.cond (fun _ => .ok ()) m.2
    .ok { d with cond }
  | key => do
    let v ← m.2.data depth
    .ok { d with extra := d.extra.insert key v }

/-- The transition that a document holds. -/
def decode (depth : ℕ) : Document → Except ReadError Transition
  | .obj members => do
    let d ← members.foldlM (decodeMember depth) {}
    .ok d.transition
  | d => d.unexpected "struct TransitionRepr"

/-- A member of a transition is read as it is decoded. -/
theorem readMember_compact (depth : ℕ) (s : Draft) (k : String) (d : Document) (rest : List Char)
    (hr : Ends rest) :
    readMember depth s k (':' :: (d.compact ++ rest)) =
      leaving rest (decodeMember depth s (k, d)) := by
  have htarget := readOnce_compact (decodes_readOptional decodes_readString) k s.target d hr
  have hactions := readOnce_compact decodes_readSkipped k s.actions d hr
  have hcond := readOnce_compact decodes_readSkipped k s.cond d hr
  have hdata := decodes_readData depth d rest hr
  unfold readMember decodeMember
  dsimp only
  split
  · simp only [htarget]
    exact leaving_bind rest _ _ _ fun _ => rfl
  · simp only [hactions]
    exact leaving_bind rest _ _ _ fun _ => rfl
  · simp only [hcond]
    exact leaving_bind rest _ _ _ fun _ => rfl
  · simp only [readColon_colon, ok_bind, hdata]
    exact leaving_bind rest _ _ _ fun _ => rfl

/-- Reading a transition is decoding it. -/
theorem decodes_read (depth : ℕ) : Decodes (read depth) (decode depth) := by
  refine decodes_object "struct TransitionRepr" fun members rest => ?_
  rw [readMembers_object _ _ (readMember_compact depth) members {} rest]
  exact leaving_bind rest _ _ _ fun _ => rfl

end Transition

namespace State

/-- The `null` that stands under the name of a kind. -/
def decodeUnit : Document → Except ReadError Unit
  | .null => .ok ()
  | d => d.unexpected "unit"

/-- The kind that a document names: a name, or an object with `null` under it. -/
def decodeKind : Document → Except ReadError Unit
  | .str name => kindOfName name
  | .obj ((name, d) :: members) => do
    kindOfName name
    decodeUnit d
    if members.isEmpty then .ok () else .error .malformed
  | _ => .error .malformed

/-- The transitions that a document holds. -/
def decodeOn (depth : ℕ) : Document → Except ReadError (Option (SortedMap Transition)) :=
  Document.optional (Document.map (Transition.decode depth))

/-- One member of a state. -/
def decodeMember (depth : ℕ) (d : Draft) (m : String × Document) : Except ReadError Draft :=
  match m.1 with
  | "type" => do
    let kind ← Document.once m.1 d.kind (Document.optional decodeKind) m.2
    .ok { d with kind }
  | "on" => do
    let on ← Document.once m.1 d.on (decodeOn depth) m.2
    .ok { d with on }
  | _ => .ok d

/-- The items of a state that is written as an array. -/
def decodeParts (depth : ℕ) : List Document → Except ReadError Draft
  | [] => .ok {}
  | [kind] => do
    let kind ← Document.optional decodeKind kind
    .ok { kind := some kind }
  | kind :: on :: further => do
    let kind ← Document.optional decodeKind kind
    let on ← decodeOn depth on
    if further.isEmpty then .ok { kind := some kind, on := some on } else .error .malformed

/-- The state that a document holds. -/
def decode (depth : ℕ) : Document → Except ReadError State
  | .arr items => do
    let d ← decodeParts depth items
    .ok d.state
  | .obj members => do
    let d ← members.foldlM (decodeMember depth) {}
    .ok d.state
  | d => d.unexpected "struct StateNode"

/-- Reading a kind is decoding it. -/
theorem decodes_readKind : Decodes readKind decodeKind := by
  intro d rest hr
  rw [readKind, skipBlank_compact]
  cases d with
  | null => rfl
  | bool b => cases b <;> rfl
  | num n =>
    obtain ⟨c, cs, hcs, hc⟩ := exists_cons_chars n.literal_wellFormed
    simp [Document.compact, hcs, digit_or_minus_ne hc, decodeKind]
  | str s =>
    simp only [Document.compact, quote_eq, List.cons_append, readText_quoted, ok_bind, decodeKind]
    cases kindOfName s <;> rfl
  | arr items => rfl
  | obj members =>
    cases members with
    | nil => rfl
    | cons m members =>
      obtain ⟨name, d⟩ := m
      have htext : (Document.obj ((name, d) :: members)).compact ++ rest =
          '\x7b' :: (quote name ++ ':' ::
            (d.compact ++ (further Document.compactMember members ++ '\x7d' :: rest))) := by
        simp [Document.compact, Document.compactMembers_eq_joined, joined, Document.compactMember]
      -- The name decides first, then what stands under it, and last whether more members follow.
      simp only [htext, readName_quote, ok_bind, readColon_colon, skipBlank_compact, decodeKind]
      cases kindOfName name with
      | error e => rfl
      | ok u =>
        simp only [ok_bind]
        by_cases hd : d = .null
        · subst hd
          cases members <;> rfl
        · obtain ⟨c, cs, hcs, hnull, -, -, -⟩ := opening d
          have hc : c ≠ 'n' := fun h => hd (hnull h)
          have hu := readUnexpected_compact (α := List Char) "unit" d
            (ends_further Document.compactMember isClose_brace members rest)
          have hunit : decodeUnit d = d.unexpected "unit" := by
            cases d with
            | null => exact absurd rfl hd
            | _ => rfl
          rw [hunit, unexpected_bind, leaving_unexpected]
          rw [hcs, List.cons_append] at hu ⊢
          simp [hc, hu, unexpected_bind]

/-- Reading transitions is decoding them. -/
theorem decodes_readOn (depth : ℕ) : Decodes (readOn depth) (decodeOn depth) :=
  decodes_readOptional (decodes_readMap (Transition.decodes_read depth))

/-- A member of a state is read as it is decoded. -/
theorem readMember_compact (depth : ℕ) (s : Draft) (k : String) (d : Document) (rest : List Char)
    (hr : Ends rest) :
    readMember depth s k (':' :: (d.compact ++ rest)) =
      leaving rest (decodeMember depth s (k, d)) := by
  have hkind := readOnce_compact (decodes_readOptional decodes_readKind) k s.kind d hr
  have hon := readOnce_compact (decodes_readOn depth) k s.on d hr
  unfold readMember decodeMember
  dsimp only
  split
  · simp only [hkind]
    exact leaving_bind rest _ _ _ fun _ => rfl
  · simp only [hon]
    exact leaving_bind rest _ _ _ fun _ => rfl
  · simp only [skipMember_compact s d hr]

/-- The items of a state are read as they are decoded. -/
theorem readParts_compact (depth : ℕ) (items : List Document) (rest : List Char) :
    readParts depth (Document.compactItems items ++ ']' :: rest) =
      leaving rest (decodeParts depth items) := by
  rw [readParts, Document.compactItems_eq_joined, readNext_joined leads_compact isClose_bracket]
  cases items with
  | nil => rfl
  | cons kind items =>
    simp only [ok_bind]
    rw [decodes_readOptional decodes_readKind kind _ (ends_further _ isClose_bracket items rest)]
    cases items with
    | nil =>
      simp only [decodeParts]
      cases Document.optional decodeKind kind with
      | error e => rfl
      | ok k => rfl
    | cons on items =>
      simp only [decodeParts]
      cases Document.optional decodeKind kind with
      | error e => rfl
      | ok k =>
        simp only [leaving_ok, ok_bind, readNext_further leads_compact isClose_bracket]
        rw [decodes_readOn depth on _ (ends_further _ isClose_bracket items rest)]
        cases decodeOn depth on with
        | error e => rfl
        | ok o => cases items <;> rfl

/-- Reading a state is decoding it. -/
theorem decodes_read (depth : ℕ) : Decodes (read depth) (decode depth) := by
  refine decodes_structure _ _ _ _ "struct StateNode" (fun items rest => ?_) fun members rest => ?_
  · rw [readParts_compact]
    exact leaving_bind rest _ _ _ fun _ => rfl
  · rw [readMembers_object _ _ (readMember_compact depth) members {} rest]
    exact leaving_bind rest _ _ _ fun _ => rfl

end State

namespace Chart

/-- The context that a document holds. -/
def decodeContext : Document → Except ReadError (Option Json) :=
  Document.optional (Document.data (maxDepth - 1))

/-- The states that a document holds. -/
def decodeStates : Document → Except ReadError (SortedMap State) :=
  Document.map (State.decode (maxDepth - 5))

/-- One member of a chart. -/
def decodeMember (d : Draft) (m : String × Document) : Except ReadError Draft :=
  match m.1 with
  | "initial" => do
    let initial ← Document.once m.1 d.initial Document.string m.2
    .ok { d with initial }
  | "context" => do
    let context ← Document.once m.1 d.context decodeContext m.2
    .ok { d with context }
  | "states" => do
    let states ← Document.once m.1 d.states decodeStates m.2
    .ok { d with states }
  | _ => .ok d

/-- The items of a chart that is written as an array. -/
def decodeParts : List Document → Except ReadError Draft
  | [] => .error (.mismatch (.invalidLength 0 "struct Configuration with 3 elements"))
  | [initial] => do
    let initial ← initial.string
    .ok { initial := some initial }
  | [initial, context] => do
    let initial ← initial.string
    let context ← decodeContext context
    .ok { initial := some initial, context := some context }
  | initial :: context :: states :: further => do
    let initial ← initial.string
    let context ← decodeContext context
    let states ← decodeStates states
    if further.isEmpty then
      .ok { initial := some initial, context := some context, states := some states }
    else .error .malformed

/-- The chart of what has been read, which needs an initial state. -/
def Draft.complete (d : Draft) : Except ReadError Chart :=
  match d.chart? with
  | some c => .ok c
  | none => .error (.mismatch (.missingField "initial"))

/-- The chart that a document holds. -/
def decode : Document → Except ReadError Chart
  | .arr items => do
    let d ← decodeParts items
    d.complete
  | .obj members => do
    let d ← members.foldlM decodeMember {}
    d.complete
  | d => d.unexpected "struct Configuration"

/-- Reading a context is decoding it. -/
theorem decodes_readContext : Decodes readContext decodeContext :=
  decodes_readOptional (decodes_readData _)

/-- Reading states is decoding them. -/
theorem decodes_readStates : Decodes readStates decodeStates :=
  decodes_readMap (State.decodes_read _)

/-- A member of a chart is read as it is decoded. -/
theorem readMember_compact (s : Draft) (k : String) (d : Document) (rest : List Char)
    (hr : Ends rest) :
    readMember s k (':' :: (d.compact ++ rest)) = leaving rest (decodeMember s (k, d)) := by
  have hinitial := readOnce_compact decodes_readString k s.initial d hr
  have hcontext := readOnce_compact decodes_readContext k s.context d hr
  have hstates := readOnce_compact decodes_readStates k s.states d hr
  unfold readMember decodeMember
  dsimp only
  split
  · simp only [hinitial]
    exact leaving_bind rest _ _ _ fun _ => rfl
  · simp only [hcontext]
    exact leaving_bind rest _ _ _ fun _ => rfl
  · simp only [hstates]
    exact leaving_bind rest _ _ _ fun _ => rfl
  · simp only [skipMember_compact s d hr]

/-- The items of a chart are read as they are decoded. -/
theorem readParts_compact (items : List Document) (rest : List Char) :
    readParts (Document.compactItems items ++ ']' :: rest) = leaving rest (decodeParts items) := by
  rw [readParts, Document.compactItems_eq_joined, readNext_joined leads_compact isClose_bracket]
  -- One case for each place where the array may end; a fourth item is refused at its comma.
  match items with
  | [] => rfl
  | [initial] =>
    simp only [ok_bind, decodes_readString initial _ (ends_further _ isClose_bracket [] rest),
      decodeParts]
    cases initial.string <;> rfl
  | [initial, context] =>
    simp only [ok_bind, decodeParts,
      decodes_readString initial _ (ends_further _ isClose_bracket [context] rest)]
    cases initial.string with
    | error e => rfl
    | ok i =>
      simp only [leaving_ok, ok_bind, readNext_further leads_compact isClose_bracket,
        decodes_readContext context _ (ends_further _ isClose_bracket [] rest)]
      cases decodeContext context <;> rfl
  | initial :: context :: states :: further =>
    simp only [ok_bind, decodes_readString initial _ (ends_further _ isClose_bracket _ rest),
      decodeParts]
    cases initial.string with
    | error e => rfl
    | ok i =>
      simp only [leaving_ok, ok_bind, readNext_further leads_compact isClose_bracket,
        decodes_readContext context _ (ends_further _ isClose_bracket _ rest)]
      cases decodeContext context with
      | error e => rfl
      | ok c =>
        simp only [leaving_ok, ok_bind, readNext_further leads_compact isClose_bracket,
          decodes_readStates states _ (ends_further _ isClose_bracket further rest)]
        cases decodeStates states with
        | error e => rfl
        | ok m => cases further <;> rfl

/-- What follows the data of a chart when it is read. -/
def completed (p : Draft × List Char) : Except ReadError (Chart × List Char) :=
  match p.1.chart? with
  | some c => .ok (c, p.2)
  | none => .error (.mismatch (.missingField "initial"))

/-- Completing what was read is completing what was decoded. -/
theorem leaving_completed (rest : List Char) (r : Except ReadError Draft) :
    (leaving rest r >>= completed) = leaving rest (r >>= Draft.complete) := by
  refine leaving_bind rest r _ _ fun d => ?_
  unfold completed Draft.complete
  cases d.chart? <;> rfl

/-- What is read of a chart is completed, whether it is an array or an object. -/
theorem readValue_eq (text : List Char) :
    readValue text =
      match skipBlank text with
      | '[' :: rest => readParts rest >>= completed
      | '\x7b' :: rest => readMembers readText readMember rest.length true {} rest >>= completed
      | text => readUnexpected "struct Configuration" text := by
  unfold readValue
  generalize skipBlank text = t
  split
  · rfl
  · rfl
  · simp only [readUnexpected]
    cases readFound t <;> rfl

/-- Reading a chart is decoding it. -/
theorem decodes_readValue : Decodes readValue decode := by
  rw [show readValue = _ from funext readValue_eq]
  refine decodes_structure _ _ _ _ "struct Configuration" (fun items rest => ?_)
    fun members rest => ?_
  · rw [readParts_compact, leaving_completed]
  · rw [readMembers_object _ _ readMember_compact members {} rest, leaving_completed]

/-- Reading the compact text of a document is decoding the document. -/
theorem read_text (d : Document) : Chart.read d.text = decode d := by
  have h := decodes_readValue d [] ends_nil
  rw [List.append_nil] at h
  rw [Chart.read, Document.text, String.toList_ofList, h]
  cases decode d <;> rfl

end Chart

end FlatChart
