import FlatChart.Proofs.Chart.Decoding
import FlatChart.Proofs.Json.Schema

/-!
# The schema of a chart

Which documents hold a chart, and the chart that each one holds, told from the document as a whole:
`Document.isChart` looks at the fields of charts, states and transitions, and `Document.chart` reads
off what stands under them. `Chart.read_text_eq_ok_iff` says that reading the text of a document
that is not too deep gives that chart when the document holds one, and fails otherwise.
-/

namespace FlatChart

namespace Document

/-! ## Which documents hold a chart -/

/-- The fields of a transition; everything else in it is data. -/
def transitionFields : List Field :=
  [⟨"target", orNull isText⟩, ⟨"actions", fun _ => true⟩, ⟨"cond", fun _ => true⟩]

/-- Whether the document is an object with the fields of a transition. -/
def isTransition : Document → Bool
  | .obj members => follows transitionFields members
  | _ => false

/-- Whether the document names the kind of final states. -/
def isFinal : Document → Bool
  | .str name => name = "final"
  | .obj [(name, .null)] => name = "final"
  | _ => false

/-- The fields of a state. -/
def stateFields : List Field :=
  [⟨"type", orNull isFinal⟩, ⟨"on", orNull (isObjectOf isTransition)⟩]

/-- Whether the document is an object or an array with the fields of a state. -/
def isState (d : Document) : Bool := (d.membersFor? stateFields).any (follows stateFields)

/-- The fields of a chart. -/
def chartFields : List Field :=
  [⟨"initial", isText⟩, ⟨"context", fun _ => true⟩, ⟨"states", isObjectOf isState⟩]

/-- Whether the document is an object or an array with the fields of a chart, of which `initial`
must be there. -/
def isChart (d : Document) : Bool :=
  (d.membersFor? chartFields).any fun members =>
    follows chartFields members && !(under "initial" members).isEmpty

/-! ## What they hold -/

/-- Whether the document is `null`. -/
def isNull : Document → Bool
  | .null => true
  | _ => false

/-- The transition that an object holds: its target, and all data under names that are not
reserved. -/
def transition : Document → Transition
  | .obj members =>
    { target := (member? "target" members).bind (unlessNull asText)
      extra := .ofList <|
        (members.filter fun m => m.1 ∉ Transition.reservedKeys).map fun m => (m.1, m.2.value) }
  | _ => {}

/-- The state that some members hold. -/
def stateOf (members : List (String × Document)) : State where
  final := (member? "type" members).any (!·.isNull)
  on := (member? "on" members).bind (unlessNull (entries transition))

/-- The state that a document holds. -/
def state (d : Document) : State := ((d.membersFor? stateFields).map stateOf).getD {}

/-- The chart that some members hold. -/
def chartOf (members : List (String × Document)) : Chart where
  initial := ((member? "initial" members).map asText).getD ""
  context := (member? "context" members).bind (unlessNull value)
  states := ((member? "states" members).map (entries state)).getD ∅

/-- The chart that a document holds. -/
def chart (d : Document) : Chart := ((d.membersFor? chartFields).map chartOf).getD {}

end Document

open Document

/-! ## Transitions -/

namespace Transition

/-- The names of the fields of a transition. -/
def isField (name : String) : Bool := ["target", "actions", "cond"].contains name

/-- What has been read of a transition after some of its members. -/
def draftOf (members : List (String × Document)) : Draft where
  target := (member? "target" members).map (unlessNull asText)
  actions := (member? "actions" members).map fun _ => ()
  cond := (member? "cond" members).map fun _ => ()
  extra := .ofList ((members.filter fun m => !isField m.1).map fun m => (m.1, m.2.value))

/-- What has been read of a transition is the transition that its members hold. -/
theorem transition_draftOf (members : List (String × Document)) :
    (draftOf members).transition = (obj members).transition := by
  -- Data under the name of a field is not read, and data under a reserved name is dropped.
  have hfield : ∀ name, (!isReserved name && !isField name) = decide (name ∉ reservedKeys) := by
    intro name
    rw [isReserved_eq_decide]
    by_cases hreserved : name ∈ reservedKeys
    · simp [hreserved]
    · have hnone : isField name = false := by
        simp only [reservedKeys, List.mem_cons, not_or] at hreserved
        simp [isField, hreserved]
      simp [hreserved, hnone]
  have htarget : (draftOf members).target.join =
      (member? "target" members).bind (unlessNull asText) := by
    unfold draftOf
    cases member? "target" members <;> rfl
  rw [Draft.transition, htarget, draftOf, SortedMap.filter_ofList, List.filter_map,
    List.filter_filter]
  simp only [Function.comp_apply, hfield]
  rfl

/-- A member of a transition is decoded when its field admits it. -/
theorem accepts_decodeMember {depth : ℕ} (before : List (String × Document))
    {m : String × Document} (hm : m.2.Legible depth) :
    Accepts (decodeMember depth (draftOf before) m) (∀ f ∈ transitionFields, f.Admits before m)
      (draftOf (before ++ [m])) := by
  obtain ⟨key, d⟩ := m
  have hskip : ∀ name,
      Accepts (once name ((member? name before).map fun _ => ()) (fun _ => .ok ()) d)
        (under name before = [] ∧ True) (some ()) := fun name =>
    accepts_once (.ok ()) name name before
  unfold decodeMember
  dsimp only
  split
  · have h := accepts_once (accepts_optional (accepts_string d)) "target" "target" before
    refine (h.map fun target => { draftOf before with target }).congr ?_ fun _ => ?_
    · simp [transitionFields, Field.Admits]
    · simp [draftOf, member?_concat_self, member?_concat_of_ne, isField]
  · refine ((hskip "actions").map fun actions => { draftOf before with actions }).congr
      ?_ fun _ => ?_
    · simp [transitionFields, Field.Admits]
    · simp [draftOf, member?_concat_self, member?_concat_of_ne, isField]
  · refine ((hskip "cond").map fun cond => { draftOf before with cond }).congr ?_ fun _ => ?_
    · simp [transitionFields, Field.Admits]
    · simp [draftOf, member?_concat_self, member?_concat_of_ne, isField]
  · next htarget hactions hcond =>
    have hne : key ≠ "target" ∧ key ≠ "actions" ∧ key ≠ "cond" := ⟨htarget, hactions, hcond⟩
    have h : Accepts (d.data depth) True d.value := Legible.accepts_data hm
    refine (h.map fun v =>
      { draftOf before with extra := (draftOf before).extra.insert key v }).congr ?_ fun _ => ?_
    · simp [transitionFields, Field.Admits, hne]
    · simp [draftOf, member?_concat_of_ne, isField, hne, SortedMap.ofList]

/-- A transition is decoded from a document that holds one. -/
theorem accepts_decode {depth : ℕ} {d : Document} (hd : d.Legible (depth + 1)) :
    Accepts (decode depth d) d.isTransition d.transition := by
  cases d with
  | obj members =>
    have hfold := accepts_fields members fun before m hm =>
      accepts_decodeMember before (hd.of_mem m hm)
    refine (hfold.map Draft.transition).congr ?_ fun _ => transition_draftOf members
    simp [isTransition]
  | _ => exact accepts_unexpected _ _ (by simp [isTransition]) _

end Transition

/-! ## States -/

namespace State

/-- The kind of final states is decoded from a document that names it. -/
theorem accepts_decodeKind (d : Document) : Accepts (decodeKind d) d.isFinal () := by
  have hname : ∀ name, Accepts (kindOfName name) (name = "final") () := by
    intro name
    unfold kindOfName
    split_ifs with h
    · exact (Accepts.ok ()).congr (iff_of_true trivial h) fun _ => rfl
    · exact Accepts.error _ h
  have hunit : ∀ d, Accepts (decodeUnit d) (d = .null) () := by
    intro d
    cases d with
    | null => exact (Accepts.ok ()).congr (iff_of_true trivial rfl) fun _ => rfl
    | _ => exact accepts_unexpected _ _ (by simp) _
  have hend : ∀ members : List (String × Document),
      Accepts (if members.isEmpty then .ok () else .error .malformed) (members = []) () := by
    intro members
    cases members with
    | nil => exact (Accepts.ok ()).congr (iff_of_true trivial rfl) fun _ => rfl
    | cons m rest => exact Accepts.error _ (by simp)
  unfold decodeKind
  split
  · next name => exact (hname name).congr (by simp [isFinal]) fun _ => rfl
  · next name d members =>
    have h := (hunit d).bind (f := fun _ => _) fun _ => hend members
    refine ((hname name).bind fun _ => h).congr ?_ fun _ => rfl
    cases members <;> cases d <;> simp [isFinal]
  · next hstr hobj =>
    refine Accepts.error _ ?_
    unfold isFinal
    split
    · next name => exact absurd rfl (hstr name)
    · next name => exact absurd rfl (hobj name .null [])
    · simp

/-- What has been read of a state after some of its members. -/
def draftOf (members : List (String × Document)) : Draft where
  kind := (member? "type" members).map (unlessNull fun _ => ())
  on := (member? "on" members).map (unlessNull (entries transition))

/-- Transitions are decoded from an object of them, or from `null`. -/
theorem accepts_decodeOn {depth : ℕ} {d : Document} (hd : d.Legible (depth + 2)) :
    Accepts (decodeOn depth d) (orNull (isObjectOf isTransition) d)
      (unlessNull (entries transition) d) := by
  refine accepts_optional (accepts_map fun members hmembers m hm => ?_)
  subst hmembers
  exact Transition.accepts_decode (hd.of_mem m hm)

/-- A member of a state is decoded when its field admits it. -/
theorem accepts_decodeMember {depth : ℕ} (before : List (String × Document))
    {m : String × Document} (hm : m.2.Legible (depth + 2)) :
    Accepts (decodeMember depth (draftOf before) m) (∀ f ∈ stateFields, f.Admits before m)
      (draftOf (before ++ [m])) := by
  obtain ⟨key, d⟩ := m
  unfold decodeMember
  dsimp only
  split
  · have h := accepts_once (accepts_optional (g := fun _ => ()) (accepts_decodeKind d))
      "type" "type" before
    refine (h.map fun kind => { draftOf before with kind }).congr ?_ fun _ => ?_
    · simp [stateFields, Field.Admits]
    · simp [draftOf, member?_concat_self, member?_concat_of_ne]
  · have h := accepts_once (accepts_decodeOn hm) "on" "on" before
    refine (h.map fun on => { draftOf before with on }).congr ?_ fun _ => ?_
    · simp [stateFields, Field.Admits]
    · simp [draftOf, member?_concat_self, member?_concat_of_ne]
  · next htype hon =>
    have hne : key ≠ "type" ∧ key ≠ "on" := ⟨htype, hon⟩
    refine (Accepts.ok (draftOf before)).congr ?_ fun _ => ?_
    · simp [stateFields, Field.Admits, hne]
    · simp [draftOf, member?_concat_of_ne, hne]

/-- What has been read of a state is the state that its members hold. -/
theorem state_draftOf (members : List (String × Document)) :
    (draftOf members).state = stateOf members := by
  have hkind : (draftOf members).kind.join.isSome = (member? "type" members).any (!·.isNull) := by
    unfold draftOf
    cases member? "type" members with
    | none => rfl
    | some d => cases d <;> rfl
  have hon : (draftOf members).on.join =
      (member? "on" members).bind (unlessNull (entries transition)) := by
    unfold draftOf
    cases member? "on" members <;> rfl
  rw [Draft.state, hkind, hon, stateOf]

/-- The items of a state are decoded as members of the names of its fields. -/
theorem decodeParts_eq {depth : ℕ} {items : List Document} (h : items.length ≤ 2) :
    decodeParts depth items = (["type", "on"].zip items).foldlM (decodeMember depth) {} := by
  match items with
  | [] => rfl
  | [kind] =>
    simp only [decodeParts, List.zip_cons_cons, List.foldlM_cons, decodeMember, once]
    cases Document.optional decodeKind kind <;> rfl
  | [kind, on] =>
    simp only [decodeParts, List.zip_cons_cons, List.foldlM_cons, decodeMember, once]
    cases Document.optional decodeKind kind with
    | error e => rfl
    | ok k => cases decodeOn depth on <;> rfl

/-- A state is decoded from a document that holds one. -/
theorem accepts_decode {depth : ℕ} {d : Document} (hd : d.Legible (depth + 3)) :
    Accepts (decode depth d) d.isState d.state := by
  refine hd.accepts_structure stateFields "struct StateNode"
    (fun items => decodeParts depth items >>= fun s => .ok s.state)
    (fun members => members.foldlM (decodeMember depth) {} >>= fun s => .ok s.state) {}
    (fun members hmembers => ?_) (fun items hlen p a h => ?_) fun items hlen a => ?_
  · have hfold := accepts_fields members fun before m hm =>
      accepts_decodeMember before (hmembers m hm)
    exact (hfold.map Draft.state).congr Iff.rfl fun _ => state_draftOf members
  · rw [decodeParts_eq hlen]
    exact h
  · rcases items with _ | ⟨kind, _ | ⟨on, _ | ⟨further, rest⟩⟩⟩
    iterate 3 exact absurd hlen (by simp [stateFields])
    have h : Accepts (decodeParts depth (kind :: on :: further :: rest)) False {} :=
      Accepts.bind_of_never fun _ => Accepts.bind_of_never fun _ => Accepts.error _ id
    exact h.never_bind _ _

end State

/-! ## Charts -/

namespace Chart

/-- What has been read of a chart after some of its members. -/
def draftOf (members : List (String × Document)) : Draft where
  initial := (member? "initial" members).map asText
  context := (member? "context" members).map (unlessNull value)
  states := (member? "states" members).map (entries state)

/-- A context is decoded from any document. -/
theorem accepts_decodeContext {d : Document} (hd : d.Legible (Reader.maxDepth - 1)) :
    Accepts (decodeContext d) True (unlessNull value d) := by
  have hdata : Accepts (d.data (Reader.maxDepth - 1)) (true = true) d.value :=
    hd.accepts_data.congr (by simp) fun _ => rfl
  have h := accepts_optional (p := fun _ => true) hdata
  exact h.congr (by cases d <;> simp [orNull]) fun _ => rfl

/-- States are decoded from an object of them. -/
theorem accepts_decodeStates {d : Document} (hd : d.Legible (Reader.maxDepth - 1)) :
    Accepts (decodeStates d) (isObjectOf isState d) (entries state d) := by
  refine accepts_map fun members hmembers m hm => ?_
  subst hmembers
  exact State.accepts_decode (hd.of_mem m hm)

/-- A member of a chart is decoded when its field admits it. -/
theorem accepts_decodeMember (before : List (String × Document)) {m : String × Document}
    (hm : m.2.Legible (Reader.maxDepth - 1)) :
    Accepts (decodeMember (draftOf before) m) (∀ f ∈ chartFields, f.Admits before m)
      (draftOf (before ++ [m])) := by
  obtain ⟨key, d⟩ := m
  unfold decodeMember
  dsimp only
  split
  · have h := accepts_once (accepts_string d) "initial" "initial" before
    refine (h.map fun initial => { draftOf before with initial }).congr ?_ fun _ => ?_
    · simp [chartFields, Field.Admits]
    · simp [draftOf, member?_concat_self, member?_concat_of_ne]
  · have h := accepts_once (accepts_decodeContext hm) "context" "context" before
    refine (h.map fun context => { draftOf before with context }).congr ?_ fun _ => ?_
    · simp [chartFields, Field.Admits]
    · simp [draftOf, member?_concat_self, member?_concat_of_ne]
  · have h := accepts_once (accepts_decodeStates hm) "states" "states" before
    refine (h.map fun states => { draftOf before with states }).congr ?_ fun _ => ?_
    · simp [chartFields, Field.Admits]
    · simp [draftOf, member?_concat_self, member?_concat_of_ne]
  · next hinitial hcontext hstates =>
    have hne : key ≠ "initial" ∧ key ≠ "context" ∧ key ≠ "states" := ⟨hinitial, hcontext, hstates⟩
    refine (Accepts.ok (draftOf before)).congr ?_ fun _ => ?_
    · simp [chartFields, Field.Admits, hne]
    · simp [draftOf, member?_concat_of_ne, hne]

/-- What has been read of a chart is complete when there was an initial state. -/
theorem accepts_complete (members : List (String × Document)) :
    Accepts (draftOf members).complete (under "initial" members ≠ []) (chartOf members) := by
  have hseen : (member? "initial" members).isSome = true ↔ under "initial" members ≠ [] := by
    simp [isSome_member?]
  have hcontext : (draftOf members).context.join =
      (member? "context" members).bind (unlessNull value) := by
    unfold draftOf
    cases member? "context" members <;> rfl
  rw [← hseen, Draft.complete, Draft.chart?, hcontext, chartOf, draftOf]
  cases member? "initial" members with
  | none => exact Accepts.error _ (by simp)
  | some d => exact (Accepts.ok _).congr (by simp) fun _ => rfl

/-- The items of a chart are decoded as members of the names of its fields. -/
theorem decodeParts_eq {items : List Document} (hpos : items ≠ []) (hle : items.length ≤ 3) :
    decodeParts items = (["initial", "context", "states"].zip items).foldlM decodeMember {} := by
  match items, hpos with
  | [initial], _ =>
    simp only [decodeParts, List.zip_cons_cons, List.foldlM_cons, decodeMember, once]
    cases initial.string <;> rfl
  | [initial, context], _ =>
    simp only [decodeParts, List.zip_cons_cons, List.foldlM_cons, decodeMember, once]
    cases initial.string with
    | error e => rfl
    | ok i => cases decodeContext context <;> rfl
  | [initial, context, states], _ =>
    simp only [decodeParts, List.zip_cons_cons, List.foldlM_cons, decodeMember, once]
    cases initial.string with
    | error e => rfl
    | ok i =>
      cases decodeContext context with
      | error e => rfl
      | ok c => cases decodeStates states <;> rfl

/-- A chart is decoded from a document that holds one. -/
theorem accepts_decode {d : Document} (hd : d.Legible Reader.maxDepth) :
    Accepts (decode d) d.isChart d.chart := by
  refine hd.accepts_structure chartFields "struct Configuration"
    (fun items => decodeParts items >>= Draft.complete)
    (fun members => members.foldlM decodeMember {} >>= Draft.complete) {}
    (fun members hmembers => ?_) (fun items hlen p a h => ?_) fun items hlen a => ?_
  · have hfold := accepts_fields members fun before m hm =>
      accepts_decodeMember before (hmembers m hm)
    exact (hfold.bind fun _ => accepts_complete members).congr (by simp) fun _ => rfl
  · by_cases hnil : items = []
    · -- Without items the initial state is missing, with another error than in an object.
      subst hnil
      intro x
      rw [← h x]
      simp [decodeParts, Draft.complete, Draft.chart?]
    · rw [decodeParts_eq hnil hlen]
      exact h
  · rcases items with _ | ⟨initial, _ | ⟨context, _ | ⟨states, _ | ⟨further, rest⟩⟩⟩⟩
    iterate 4 exact absurd hlen (by simp [chartFields])
    have h : Accepts (decodeParts (initial :: context :: states :: further :: rest)) False {} :=
      Accepts.bind_of_never fun _ => Accepts.bind_of_never fun _ =>
        Accepts.bind_of_never fun _ => Accepts.error _ id
    exact h.never_bind _ _

/-- Reading the text of a document that is not too deep gives the chart that the document holds, and
fails when it holds none. A document whose numbers are all integers has no floats to read back. -/
theorem read_text_eq_ok_iff {d : Document} (hnesting : d.nesting ≤ Reader.maxDepth)
    (hfloats : ∀ x ∈ d.floats, x.ReadsBack) (c : Chart) :
    Chart.read d.text = .ok c ↔ d.isChart ∧ c = d.chart := by
  rw [read_text]
  exact accepts_decode ⟨hnesting, hfloats⟩ c

/-- A chart written as an array, with a final state written as an array, a transition that is
declared twice, and data that stands twice in it. -/
def positional : Document :=
  .arr [.str "lit", .null, .obj [
    ("off", .arr [.obj [("final", .null)]]),
    ("lit", .obj [("entry", .arr []), ("on", .obj [
      ("FADE", .obj [("target", .null)]),
      ("FADE", .obj [("delay", .null), ("event", .bool true), ("target", .str "off"),
        ("actions", .str "log"), ("delay", .num (.integer 5 (by decide)))])])])]]

/-- A chart with a transition that has actions twice. -/
def ambiguous : Document :=
  .obj [("initial", .str ""), ("states", .obj [("lit", .obj [("on", .obj [
    ("FADE", .obj [("actions", .arr []), ("actions", .arr [])])])])])]

/-- The text of the first document is read as the chart that it holds. That of the second one is
read as no chart. -/
theorem read_text_positional_ambiguous :
    (positional.nesting ≤ Reader.maxDepth ∧ positional.floats = [] ∧
      read positional.text = .ok positional.chart) ∧
    ambiguous.nesting ≤ Reader.maxDepth ∧ ambiguous.floats = [] ∧
      ∀ c, read ambiguous.text ≠ .ok c := by
  have hpositional : positional.nesting ≤ Reader.maxDepth ∧ positional.floats = [] := by decide
  have hambiguous : ambiguous.nesting ≤ Reader.maxDepth ∧ ambiguous.floats = [] := by decide
  have hread := read_text_eq_ok_iff hpositional.1 (by simp [hpositional.2]) positional.chart
  have hrefused := read_text_eq_ok_iff hambiguous.1 (by simp [hambiguous.2])
  have hchart : positional.isChart = true ∧ ambiguous.isChart = false := by decide
  refine ⟨⟨hpositional.1, hpositional.2, hread.2 ⟨hchart.1, rfl⟩⟩, hambiguous.1, hambiguous.2,
    fun c hc => ?_⟩
  have h := ((hrefused c).1 hc).1
  simp [hchart.2] at h

end Chart

end FlatChart
