import FlatChart.Proofs.Chart.Decoding
import FlatChart.Proofs.Json.Acceptance

/-!
# Reading a written chart

What is written of a chart is read back as its data (`Chart.strip`), just when the data nests no
deeper than a reader allows. The argument goes from the inside out: a transition, a state, a chart.
Each is decoded member by member, and only the members that hold data can be refused.
-/

namespace FlatChart

namespace Transition

/-- A member under a name that is not reserved is data. -/
theorem decodeMember_free (depth : ℕ) (s : Draft) {key : String} (hkey : isReserved key = false)
    (d : Document) :
    decodeMember depth s (key, d) =
      (d.data depth >>= fun v => .ok { s with extra := s.extra.insert key v }) := by
  unfold decodeMember
  dsimp only
  split
  · exact absurd hkey (by decide)
  · exact absurd hkey (by decide)
  · exact absurd hkey (by decide)
  · rfl

/-- The members of a transition that are not data leave its target and no data. -/
theorem exists_foldlM_decodeMember (depth : ℕ) (t : Transition) :
    ∃ s : Draft, s.target.join = t.target ∧ s.extra = ∅ ∧
      (memberOf? "target" (t.target.map .str) ++
        memberOfList "actions" (t.actions.map Action.document) ++
        memberOf? "cond" (t.cond.map fun g => .str g.label)).foldlM (decodeMember depth) {} =
          .ok s := by
  obtain ⟨target, actions, cond, extra⟩ := t
  cases target <;> cases actions <;> cases cond <;> exact ⟨_, rfl, rfl, rfl⟩

/-- Data under unreserved names is put among the data that was read before. -/
theorem yields_extra (depth : ℕ) (s : Draft) (m : SortedMap Json)
    (hfree : ∀ e ∈ m.toList, isReserved e.1 = false) (hm : ∀ e ∈ m.toList, e.2.Rereads) :
    Yields ((m.members Json.document).foldlM (decodeMember depth) s)
      (∀ e ∈ m.toList, e.2.nesting ≤ depth) { s with extra := s.extra.merge m } := by
  -- Collecting data touches no other field of the draft.
  have hfold : ∀ (entries : List (String × Json)) (s : Draft),
      entries.foldl (fun s e => { s with extra := s.extra.insert e.1 e.2 }) s =
        { s with extra := entries.foldl (fun m e => m.insert e.1 e.2) s.extra } := by
    intro entries
    induction entries with
    | nil => exact fun _ => rfl
    | cons e rest ih => exact fun s => ih _
  rw [SortedMap.members, List.foldlM_map, SortedMap.merge, ← hfold]
  apply yields_foldlM
  intro s e he
  rw [decodeMember_free depth s (hfree e he)]
  exact (Document.yields_data depth e.2 (hm e he)).map fun v =>
    { s with extra := s.extra.insert e.1 v }

/-- A written transition is read as its target and its unreserved data. -/
theorem yields_decode (depth : ℕ) (t : Transition) (ht : t.EveryDatum Json.Rereads) :
    Yields (decode depth t.document) (t.EveryDatum (·.nesting ≤ depth)) t.strip := by
  obtain ⟨s, htarget, hextra, hs⟩ := exists_foldlM_decodeMember depth t
  have hfree : ∀ e ∈ t.freeExtra.toList, isReserved e.1 = false := by
    intro e he
    rw [freeExtra, SortedMap.toList_filter, List.mem_filter] at he
    simpa using he.2
  have hdata := yields_extra depth s t.freeExtra hfree (t.everyDatum_iff.1 ht)
  have hempty : (∅ : SortedMap Json).merge t.freeExtra = t.freeExtra := SortedMap.ofList_toList _
  have htransition : Draft.transition { s with extra := s.extra.merge t.freeExtra } = t.strip := by
    have h := t.freeExtra_strip
    rw [strip_eq] at h ⊢
    rw [Draft.transition, htarget, hextra, hempty]
    exact congrArg (Transition.mk t.target [] none) h
  have h := hdata.map Draft.transition
  rw [htransition] at h
  rw [document, decode, List.foldlM_append, hs]
  exact h.congr (t.everyDatum_iff (p := (·.nesting ≤ depth))).symm

end Transition

namespace State

/-- The kind of a written state is read back. -/
theorem exists_foldlM_decodeMember (depth : ℕ) (final : Bool) :
    ∃ d : Draft, d.kind.join.isSome = final ∧ d.on = none ∧
      (memberOf? "type" (if final then some (.str "final") else none)).foldlM
        (decodeMember depth) {} = .ok d := by
  cases final <;> exact ⟨_, rfl, rfl, rfl⟩

/-- Hooks and the invoke block are passed over. -/
theorem foldlM_decodeMember_rest (depth : ℕ) (d : Draft) (entry exit : List Document)
    (invoke : Option Document) :
    (memberOfList "entry" entry ++ (memberOfList "exit" exit ++
      memberOf? "invoke" invoke)).foldlM (decodeMember depth) d = .ok d := by
  cases entry <;> cases exit <;> cases invoke <;> rfl

/-- Written transitions are read as the data of each one. -/
theorem yields_decodeOn (depth : ℕ) (d : Draft) (hd : d.on = none)
    (on : Option (SortedMap Transition))
    (hon : ∀ m, on = some m → ∀ e ∈ m.toList, e.2.EveryDatum Json.Rereads) :
    ∃ d' : Draft, d'.kind = d.kind ∧ d'.on.join = on.map (·.map Transition.strip) ∧
      Yields ((memberOf? "on" (on.map fun on => .obj (on.members Transition.document))).foldlM
          (decodeMember depth) d)
        (∀ m, on = some m → ∀ e ∈ m.toList, e.2.EveryDatum (·.nesting ≤ depth)) d' := by
  cases on with
  | none => exact ⟨d, rfl, by rw [hd]; rfl, (Yields.of_eq rfl).congr (by simp)⟩
  | some on =>
    have hmap := Document.yields_map on fun e he =>
      Transition.yields_decode depth e.2 (hon on rfl e he)
    have h := ((hmap.map some).map some).map fun on => ({ d with on } : Draft)
    refine ⟨{ d with on := some (some (on.map Transition.strip)) }, rfl, rfl, ?_⟩
    obtain ⟨kind, _⟩ := d
    subst hd
    exact h.foldlM_singleton.congr (by simp)

/-- A written state is read as its kind and the data of its transitions. -/
theorem yields_decode (depth : ℕ) (s : State) (hs : s.EveryDatum Json.Rereads) :
    Yields (decode depth s.document) (s.EveryDatum (·.nesting ≤ depth)) s.strip := by
  rw [everyDatum_iff] at hs
  -- The kind is written first, then the transitions, and what follows them is passed over.
  obtain ⟨d, hkind, hnone, hd⟩ := exists_foldlM_decodeMember depth s.final
  obtain ⟨d', hkind', hon, hd'⟩ := yields_decodeOn depth d hnone s.on hs
  have hstate : d'.state = s.strip := by
    rw [Draft.state, hkind', hkind, hon]
    rfl
  have h := (hd'.map id).map Draft.state
  rw [id_eq, hstate] at h
  rw [document, decode]
  simp only [List.append_assoc]
  rw [List.foldlM_append, hd, Reader.ok_bind, List.foldlM_append]
  simp only [foldlM_decodeMember_rest]
  exact h.congr (s.everyDatum_iff (p := (·.nesting ≤ depth))).symm

end State

namespace Chart

/-- A written context is read back, where `null` counts as absent. -/
theorem yields_decodeMember_context (d : Draft) (hd : d.context = none) (context : Option Json)
    (hcontext : ∀ v, context = some v → v.Rereads) :
    ∃ d' : Draft, d'.initial = d.initial ∧ d'.states = d.states ∧
      d'.context.join = context.filter (fun v => !v.isNull) ∧
      Yields ((memberOf? "context" (context.map Json.document)).foldlM decodeMember d)
        (∀ v, context = some v → v.nesting ≤ 126) d' := by
  cases context with
  | none => exact ⟨d, rfl, rfl, by rw [hd]; rfl, (Yields.of_eq rfl).congr (by simp)⟩
  | some v =>
    have hdata := Document.yields_optional_data 126 v (hcontext v rfl)
    have h := (hdata.map some).map fun context => ({ d with context } : Draft)
    refine ⟨{ d with context := some ((some v).filter fun v => !v.isNull) }, rfl, rfl, rfl, ?_⟩
    obtain ⟨initial, _, states⟩ := d
    subst hd
    exact h.foldlM_singleton.congr (by simp)

/-- Written states are read as the data of each one. -/
theorem yields_decodeStates (states : SortedMap State)
    (h : ∀ e ∈ states.toList, e.2.EveryDatum Json.Rereads) :
    Yields (decodeStates (.obj (states.members State.document)))
      (∀ e ∈ states.toList, e.2.EveryDatum (·.nesting ≤ 122)) (states.map State.strip) :=
  Document.yields_map states fun e he => State.yields_decode 122 e.2 (h e he)

/-- A written chart is decoded as its data. -/
theorem yields_decode (c : Chart) (hc : c.Rereads) : Yields (decode c.document) c.Fits c.strip := by
  obtain ⟨hcontext, hstates⟩ := c.everyDatum_iff.1 hc
  -- The initial state is read first and cannot fail, then the context, then the states.
  have hfirst : [("initial", .str c.initial)].foldlM decodeMember {} =
      .ok { initial := some c.initial } := rfl
  obtain ⟨d, hinit, hnone, hjoin, hd⟩ :=
    yields_decodeMember_context { initial := some c.initial } rfl c.context hcontext
  have hlast : Yields (decodeMember d ("states", .obj (c.states.members State.document)))
      (∀ e ∈ c.states.toList, e.2.EveryDatum (·.nesting ≤ 122))
      { d with states := some (c.states.map State.strip) } := by
    have h := ((yields_decodeStates c.states hstates).map some).map
      fun states => ({ d with states } : Draft)
    obtain ⟨initial, context, _⟩ := d
    subst hnone
    exact h
  have hchart : Draft.complete { d with states := some (c.states.map State.strip) } =
      .ok c.strip := by
    simp only [Draft.complete, Draft.chart?, hinit, hjoin]
    rfl
  have hmembers := hd.bind
    (f := fun d => [("states", .obj (c.states.members State.document))].foldlM decodeMember d)
    hlast.foldlM_singleton
  have h := hmembers.bind (f := Draft.complete) (Yields.of_eq hchart)
  rw [document, decode, List.append_assoc, List.foldlM_append, hfirst, Reader.ok_bind,
    List.foldlM_append]
  have hfits : c.Fits ↔ _ := c.everyDatum_iff
  exact h.congr ((and_iff_left trivial).trans hfits.symm)

/-- The text of a chart is read as its data, or is malformed where the data nests too deep. -/
theorem yields_read (c : Chart) (hc : c.Rereads) : Yields (read c.text) c.Fits c.strip := by
  have h : read c.text = decode c.document := read_text c.document
  rw [h]
  exact c.yields_decode hc

/-- The text of a chart whose floats read back is read as its data when the data fits, and is
malformed otherwise. Charts with the same data are read alike, whatever functions and invoke blocks
they have. -/
theorem read_text_of_rereads (c : Chart) (hc : c.Rereads) :
    (c.Fits → read c.text = .ok c.strip) ∧
    (¬c.Fits → read c.text = .error .malformed) ∧
    ∀ d : Chart, d.strip = c.strip → read d.text = read c.text := by
  have hread := c.yields_read hc
  refine ⟨hread.ok, hread.malformed, fun d hstrip => ?_⟩
  -- Whether floats read back and whether data fits is decided by the data, which both charts share.
  have hd : d.Rereads := by
    rw [← rereads_strip, hstrip, rereads_strip]
    exact hc
  have hfits : d.Fits ↔ c.Fits := by
    rw [← fits_strip, hstrip, fits_strip]
  have hread' := d.yields_read hd
  by_cases h : c.Fits
  · rw [hread.ok h, hread'.ok (hfits.2 h), hstrip]
  · rw [hread.malformed h, hread'.malformed fun h' => h (hfits.1 h')]

/-- A chart with a context of `null`, and with a transition that has a guard and data under a free
and under a reserved name. -/
def decorated : Chart where
  initial := "off"
  context := some .null
  states := .ofSorted [("off", {
    on := some <| .ofSorted [("PRESS", {
      target := some "on"
      cond := some ⟨0, some "ready", fun _ => true⟩
      extra := .ofSorted
        [("cond", .bool true), ("rate", .num (.float ⟨false, 0x18000000000000, 1022, by decide⟩))]
        (by decide) })] (by decide)
    entry := [⟨1, none⟩]
    invoke := some { src := ⟨2, none, .ok⟩, onDone := some {} } })] (by decide)

/-- A chart whose context is `null` inside 127 brackets. -/
def deep : Chart := { context := some (Nat.repeat (fun v => .arr [v]) 127 .null) }

/-- The decorated chart is read back as its data, with neither its functions nor its context. The
deep one is refused. -/
theorem read_text_decorated_deep :
    (decorated.Rereads ∧ decorated.Fits ∧ read decorated.text = .ok decorated.strip) ∧
    deep.Rereads ∧ ¬deep.Fits ∧ read deep.text = .error .malformed := by
  have hdecorated : decorated.Rereads := by
    refine decorated.everyDatum_iff.2 ⟨?_, ?_⟩
    · simp [decorated, Json.Rereads, Json.floats, Json.document, Document.floats]
    · simp [decorated, State.everyDatum_iff, Transition.everyDatum_iff, Transition.freeExtra]
      rintro _ _ (⟨rfl, rfl⟩ | ⟨rfl, rfl⟩) _ <;> decide +kernel
  have hfits : decorated.Fits := by
    refine decorated.everyDatum_iff.2 ⟨?_, ?_⟩
    · simp [decorated, Json.nesting, Json.document, Document.nesting]
    · simp [decorated, State.everyDatum_iff, Transition.everyDatum_iff, Transition.freeExtra]
      rintro _ _ (⟨rfl, rfl⟩ | ⟨rfl, rfl⟩) _ <;> exact Nat.zero_le _
  have hdeep : deep.Rereads := by
    refine deep.everyDatum_iff.2 ⟨?_, by simp [deep]⟩
    rintro _ ⟨⟩
    decide +kernel
  have hdeepFits : ¬deep.Fits := fun h => absurd (h.context _ rfl) (by decide +kernel)
  exact ⟨⟨hdecorated, hfits, (read_text_of_rereads decorated hdecorated).1 hfits⟩,
    hdeep, hdeepFits, (read_text_of_rereads deep hdeep).2.1 hdeepFits⟩

end Chart

end FlatChart
