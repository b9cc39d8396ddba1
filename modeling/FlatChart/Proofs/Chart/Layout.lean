import FlatChart.Proofs.Chart.Decoding
import FlatChart.Proofs.Json.Expected

/-!
# Reading a chart that someone else laid out

The readers of transitions, states and charts settle on every layout. Objects are read member by
member (`Transition.readsMembers_read`, `State.readsMembers_read`, `Chart.readsMembers_readValue`),
and `memberAlone` says what each member adds: what stands under the names of actions and a guard
adds nothing but that it was there, and what stands under an unknown name of a state or a chart adds
nothing at all.
-/

namespace FlatChart

open Reader

/-! ## Transitions -/

namespace Transition

/-- What one member of a transition adds to what has been read. -/
def memberAlone (depth : ℕ) (w : Layout) (d : Draft) (key : String) : Except ReadError Draft :=
  match key with
  | "target" => do
    let target ← onceAlone key d.target (alone (readOptional readString) w)
    .ok { d with target }
  | "actions" => do
    let actions ← onceAlone key d.actions (.ok ())
    .ok { d with actions }
  | "cond" => do
    let cond ← onceAlone key d.cond (.ok ())
    .ok { d with cond }
  | key => do
    let v ← alone (readData depth) w
    .ok { d with extra := d.extra.insert key v }

/-- A member of a transition is read as what it adds, whatever stands around its value. -/
theorem readMember_chars (depth : ℕ) (w : Layout) (d : Draft) (key : String) (colon value : Gap)
    (rest : List Char) (hr : Ends rest) :
    readMember depth d key (colon.chars ++ ':' :: (value.chars ++ (w.chars ++ rest))) =
      leaving rest (memberAlone depth w d key) := by
  obtain ⟨hskipped, hok⟩ := alone_readSkipped w
  have htarget := readOnce_chars (settlesOn_readOptional (settlesOn_readString w)) key d.target
    colon value hr
  have hactions := readOnce_chars hskipped key d.actions colon value hr
  have hcond := readOnce_chars hskipped key d.cond colon value hr
  rw [hok] at hactions hcond
  unfold readMember memberAlone
  dsimp only
  split
  · simp only [htarget]
    exact leaving_bind rest _ _ _ fun _ => rfl
  · simp only [hactions]
    exact leaving_bind rest _ _ _ fun _ => rfl
  · simp only [hcond]
    exact leaving_bind rest _ _ _ fun _ => rfl
  · simp only [readColon_gap, ok_bind, settlesOn_readData depth w value rest hr]
    exact leaving_bind rest _ _ _ fun _ => rfl

/-- What a member of a transition adds is what it is read as alone. -/
theorem aloneUnder_readMember (depth : ℕ) (w : Layout) (d : Draft) (key : String) :
    aloneUnder (readMember depth) d key w = memberAlone depth w d key :=
  aloneUnder_eq (readMember_chars depth w d key)

/-- A transition is read member by member. -/
theorem readsMembers_read (depth : ℕ) :
    ReadsMembers (read depth) (readMember depth) {} fun d => .ok d.transition := by
  have hmember : ∀ w, SettlesUnder (readMember depth) w := fun w =>
    settlesUnder_of_eq (readMember_chars depth w)
  refine readsMembers_of_eq hmember fun text rest hskip => ?_
  simp only [read, hskip]
  rfl

/-- Reading a transition settles on every layout. -/
theorem settlesOn_read (depth : ℕ) (w : Layout) : SettlesOn (read depth) w := by
  refine settlesOn_object "struct TransitionRepr" (readsMembers_read depth)
    (fun text c cs hskip hbrace => ?_) w
  simp [read, hskip, hbrace]

end Transition

/-! ## States -/

namespace State

/-- Reading transitions settles on every layout. -/
theorem settlesOn_readOn (depth : ℕ) (w : Layout) : SettlesOn (readOn depth) w :=
  settlesOn_readOptional (settlesOn_readMap (Transition.settlesOn_read depth) w)

/-- After the value of a member there is the closing bracket or a comma. -/
theorem skipBlank_further (members : List (Label × Layout)) (last : Gap) (rest : List Char) :
    (members = [] ∧
      skipBlank (Layout.membersChars false members ++ (last.chars ++ '\x7d' :: rest)) =
        '\x7d' :: rest) ∨
      members ≠ [] ∧ ∃ more,
        skipBlank (Layout.membersChars false members ++ (last.chars ++ '\x7d' :: rest)) =
          ',' :: more := by
  cases members with
  | nil =>
    refine .inl ⟨rfl, ?_⟩
    rw [Layout.membersChars, List.nil_append, skipBlank_gap]
    rfl
  | cons m members =>
    refine .inr ⟨List.cons_ne_nil _ _, ?_⟩
    rw [Layout.membersChars, List.append_assoc, skipBlank_gap]
    exact ⟨_, rfl⟩

/-- Under the name of a kind stands `null`, and then the closing bracket. Every other layout is
refused with an error that depends on the layout. -/
theorem exists_readUnit (w : Layout) (members : List (Label × Layout)) (last : Gap) :
    ∃ res : Except ReadError Unit, ∀ (gap : Gap) (rest : List Char),
      (do
        let rest ←
          match skipBlank (gap.chars ++ (w.chars ++
            (Layout.membersChars false members ++ (last.chars ++ '\x7d' :: rest)))) with
          | 'n' :: rest => readWord ['u', 'l', 'l'] rest
          | text => readUnexpected "unit" text
        match skipBlank rest with
        | [] => .error .truncated
        | '\x7d' :: rest => .ok ((), rest)
        | _ => .error .malformed) = leaving rest res := by
  by_cases hw : w.kind = .null
  · obtain rfl := Layout.eq_null hw
    refine ⟨if members = [] then .ok () else .error .malformed, fun gap rest => ?_⟩
    rw [skipBlank_gap, skipBlank_chars]
    simp only [Layout.chars, List.cons_append, List.nil_append, readWord, if_true, ok_bind]
    rcases skipBlank_further members last rest with ⟨hnone, hclose⟩ | ⟨hsome, more, hcomma⟩
    · rw [if_pos hnone, hclose]
      rfl
    · rw [if_neg hsome, hcomma]
      rfl
  · obtain ⟨c, cs, hcs, -⟩ := exists_cons_layout w
    have hc : c ≠ 'n' := ne_of_kind hcs rfl hw
    obtain ⟨e, he⟩ := exists_readUnexpected "unit" w
    refine ⟨.error e, fun gap rest => ?_⟩
    have hunexpected := he (List Char) _ (ends_members members last rest)
    rw [skipBlank_gap, skipBlank_chars]
    simp only [hcs, List.cons_append] at hunexpected ⊢
    simp [hc, hunexpected]

/-- Reading a kind settles on every layout. -/
theorem settlesOn_readKind (w : Layout) : SettlesOn readKind w := by
  refine settlesOn_of_exists (fun gap text => ?_) ?_
  · rw [readKind, skipBlank_gap, ← readKind]
  cases w with
  | null => exact ⟨.error .malformed, fun rest _ => rfl⟩
  | bool b => exact ⟨.error .malformed, fun rest _ => by cases b <;> rfl⟩
  | num n =>
    obtain ⟨c, cs, hcs, hc⟩ := exists_cons_numeral n
    refine ⟨.error .malformed, fun rest _ => ?_⟩
    rw [readKind, skipBlank_chars]
    simp [Layout.chars, hcs, digit_or_minus_ne hc]
  | str pieces =>
    refine ⟨spelled pieces >>= kindOfName, fun rest _ => ?_⟩
    rw [readKind, skipBlank_chars]
    simp only [Layout.chars, List.cons_append, readText_closing]
    cases spelled pieces with
    | error e => rfl
    | ok name =>
      simp only [leaving_ok, ok_bind]
      cases kindOfName name <;> rfl
  | arr items last => exact ⟨.error .malformed, fun rest _ => rfl⟩
  | obj members last =>
    cases members with
    | nil =>
      refine ⟨.error .malformed, fun rest _ => ?_⟩
      rw [readKind, skipBlank_chars]
      simp only [Layout.chars, Layout.membersChars, List.nil_append, List.cons_append,
        List.append_assoc, readName, skipBlank_gap]
      rfl
    | cons m members =>
      obtain ⟨l, w⟩ := m
      -- The name decides first, then what stands under it, and last whether more members follow.
      obtain ⟨res, hres⟩ := exists_readUnit w members last
      refine ⟨do
        let name ← spelled l.name
        kindOfName name
        res, fun rest _ => ?_⟩
      have hname : ∀ more, readName (l.gaps.1.chars ++ (l.gaps.2.chars ++
          '"' :: (closing l.name ++ more))) = leaving more (spelled l.name) := by
        intro more
        rw [readName, skipBlank_gap, skipBlank_gap]
        exact readText_closing l.name more
      rw [readKind, skipBlank_chars]
      simp only [Layout.chars, Layout.membersChars, if_true, List.nil_append, List.cons_append,
        List.append_assoc, hname]
      cases spelled l.name with
      | error e => rfl
      | ok name =>
        simp only [leaving_ok, ok_bind]
        cases kindOfName name with
        | error e => rfl
        | ok _ =>
          simp only [ok_bind, readColon_gap]
          exact hres l.value rest

/-- What one member of a state adds to what has been read. -/
def memberAlone (depth : ℕ) (w : Layout) (d : Draft) (key : String) : Except ReadError Draft :=
  match key with
  | "type" => do
    let kind ← onceAlone key d.kind (alone (readOptional readKind) w)
    .ok { d with kind }
  | "on" => do
    let on ← onceAlone key d.on (alone (readOn depth) w)
    .ok { d with on }
  | _ => .ok d

/-- A member under an unknown name adds nothing. -/
theorem memberAlone_of_notMem (depth : ℕ) (w : Layout) (d : Draft) {key : String}
    (h : key ∉ ["type", "on"]) : memberAlone depth w d key = .ok d := by
  unfold memberAlone
  split <;> simp at h ⊢

/-- A member of a state is read as what it adds, whatever stands around its value. -/
theorem readMember_chars (depth : ℕ) (w : Layout) (d : Draft) (key : String) (colon value : Gap)
    (rest : List Char) (hr : Ends rest) :
    readMember depth d key (colon.chars ++ ':' :: (value.chars ++ (w.chars ++ rest))) =
      leaving rest (memberAlone depth w d key) := by
  have hkind := readOnce_chars (settlesOn_readOptional (settlesOn_readKind w)) key d.kind colon
    value hr
  have hon := readOnce_chars (settlesOn_readOn depth w) key d.on colon value hr
  unfold readMember memberAlone
  dsimp only
  split
  · simp only [hkind]
    exact leaving_bind rest _ _ _ fun _ => rfl
  · simp only [hon]
    exact leaving_bind rest _ _ _ fun _ => rfl
  · simp only [skipMember_chars colon value w hr]

/-- What a member of a state adds is what it is read as alone. -/
theorem aloneUnder_readMember (depth : ℕ) (w : Layout) (d : Draft) (key : String) :
    aloneUnder (readMember depth) d key w = memberAlone depth w d key :=
  aloneUnder_eq (readMember_chars depth w d key)

/-- A state is read member by member. -/
theorem readsMembers_read (depth : ℕ) :
    ReadsMembers (read depth) (readMember depth) {} fun d => .ok d.state := by
  have hmember : ∀ w, SettlesUnder (readMember depth) w := fun w =>
    settlesUnder_of_eq (readMember_chars depth w)
  refine readsMembers_of_eq hmember fun text rest hskip => ?_
  simp only [read, hskip]
  rfl

/-- Reading a state settles on arrays. -/
theorem settlesOn_read_arr (depth : ℕ) (items : List ((Gap × Gap) × Layout)) (last : Gap) :
    SettlesOn (read depth) (.arr items last) := by
  suffices h : ∃ res, ∀ rest,
      readParts depth (Layout.itemsChars true items ++ (last.chars ++ ']' :: rest)) =
        leaving rest res by
    obtain ⟨res, hres⟩ := h
    refine settlesOn_of_exists (fun gap text => ?_) ⟨res.map Draft.state, fun rest _ => ?_⟩
    · rw [read, skipBlank_gap, ← read]
    · rw [read, skipBlank_chars]
      simp only [Layout.chars, List.cons_append, List.append_assoc, List.nil_append, hres]
      cases res <;> rfl
  -- One case for each place where the array may end; a third item is refused at its comma.
  rcases items with _ | ⟨⟨gaps, kind⟩, items⟩
  · refine ⟨.ok {}, fun rest => ?_⟩
    rw [readParts, readNext_items]
    rfl
  · have hkind := fun rest =>
      (settlesOn_readOptional (settlesOn_readKind kind)).here (ends_items items last rest)
    rcases items with _ | ⟨⟨gaps', on⟩, items⟩
    · refine ⟨alone (readOptional readKind) kind >>= fun kind => .ok { kind := some kind },
        fun rest => ?_⟩
      rw [readParts, readNext_items]
      simp only [ok_bind, hkind rest]
      cases alone (readOptional readKind) kind with
      | error e => rfl
      | ok k =>
        simp only [leaving_ok, ok_bind, readNext_items]
    · have hon := fun rest => (settlesOn_readOn depth on).here (ends_items items last rest)
      refine ⟨do
        let kind ← alone (readOptional readKind) kind
        let on ← alone (readOn depth) on
        if items = [] then .ok { kind := some kind, on := some on } else .error .malformed,
        fun rest => ?_⟩
      rw [readParts, readNext_items]
      simp only [ok_bind, hkind rest]
      cases alone (readOptional readKind) kind with
      | error e => rfl
      | ok k =>
        simp only [leaving_ok, ok_bind, readNext_items, hon rest]
        cases alone (readOn depth) on with
        | error e => rfl
        | ok o =>
          simp only [leaving_ok, ok_bind, readArrayEnd_items]
          split_ifs <;> rfl

/-- Reading a state settles on every layout. -/
theorem settlesOn_read (depth : ℕ) (w : Layout) : SettlesOn (read depth) w := by
  refine settlesOn_structure "struct StateNode" (readsMembers_read depth)
    (settlesOn_read_arr depth) (fun text c cs hskip hbracket hbrace => ?_) w
  simp [read, hskip, hbracket, hbrace]

end State

/-! ## Charts -/

namespace Chart

/-- Reading a context settles on every layout. -/
theorem settlesOn_readContext (w : Layout) : SettlesOn readContext w :=
  settlesOn_readOptional (settlesOn_readData _ w)

/-- Reading states settles on every layout. -/
theorem settlesOn_readStates (w : Layout) : SettlesOn readStates w :=
  settlesOn_readMap (State.settlesOn_read _) w

/-- What one member of a chart adds to what has been read. -/
def memberAlone (w : Layout) (d : Draft) (key : String) : Except ReadError Draft :=
  match key with
  | "initial" => do
    let initial ← onceAlone key d.initial (alone readString w)
    .ok { d with initial }
  | "context" => do
    let context ← onceAlone key d.context (alone readContext w)
    .ok { d with context }
  | "states" => do
    let states ← onceAlone key d.states (alone readStates w)
    .ok { d with states }
  | _ => .ok d

/-- A member under an unknown name adds nothing. -/
theorem memberAlone_of_notMem (w : Layout) (d : Draft) {key : String}
    (h : key ∉ ["initial", "context", "states"]) : memberAlone w d key = .ok d := by
  unfold memberAlone
  split <;> simp at h ⊢

/-- A member of a chart is read as what it adds, whatever stands around its value. -/
theorem readMember_chars (w : Layout) (d : Draft) (key : String) (colon value : Gap)
    (rest : List Char) (hr : Ends rest) :
    readMember d key (colon.chars ++ ':' :: (value.chars ++ (w.chars ++ rest))) =
      leaving rest (memberAlone w d key) := by
  have hinitial := readOnce_chars (settlesOn_readString w) key d.initial colon value hr
  have hcontext := readOnce_chars (settlesOn_readContext w) key d.context colon value hr
  have hstates := readOnce_chars (settlesOn_readStates w) key d.states colon value hr
  unfold readMember memberAlone
  dsimp only
  split
  · simp only [hinitial]
    exact leaving_bind rest _ _ _ fun _ => rfl
  · simp only [hcontext]
    exact leaving_bind rest _ _ _ fun _ => rfl
  · simp only [hstates]
    exact leaving_bind rest _ _ _ fun _ => rfl
  · simp only [skipMember_chars colon value w hr]

/-- What a member of a chart adds is what it is read as alone. -/
theorem aloneUnder_readMember (w : Layout) (d : Draft) (key : String) :
    aloneUnder readMember d key w = memberAlone w d key := aloneUnder_eq (readMember_chars w d key)

/-- Blanks in front of a chart are passed over. -/
theorem readValue_gap (gap : Gap) (text : List Char) :
    readValue (gap.chars ++ text) = readValue text := by
  rw [readValue, skipBlank_gap, ← readValue]

/-- A chart is read member by member, and must have an initial state. -/
theorem readsMembers_readValue : ReadsMembers readValue readMember {} Draft.complete := by
  have hmember : ∀ w, SettlesUnder readMember w := fun w =>
    settlesUnder_of_eq (readMember_chars w)
  refine readsMembers_of_eq hmember fun text rest hskip => ?_
  rw [readValue_eq, hskip]
  refine bind_congr fun p => ?_
  obtain ⟨d, rest⟩ := p
  simp only [completed, Draft.complete]
  cases d.chart? <;> rfl

end Chart

end FlatChart
