import FlatChart.Proofs.Json.Settled

/-!
# Layouts where something is expected

The readers of places where only some values may stand settle on every layout, as the error for
another value tells only what stands there, and this depends on the layout alone
(`exists_readUnexpected`). A reader of objects that goes through the members one by one is described
by what it makes of each member (`ReadsMembers`); what it gives on an object is then a fold over the
members, and the blanks between them are gone.
-/

namespace FlatChart.Reader

variable {α σ : Type}

/-! ## Other values -/

/-- What is found at a place depends on the layout that stands there. -/
theorem exists_readFound (w : Layout) :
    ∃ res, ∀ rest, Ends rest → readFound (w.chars ++ rest) = res := by
  cases w with
  | null => exact ⟨.ok .null, fun rest _ => rfl⟩
  | bool b => exact ⟨.ok (.boolean b), fun rest _ => by cases b <;> rfl⟩
  | num n =>
    obtain ⟨c, cs, hcs, hc⟩ := exists_cons_numeral n
    refine ⟨n.number.map .number, fun rest hr => ?_⟩
    have hn := readNumber_numeral n hr
    rw [readFound, skipBlank_chars]
    simp only [Layout.chars, hcs, List.cons_append] at hn ⊢
    simp [digit_or_minus_ne hc, hc, hn]
    cases n.number <;> rfl
  | str pieces =>
    refine ⟨(spelled pieces).map .string, fun rest _ => ?_⟩
    rw [readFound, skipBlank_chars]
    simp only [Layout.chars, List.cons_append, readText_closing]
    cases spelled pieces <;> rfl
  | arr items last => exact ⟨.ok .sequence, fun rest _ => rfl⟩
  | obj members last => exact ⟨.ok .map, fun rest _ => rfl⟩

/-- A layout in place of what is expected is refused with an error that depends on the layout. -/
theorem exists_readUnexpected (expected : String) (w : Layout) :
    ∃ e, ∀ (α : Type) (rest : List Char), Ends rest →
      (readUnexpected expected (w.chars ++ rest) : Except ReadError α) = .error e := by
  obtain ⟨res, hres⟩ := exists_readFound w
  cases res with
  | error e =>
    refine ⟨e, fun α rest hr => ?_⟩
    rw [readUnexpected, hres rest hr]
    rfl
  | ok found =>
    refine ⟨.mismatch (.invalidType found expected), fun α rest hr => ?_⟩
    rw [readUnexpected, hres rest hr]
    rfl

/-! ## Texts, options and members -/

/-- Reading a text settles on every layout. -/
theorem settlesOn_readString (w : Layout) : SettlesOn readString w := by
  refine settlesOn_of_exists (fun gap text => ?_) ?_
  · rw [readString, skipBlank_gap, ← readString]
  by_cases hw : w.kind = .str
  · obtain ⟨pieces, rfl⟩ : ∃ pieces, w = .str pieces := by
      cases w with
      | str pieces => exact ⟨pieces, rfl⟩
      | _ => cases hw
    refine ⟨spelled pieces, fun rest _ => ?_⟩
    rw [readString, skipBlank_chars]
    simp only [Layout.chars, List.cons_append, readText_closing]
  · -- Any other layout begins with another character than a quote, and is refused.
    obtain ⟨c, cs, hcs, -⟩ := exists_cons_layout w
    have hc : c ≠ '"' := ne_of_kind hcs rfl hw
    obtain ⟨e, he⟩ := exists_readUnexpected "a string" w
    refine ⟨.error e, fun rest hr => ?_⟩
    have hunexpected := he (String × List Char) rest hr
    rw [readString, skipBlank_chars, leaving_error, ← hunexpected]
    simp [hcs, hc]

variable {r : Reader α}

/-- What is not `null` is read as what the reader gives. -/
theorem readOptional_chars {w : Layout} (h : SettlesOn r w) (hw : w.kind ≠ .null) (gap : Gap)
    {rest : List Char} (hr : Ends rest) :
    readOptional r (gap.chars ++ (w.chars ++ rest)) = leaving rest ((alone r w).map some) := by
  obtain ⟨c, cs, hcs, -⟩ := exists_cons_layout w
  have hc : c ≠ 'n' := ne_of_kind hcs rfl hw
  have hread := h.here hr
  rw [readOptional, skipBlank_gap, skipBlank_chars]
  simp only [hcs, List.cons_append] at hread ⊢
  simp [hc, hread]
  cases alone r w <;> rfl

/-- What may be `null` is read as nothing or as what the reader gives. -/
theorem settlesOn_readOptional {w : Layout} (h : SettlesOn r w) : SettlesOn (readOptional r) w := by
  by_cases hw : w.kind = .null
  · obtain rfl := Layout.eq_null hw
    refine settlesOn_of_exists (fun gap text => ?_) ⟨.ok none, fun rest _ => rfl⟩
    rw [readOptional, skipBlank_gap, ← readOptional]
  · exact settlesOn_of_eq fun gap _ hr => readOptional_chars h hw gap hr

/-- What stands under a name that may stand once is read unless the name stood before. -/
def onceAlone (name : String) (seen : Option α) (res : Except ReadError α) :
    Except ReadError (Option α) :=
  if seen.isSome then .error (.mismatch (.duplicateField name)) else res.map some

/-- A member that may stand once is read with its value. -/
theorem readOnce_chars {w : Layout} (h : SettlesOn r w) (name : String) (seen : Option α)
    (colon value : Gap) {rest : List Char} (hr : Ends rest) :
    readOnce name seen r (colon.chars ++ ':' :: (value.chars ++ (w.chars ++ rest))) =
      leaving rest (onceAlone name seen (alone r w)) := by
  unfold readOnce onceAlone
  split_ifs with hs
  · rfl
  · simp only [readColon_gap, ok_bind, h value rest hr]
    cases alone r w <;> rfl

/-- Passing a value over settles on every layout, and gives the same on all. -/
theorem alone_readSkipped (w : Layout) :
    SettlesOn readSkipped w ∧ alone readSkipped w = .ok () := by
  have hread : ∀ (gap : Gap) (rest : List Char), Ends rest →
      readSkipped (gap.chars ++ (w.chars ++ rest)) = leaving rest (.ok ()) := by
    intro gap rest hr
    rw [readSkipped, skipValue_chars gap w hr]
    rfl
  exact ⟨settlesOn_of_eq hread, alone_eq hread⟩

/-! ## Objects -/

/-- A reader of objects goes through the members one by one, beginning with `start`, and makes its
result of what they gave. Nothing after the closing bracket plays a part in it. -/
def ReadsMembers (r : Reader α) (member : σ → String → Reader σ) (start : σ)
    (finish : σ → Except ReadError α) : Prop :=
  ∀ (members : List (Label × Layout)) (last gap : Gap) (rest : List Char),
    r (gap.chars ++ ((Layout.obj members last).chars ++ rest)) =
      leaving rest (members.foldlM (aloneMember member) start >>= finish)

/-- What such a reader gives on an object is what it gives on the object alone, whatever follows. -/
theorem ReadsMembers.chars {member : σ → String → Reader σ} {start : σ}
    {finish : σ → Except ReadError α} (h : ReadsMembers r member start finish)
    (members : List (Label × Layout)) (last gap : Gap) (rest : List Char) :
    r (gap.chars ++ ((Layout.obj members last).chars ++ rest)) =
      leaving rest (alone r (.obj members last)) := by
  rw [h members last gap rest, alone_eq fun gap rest _ => h members last gap rest]

/-- A reader that reads the members after an opening bracket goes through them one by one. -/
theorem readsMembers_of_eq {member : σ → String → Reader σ} {start : σ}
    {finish : σ → Except ReadError α} (hmember : ∀ w, SettlesUnder member w)
    (hr : ∀ text rest, skipBlank text = '\x7b' :: rest →
      r text = (readMembers readText member rest.length true start rest >>= fun (s, rest) =>
        leaving rest (finish s))) : ReadsMembers r member start finish := by
  intro members last gap rest
  have hskip : skipBlank (gap.chars ++ ((Layout.obj members last).chars ++ rest)) =
      '\x7b' :: (Layout.membersChars true members ++ (last.chars ++ '\x7d' :: rest)) := by
    rw [skipBlank_gap, skipBlank_chars]
    simp [Layout.chars]
  rw [hr _ _ hskip, readMembers_chars (fun m _ => hmember m.2) start last rest]
  exact leaving_bind rest _ _ _ fun _ => rfl

/-- A reader that refuses a layout settles on it. -/
theorem settlesOn_of_unexpected {w : Layout} (expected : String)
    (h : ∀ text rest, skipBlank text = w.chars ++ rest →
      r text = readUnexpected expected (w.chars ++ rest)) : SettlesOn r w := by
  obtain ⟨e, he⟩ := exists_readUnexpected expected w
  have hread : ∀ (gap : Gap) (rest : List Char), Ends rest →
      r (gap.chars ++ (w.chars ++ rest)) = leaving rest (.error e) := by
    intro gap rest hr
    rw [h _ rest (by rw [skipBlank_gap, skipBlank_chars]), leaving_error]
    exact he (α × List Char) rest hr
  exact settlesOn_of_eq hread

/-- A reader of objects and maybe of arrays, which refuses everything else, settles on every
layout. -/
theorem settlesOn_structure {member : σ → String → Reader σ} {start : σ}
    {finish : σ → Except ReadError α} (expected : String)
    (hobj : ReadsMembers r member start finish)
    (harr : ∀ (items : List ((Gap × Gap) × Layout)) (last : Gap), SettlesOn r (.arr items last))
    (hother : ∀ text c cs, skipBlank text = c :: cs → c ≠ '[' → c ≠ '\x7b' →
      r text = readUnexpected expected (c :: cs)) (w : Layout) : SettlesOn r w := by
  by_cases hw : w.kind = .arr ∨ w.kind = .obj
  · cases w with
    | arr items last => exact harr items last
    | obj members last => exact settlesOn_of_eq fun gap rest _ => hobj members last gap rest
    | _ => rcases hw with hw | hw <;> cases hw
  · obtain ⟨c, cs, hcs, -⟩ := exists_cons_layout w
    have hbracket : c ≠ '[' := ne_of_kind hcs rfl fun h => hw (.inl h)
    have hbrace : c ≠ '\x7b' := ne_of_kind hcs rfl fun h => hw (.inr h)
    refine settlesOn_of_unexpected expected fun text rest hskip => ?_
    rw [hcs, List.cons_append] at hskip ⊢
    exact hother text c _ hskip hbracket hbrace

/-- A reader of objects, which refuses everything else, settles on every layout. -/
theorem settlesOn_object {member : σ → String → Reader σ} {start : σ}
    {finish : σ → Except ReadError α} (expected : String)
    (hobj : ReadsMembers r member start finish)
    (hother : ∀ text c cs, skipBlank text = c :: cs → c ≠ '\x7b' →
      r text = readUnexpected expected (c :: cs)) (w : Layout) : SettlesOn r w := by
  refine settlesOn_structure expected hobj (fun items last => ?_)
    (fun text c cs hskip _ hbrace => hother text c cs hskip hbrace) w
  refine settlesOn_of_unexpected expected fun text rest hskip => ?_
  exact hother text '[' _ hskip (by decide)

/-- One more member of a map, as `readMap` reads it. -/
def insertMember (item : Reader α) (m : SortedMap α) (k : String) : Reader (SortedMap α) :=
  fun text => do
    let text ← readColon text
    let (x, rest) ← item text
    .ok (m.insert k x, rest)

/-- A member of a map is read with its value. -/
theorem insertMember_chars {w : Layout} (h : SettlesOn r w) (m : SortedMap α) (k : String)
    (colon value : Gap) (rest : List Char) (hr : Ends rest) :
    insertMember r m k (colon.chars ++ ':' :: (value.chars ++ (w.chars ++ rest))) =
      leaving rest ((alone r w).map (m.insert k)) := by
  simp only [insertMember, readColon_gap, ok_bind, h value rest hr]
  cases alone r w <;> rfl

/-- A map is read member by member. -/
theorem readsMembers_readMap (h : ∀ w, SettlesOn r w) :
    ReadsMembers (readMap r) (insertMember r) ∅ .ok := by
  have hmember : ∀ w, SettlesUnder (insertMember r) w := fun w =>
    settlesUnder_of_eq (insertMember_chars (h w))
  refine readsMembers_of_eq hmember fun text rest hskip => ?_
  simp only [readMap, hskip, leaving_ok]
  exact (bind_pure _).symm

/-- Reading a map settles on every layout. -/
theorem settlesOn_readMap (h : ∀ w, SettlesOn r w) (w : Layout) : SettlesOn (readMap r) w := by
  refine settlesOn_object "a map" (readsMembers_readMap h) (fun text c cs hskip hbrace => ?_) w
  simp [readMap, hskip, hbrace]

end FlatChart.Reader
