import FlatChart.Json.Reader.Field
import FlatChart.Proofs.Json.Pieces
import FlatChart.Proofs.Json.Reading

/-!
# Reading what someone else laid out

A reader *settles on* a layout when it takes just the characters of the layout, whatever blanks
stand in front and whatever follows, and what it gives depends on the layout alone (`SettlesOn`).
The result may be an error: a layout can hold numbers without a value and texts that are made of no
characters. The readers of data settle on every layout, by induction on the limit for brackets
(`settlesOn_readDocument`). Passing a value over settles too, and is never refused
(`skipValue_chars`); this is all that is ever asked of a value that is passed over.
-/

namespace FlatChart

open Reader

/-! ## Kinds and sizes -/

/-- The kind of a layout. -/
def Layout.kind : Layout → Document.Kind
  | .null => .null
  | .bool b => .bool b
  | .num _ => .num
  | .str _ => .str
  | .arr _ _ => .arr
  | .obj _ _ => .obj

/-- Only `null` is of the kind of `null`. -/
theorem Layout.eq_null {w : Layout} (h : w.kind = .null) : w = .null := by
  cases w with
  | null => rfl
  | _ => cases h

/-- The text of an entry is no longer than that of all entries. -/
theorem length_text_le_spaced {ε : Type} (gaps : ε → Gap × Gap) (text : ε → List Char)
    (first : Bool) {entries : List ε} {e : ε} (he : e ∈ entries) :
    (text e).length ≤ (spaced gaps text first entries).length := by
  induction entries generalizing first with
  | nil => exact absurd he List.not_mem_nil
  | cons d entries ih =>
    simp only [spaced, List.length_append]
    rcases List.mem_cons.1 he with rfl | he
    · omega
    · have h := ih false he
      omega

/-- An item of an array is shorter than the array. -/
theorem Layout.length_lt_of_mem_items {items : List ((Gap × Gap) × Layout)} (last : Gap)
    {e : (Gap × Gap) × Layout} (he : e ∈ items) :
    e.2.chars.length < (Layout.arr items last).chars.length := by
  have hle := length_text_le_spaced Prod.fst (fun e => e.2.chars) true he
  rw [Layout.chars, Layout.itemsChars_eq]
  simp only [List.length_cons, List.length_append]
  omega

/-- The value of a member of an object is shorter than the object. -/
theorem Layout.length_lt_of_mem_members {members : List (Label × Layout)} (last : Gap)
    {m : Label × Layout} (hm : m ∈ members) :
    m.2.chars.length < (Layout.obj members last).chars.length := by
  have hle := length_text_le_spaced (fun m => m.1.gaps) Layout.memberChars true hm
  rw [Layout.chars, Layout.membersChars_eq]
  simp only [Layout.memberChars, List.length_cons, List.length_append] at hle ⊢
  omega

/-- The number that is read where a number is written. -/
def Numeral.number (n : Numeral) : Except ReadError Number :=
  match n.literal.number? with
  | some x => .ok x
  | none => .error .malformed

namespace Reader

variable {α σ : Type}

/-! ## How layouts begin -/

/-- A layout begins with a character of its kind. -/
theorem exists_cons_layout (w : Layout) :
    ∃ c cs, w.chars = c :: cs ∧ Document.Kind.ofChar? c = some w.kind := by
  cases w with
  | null => exact ⟨'n', _, rfl, rfl⟩
  | bool b =>
    cases b with
    | false => exact ⟨'f', _, rfl, rfl⟩
    | true => exact ⟨'t', _, rfl, rfl⟩
  | num n =>
    obtain ⟨c, cs, hcs, hc⟩ := exists_cons_numeral n
    exact ⟨c, cs, hcs, by simp [Document.Kind.ofChar?, Layout.kind, digit_or_minus_ne hc, hc]⟩
  | str pieces => exact ⟨'"', _, rfl, rfl⟩
  | arr items last => exact ⟨'[', _, rfl, rfl⟩
  | obj members last => exact ⟨'\x7b', _, rfl, rfl⟩

/-- A layout begins a value. -/
theorem leads_chars (w : Layout) : Leads w.chars := by
  obtain ⟨c, cs, hcs, hc⟩ := exists_cons_layout w
  exact ⟨c, cs, hcs, by rw [hc]; rfl⟩

/-- There are no blanks in front of a layout. -/
@[simp] theorem skipBlank_chars (w : Layout) (rest : List Char) :
    skipBlank (w.chars ++ rest) = w.chars ++ rest := ((leads_chars w).append rest).skipBlank

/-- What the first character of a layout tells of the whole of it. -/
theorem kind_of_cons {w : Layout} {c : Char} {cs : List Char} (h : w.chars = c :: cs)
    {k : Document.Kind} (hc : Document.Kind.ofChar? c = some k) : w.kind = k := by
  obtain ⟨d, ds, hds, hd⟩ := exists_cons_layout w
  obtain rfl : d = c := (List.cons.inj (hds.symm.trans h)).1
  exact Option.some.inj (hd.symm.trans hc)

/-- A layout of another kind begins with another character. -/
theorem ne_of_kind {w : Layout} {c d : Char} {cs : List Char} (h : w.chars = c :: cs)
    {k : Document.Kind} (hd : Document.Kind.ofChar? d = some k) (hk : w.kind ≠ k) : c ≠ d := by
  rintro rfl
  exact hk (kind_of_cons h hd)

/-! ## Settling -/

/-- What the reader gives on a layout that stands alone. -/
def alone (r : Reader α) (w : Layout) : Except ReadError α := (r w.chars).map Prod.fst

/-- What the reader gives on a layout depends on the layout alone, and the reader takes just its
characters. -/
def SettlesOn (r : Reader α) (w : Layout) : Prop :=
  ∀ (gap : Gap) (rest : List Char), Ends rest →
    r (gap.chars ++ (w.chars ++ rest)) = leaving rest (alone r w)

/-- Where a reader settles it does so without blanks in front. -/
theorem SettlesOn.here {r : Reader α} {w : Layout} (h : SettlesOn r w) {rest : List Char}
    (hr : Ends rest) : r (w.chars ++ rest) = leaving rest (alone r w) := h [] rest hr

/-- A result that is left before a rest is the result. -/
theorem map_fst_leaving (rest : List Char) (r : Except ReadError α) :
    (leaving rest r).map Prod.fst = r := by cases r <;> rfl

/-- What a reader gives whatever stands around a layout is what it gives on the layout alone. -/
theorem alone_eq {r : Reader α} {w : Layout} {res : Except ReadError α}
    (h : ∀ (gap : Gap) (rest : List Char), Ends rest →
      r (gap.chars ++ (w.chars ++ rest)) = leaving rest res) : alone r w = res := by
  have halone := h [] [] ends_nil
  rw [show Gap.chars [] = [] from rfl, List.nil_append, List.append_nil] at halone
  rw [alone, halone, map_fst_leaving]

/-- A reader that gives one result whatever stands around a layout settles on it. -/
theorem settlesOn_of_eq {r : Reader α} {w : Layout} {res : Except ReadError α}
    (h : ∀ (gap : Gap) (rest : List Char), Ends rest →
      r (gap.chars ++ (w.chars ++ rest)) = leaving rest res) : SettlesOn r w := by
  intro gap rest hr
  rw [h gap rest hr, alone_eq h]

/-- A reader that passes blanks over and gives one result whatever follows a layout settles on
it. -/
theorem settlesOn_of_exists {r : Reader α} {w : Layout}
    (hgap : ∀ (gap : Gap) (text : List Char), r (gap.chars ++ text) = r text)
    (h : ∃ res, ∀ rest, Ends rest → r (w.chars ++ rest) = leaving rest res) : SettlesOn r w := by
  obtain ⟨res, hres⟩ := h
  exact settlesOn_of_eq fun gap rest hr => by rw [hgap, hres rest hr]

/-- What the reader of members gives on a layout under a name when nothing else follows. -/
def aloneUnder (member : σ → String → Reader σ) (s : σ) (k : String) (w : Layout) :
    Except ReadError σ := (member s k (':' :: w.chars)).map Prod.fst

/-- What the reader of members gives on a layout under a name depends on both and on what was read
before. -/
def SettlesUnder (member : σ → String → Reader σ) (w : Layout) : Prop :=
  ∀ (s : σ) (k : String) (colon value : Gap) (rest : List Char), Ends rest →
    member s k (colon.chars ++ ':' :: (value.chars ++ (w.chars ++ rest))) =
      leaving rest (aloneUnder member s k w)

/-- What a reader of members gives whatever stands around a layout is what it gives on the layout
alone. -/
theorem aloneUnder_eq {member : σ → String → Reader σ} {w : Layout} {s : σ} {k : String}
    {res : Except ReadError σ}
    (h : ∀ (colon value : Gap) (rest : List Char), Ends rest →
      member s k (colon.chars ++ ':' :: (value.chars ++ (w.chars ++ rest))) =
        leaving rest res) : aloneUnder member s k w = res := by
  have halone := h [] [] [] ends_nil
  rw [show Gap.chars [] = [] from rfl, List.nil_append, List.nil_append, List.append_nil] at halone
  rw [aloneUnder, halone, map_fst_leaving]

/-- A reader of members that gives one result whatever stands around a layout settles on it. -/
theorem settlesUnder_of_eq {member : σ → String → Reader σ} {w : Layout}
    {res : σ → String → Except ReadError σ}
    (h : ∀ (s : σ) (k : String) (colon value : Gap) (rest : List Char), Ends rest →
      member s k (colon.chars ++ ':' :: (value.chars ++ (w.chars ++ rest))) =
        leaving rest (res s k)) : SettlesUnder member w := by
  intro s k colon value rest hr
  rw [h s k colon value rest hr, aloneUnder_eq (h s k)]

/-- What the reader of members gives on a member that stands alone. -/
def aloneMember (member : σ → String → Reader σ) (s : σ) (m : Label × Layout) :
    Except ReadError σ := do
  let k ← spelled m.1.name
  aloneUnder member s k m.2

/-! ## The loops -/

/-- After an item there may be another one, or the closing bracket. -/
theorem ends_items (items : List ((Gap × Gap) × Layout)) (last : Gap) (rest : List Char) :
    Ends (Layout.itemsChars false items ++ (last.chars ++ ']' :: rest)) := by
  rw [Layout.itemsChars_eq]
  exact ends_spaced _ _ isClose_bracket items last rest

/-- After a member there may be another one, or the closing bracket. -/
theorem ends_members (members : List (Label × Layout)) (last : Gap) (rest : List Char) :
    Ends (Layout.membersChars false members ++ (last.chars ++ '\x7d' :: rest)) := by
  rw [Layout.membersChars_eq]
  exact ends_spaced _ _ isClose_brace members last rest

/-- What comes next in an array. -/
theorem readNext_items (first : Bool) (items : List ((Gap × Gap) × Layout)) (last : Gap)
    (rest : List Char) :
    readNext ']' first (Layout.itemsChars first items ++ (last.chars ++ ']' :: rest)) =
      match items with
      | [] => .ok (.closed rest)
      | e :: items =>
        .ok (.entry (e.2.chars ++ (Layout.itemsChars false items ++
          (last.chars ++ ']' :: rest)))) := by
  have htext : ∀ e : (Gap × Gap) × Layout, Leads e.2.chars := fun e => leads_chars e.2
  simp only [Layout.itemsChars_eq]
  cases items with
  | nil => exact readNext_spaced Prod.fst htext isClose_bracket first [] last rest
  | cons e items =>
    exact readNext_spaced Prod.fst htext isClose_bracket first (e :: items) last rest

/-- An array may end where no item is left. -/
theorem readArrayEnd_items (items : List ((Gap × Gap) × Layout)) (last : Gap) (rest : List Char) :
    readArrayEnd (Layout.itemsChars false items ++ (last.chars ++ ']' :: rest)) =
      if items = [] then .ok rest else .error .malformed := by
  cases items with
  | nil =>
    rw [readArrayEnd, Layout.itemsChars, List.nil_append, skipBlank_gap]
    rfl
  | cons e items =>
    rw [readArrayEnd, Layout.itemsChars, List.append_assoc, skipBlank_gap]
    rfl

/-- The items of an array are read one after the other. -/
theorem readItems_layout (item : Reader α) (f : (Gap × Gap) × Layout → Except ReadError α)
    {items : List ((Gap × Gap) × Layout)} (last : Gap) (rest : List Char)
    (h : ∀ e ∈ items, ∀ rest, Ends rest → item (e.2.chars ++ rest) = leaving rest (f e)) :
    readItems item (Layout.itemsChars true items ++ (last.chars ++ ']' :: rest)).length true
        (Layout.itemsChars true items ++ (last.chars ++ ']' :: rest)) =
      leaving rest (items.mapM f) := by
  have htext : ∀ e : (Gap × Gap) × Layout, Leads e.2.chars := fun e => leads_chars e.2
  rw [Layout.itemsChars_eq]
  have hfuel := length_lt_spaced Prod.fst htext true ']' items last rest
  exact readItems_spaced item f Prod.fst htext last rest items _ true hfuel h

/-- The members of an object are read one after the other, each with what the ones before it
gave. -/
theorem readMembers_layout {κ : Type} (name : Reader κ) (member : σ → κ → Reader σ)
    (step : σ → Label × Layout → Except ReadError σ) {members : List (Label × Layout)} (s : σ)
    (last : Gap) (rest : List Char)
    (h : ∀ m ∈ members, ∀ s rest, Ends rest →
      (name (closing m.1.name ++
          (m.1.colon.chars ++ ':' :: (m.1.value.chars ++ (m.2.chars ++ rest)))) >>=
        fun (k, rest) => member s k rest) = leaving rest (step s m)) :
    readMembers name member
        (Layout.membersChars true members ++ (last.chars ++ '\x7d' :: rest)).length true s
        (Layout.membersChars true members ++ (last.chars ++ '\x7d' :: rest)) =
      leaving rest (members.foldlM step s) := by
  have htext : ∀ m, Leads (Layout.memberChars m) := fun m => ⟨'"', _, rfl, rfl⟩
  rw [Layout.membersChars_eq]
  have hfuel := length_lt_spaced (fun m : Label × Layout => m.1.gaps) htext true '\x7d' members last
    rest
  refine readMembers_spaced name member _ _ step last rest members _ true s hfuel ?_
  intro m hm s rest hr
  simp only [List.append_assoc, List.cons_append]
  exact h m hm s rest hr

/-- The items of an array are read each for itself by a reader that settles on them. -/
theorem readItems_chars {item : Reader α} {items : List ((Gap × Gap) × Layout)}
    (h : ∀ e ∈ items, SettlesOn item e.2) (last : Gap) (rest : List Char) :
    readItems item (Layout.itemsChars true items ++ (last.chars ++ ']' :: rest)).length true
        (Layout.itemsChars true items ++ (last.chars ++ ']' :: rest)) =
      leaving rest (items.mapM fun e => alone item e.2) :=
  readItems_layout item _ last rest fun e he => h e he []

/-- The members of an object are read each for itself, but for what the ones before it gave, by a
reader that settles on them. -/
theorem readMembers_chars {member : σ → String → Reader σ} {members : List (Label × Layout)}
    (h : ∀ m ∈ members, SettlesUnder member m.2) (s : σ) (last : Gap) (rest : List Char) :
    readMembers readText member
        (Layout.membersChars true members ++ (last.chars ++ '\x7d' :: rest)).length true s
        (Layout.membersChars true members ++ (last.chars ++ '\x7d' :: rest)) =
      leaving rest (members.foldlM (aloneMember member) s) := by
  refine readMembers_layout readText member _ s last rest fun m hm s rest hr => ?_
  have hvalue := fun k => h m hm s k m.1.colon m.1.value rest hr
  rw [readText_closing, aloneMember]
  cases spelled m.1.name with
  | error e => rfl
  | ok k => exact hvalue k

/-! ## Data -/

/-- A written number is read when it has a value. -/
theorem readNumber_numeral (n : Numeral) {rest : List Char} (hr : Ends rest) :
    readNumber (n.chars ++ rest) = leaving rest n.number := by
  rw [readNumber, readLiteral_numeral _ n hr, Numeral.number]
  simp only [ok_bind]
  cases n.literal.number? <;> rfl

/-- A colon is read after any blanks. -/
@[simp] theorem readColon_gap (colon : Gap) (text : List Char) :
    readColon (colon.chars ++ ':' :: text) = .ok text := by
  rw [readColon, skipBlank_gap]
  rfl

/-- A named value is read with its value. -/
theorem settlesUnder_readNamed {value : Reader Document} {w : Layout} (h : SettlesOn value w) :
    SettlesUnder (readNamed value) w := by
  have hread : ∀ (members : List (String × Document)) (k : String) (colon gap : Gap)
      (rest : List Char), Ends rest →
      readNamed value members k (colon.chars ++ ':' :: (gap.chars ++ (w.chars ++ rest))) =
        leaving rest (alone value w >>= fun d => .ok ((k, d) :: members)) := by
    intro members k colon gap rest hr
    rw [readNamed, readColon_gap]
    simp only [ok_bind, h gap rest hr]
    exact leaving_bind rest _ _ _ fun _ => rfl
  exact settlesUnder_of_eq hread

/-- What a layout is read as depends on the layout alone, where brackets may nest at most `depth`
deep. -/
theorem settlesOn_readDocument (depth : ℕ) (w : Layout) : SettlesOn (readDocument depth) w := by
  -- By induction on the limit, not on the layout: inside a bracket the limit is one less.
  induction depth using Nat.strongRecOn generalizing w with
  | ind depth ih =>
    refine settlesOn_of_exists (fun gap text => ?_) ?_
    · rw [readDocument, skipBlank_gap, ← readDocument]
    cases w with
    | null => exact ⟨.ok .null, fun rest _ => by cases depth <;> rfl⟩
    | bool b => exact ⟨.ok (.bool b), fun rest _ => by cases depth <;> cases b <;> rfl⟩
    | num n =>
      -- Its first character is known only as a digit or a minus, which no other branch takes.
      obtain ⟨c, cs, hcs, hc⟩ := exists_cons_numeral n
      refine ⟨n.number >>= fun x => .ok (.num x), fun rest hr => ?_⟩
      have hn := readNumber_numeral n hr
      rw [readDocument, skipBlank_chars]
      simp only [Layout.chars, hcs, List.cons_append] at hn ⊢
      simp [digit_or_minus_ne hc, hc, hn]
      exact leaving_bind rest _ _ _ fun _ => rfl
    | str pieces =>
      refine ⟨spelled pieces >>= fun s => .ok (.str s), fun rest _ => ?_⟩
      rw [readDocument, skipBlank_chars]
      simp only [Layout.chars, List.cons_append, readText_closing]
      exact leaving_bind rest _ _ _ fun _ => rfl
    | arr items last =>
      cases depth with
      | zero => exact ⟨.error .malformed, fun rest _ => rfl⟩
      | succ depth =>
        have hitem := fun e (_ : e ∈ items) => ih depth (Nat.lt_succ_self _) e.2
        refine ⟨(items.mapM fun e => alone (readDocument depth) e.2) >>= fun items =>
          .ok (.arr items), fun rest _ => ?_⟩
        rw [readDocument, skipBlank_chars]
        simp only [Layout.chars, List.cons_append, List.append_assoc, List.nil_append,
          readItems_chars hitem]
        exact leaving_bind rest _ _ _ fun _ => rfl
    | obj members last =>
      cases depth with
      | zero => exact ⟨.error .malformed, fun rest _ => rfl⟩
      | succ depth =>
        have hmember := fun m (_ : m ∈ members) =>
          settlesUnder_readNamed (ih depth (Nat.lt_succ_self _) m.2)
        refine ⟨members.foldlM (aloneMember (readNamed (readDocument depth))) [] >>= fun members =>
          .ok (.obj members.reverse), fun rest _ => ?_⟩
        rw [readDocument, skipBlank_chars]
        simp only [Layout.chars, List.cons_append, List.append_assoc, List.nil_append,
          readMembers_chars hmember]
        exact leaving_bind rest _ _ _ fun _ => rfl

/-- The data that a layout is read as depends on the layout alone. -/
theorem settlesOn_readData (depth : ℕ) (w : Layout) : SettlesOn (readData depth) w := by
  have hdocument := settlesOn_readDocument depth w
  have hread : ∀ (gap : Gap) (rest : List Char), Ends rest →
      readData depth (gap.chars ++ (w.chars ++ rest)) =
        leaving rest (alone (readDocument depth) w >>= fun d => .ok d.value) := by
    intro gap rest hr
    rw [readData, hdocument gap rest hr]
    exact leaving_bind rest _ _ _ fun _ => rfl
  exact settlesOn_of_eq hread

/-! ## What is passed over -/

/-- Blanks are passed over in front of a value that is passed over. -/
theorem skipNested_gap (depth : ℕ) (gap : Gap) (text : List Char) :
    skipNested depth (gap.chars ++ text) = skipNested depth text := by
  rw [skipNested, skipBlank_gap, ← skipNested]

/-- A layout is passed over, whatever it holds, where brackets may nest as deep as it is long. -/
theorem skipNested_chars (depth : ℕ) : ∀ (w : Layout) (rest : List Char),
    w.chars.length ≤ depth → Ends rest → skipNested depth (w.chars ++ rest) = .ok rest := by
  induction depth using Nat.strongRecOn with
  | ind depth ih =>
    intro w rest hdepth hr
    rw [skipNested, skipBlank_chars]
    cases w with
    | null => rfl
    | bool b => cases b <;> rfl
    | num n =>
      obtain ⟨c, cs, hcs, hc⟩ := exists_cons_numeral n
      have hn := readLiteral_numeral .malformed n hr
      simp only [Layout.chars, hcs, List.cons_append] at hn ⊢
      simp [digit_or_minus_ne hc, hc, skipNumber, hn]
    | str pieces => simp [Layout.chars, skipText_closing]
    | arr items last =>
      obtain ⟨depth, rfl⟩ : ∃ n, depth = n + 1 :=
        ⟨depth - 1, by rw [Layout.chars, List.length_cons] at hdepth; omega⟩
      simp only [Layout.chars, List.cons_append, List.append_assoc, List.nil_append]
      rw [readItems_layout _ (fun _ => .ok ()) last rest]
      · have hok : items.mapM (fun _ => (.ok () : Except ReadError Unit)) =
            .ok (items.map fun _ => ()) := List.mapM_pure
        rw [hok]
        rfl
      · intro e he rest hr
        have hlength := Layout.length_lt_of_mem_items last he
        rw [ih depth (Nat.lt_succ_self _) e.2 rest (by omega) hr]
        rfl
    | obj members last =>
      obtain ⟨depth, rfl⟩ : ∃ n, depth = n + 1 :=
        ⟨depth - 1, by rw [Layout.chars, List.length_cons] at hdepth; omega⟩
      simp only [Layout.chars, List.cons_append, List.append_assoc, List.nil_append]
      rw [readMembers_layout _ _ (fun _ _ => .ok ()) () last rest]
      · have hok : members.foldlM (fun _ _ => (.ok () : Except ReadError Unit)) () = .ok () :=
          List.foldlM_pure
        rw [hok]
        rfl
      · intro m hm _ rest hr
        have hlength := Layout.length_lt_of_mem_members last hm
        simp only [skipText_closing, ok_bind, readColon_gap, skipNested_gap,
          ih depth (Nat.lt_succ_self _) m.2 rest (by omega) hr]
        rfl

/-- A layout is passed over, whatever it holds. -/
theorem skipValue_chars (gap : Gap) (w : Layout) {rest : List Char} (hr : Ends rest) :
    skipValue (gap.chars ++ (w.chars ++ rest)) = .ok rest := by
  rw [skipValue, skipNested_gap]
  refine skipNested_chars _ w rest ?_ hr
  simp only [List.length_append]
  omega

/-- A member that is passed over changes nothing. -/
theorem skipMember_chars {s : σ} (colon value : Gap) (w : Layout) {rest : List Char}
    (hr : Ends rest) :
    skipMember s (colon.chars ++ ':' :: (value.chars ++ (w.chars ++ rest))) =
      leaving rest (.ok s) := by
  rw [skipMember, readColon_gap]
  simp only [ok_bind, skipValue_chars value w hr, leaving_ok]

end Reader

end FlatChart
