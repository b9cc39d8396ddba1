import FlatChart.Proofs.Json.Reading

/-!
# Decoders of documents

The decoders of the readers that read data, pass data over, and read what is expected at a place.
Data is accepted when its brackets nest within a bound and its numbers can be read
(`Document.accept`). What is passed over is never refused (`decodes_readSkipped`), however deep it
is.
-/

namespace FlatChart

/-- The number that is read where a number is written. -/
def Number.reread (n : Number) : Except ReadError Number :=
  match n.literal.number? with
  | some n => .ok n
  | none => .error .malformed

namespace Document

/-- The document that is read where a document is written and brackets may nest at most `depth`
deep. -/
def accept : (depth : ℕ) → Document → Except ReadError Document
  | _, .null => .ok .null
  | _, .bool b => .ok (.bool b)
  | _, .num n => do
    let n ← n.reread
    .ok (.num n)
  | _, .str s => .ok (.str s)
  | 0, .arr _ => .error .malformed
  | 0, .obj _ => .error .malformed
  | depth + 1, .arr items => do
    let items ← items.mapM (accept depth)
    .ok (.arr items)
  | depth + 1, .obj members => do
    let members ← members.mapM fun m => do
      let d ← accept depth m.2
      .ok (m.1, d)
    .ok (.obj members)

/-- The member that is read where a member is written. -/
def acceptMember (depth : ℕ) (m : String × Document) : Except ReadError (String × Document) := do
  let d ← accept depth m.2
  .ok (m.1, d)

/-- An object is accepted member by member. -/
theorem accept_obj (depth : ℕ) (members : List (String × Document)) :
    accept (depth + 1) (.obj members) =
      (members.mapM (acceptMember depth) >>= fun members => .ok (.obj members)) := rfl

/-- The data that is read where a document is written. -/
def data (depth : ℕ) (d : Document) : Except ReadError Json := do
  let d ← d.accept depth
  .ok d.value

/-- What is found where a document is written and something else is expected. -/
def found : Document → Except ReadError Found
  | .null => .ok .null
  | .bool b => .ok (.boolean b)
  | .num n => do
    let n ← n.reread
    .ok (.number n)
  | .str s => .ok (.string s)
  | .arr _ => .ok .sequence
  | .obj _ => .ok .map

/-- The error for a document in place of what is expected. -/
def unexpected {α : Type} (expected : String) (d : Document) : Except ReadError α := do
  let found ← d.found
  .error (.mismatch (.invalidType found expected))

/-- The text that a document must be. -/
def string : Document → Except ReadError String
  | .str s => .ok s
  | d => d.unexpected "a string"

/-- What a decoder gives, or nothing for `null`. -/
def optional {α : Type} (f : Document → Except ReadError α) : Document → Except ReadError (Option α)
  | .null => .ok none
  | d => do
    let a ← f d
    .ok (some a)

/-- A map with one more member decoded. -/
def mapMember {α : Type} (f : Document → Except ReadError α) (m : SortedMap α)
    (e : String × Document) : Except ReadError (SortedMap α) := do
  let a ← f e.2
  .ok (m.insert e.1 a)

/-- An object whose members are all decoded alike. -/
def map {α : Type} (f : Document → Except ReadError α) : Document → Except ReadError (SortedMap α)
  | .obj members => members.foldlM (mapMember f) ∅
  | d => d.unexpected "a map"

/-- The document of a member that may stand once. -/
def once {α : Type} (name : String) (seen : Option α) (f : Document → Except ReadError α)
    (d : Document) : Except ReadError (Option α) :=
  if seen.isSome then .error (.mismatch (.duplicateField name))
  else do
    let a ← f d
    .ok (some a)

end Document

namespace Reader

variable {α β σ : Type}

/-! ## Data -/

/-- A written number is read as the number that its literal stands for. -/
theorem readNumber_chars (n : Number) {rest : List Char} (hr : Ends rest) :
    readNumber (n.literal.chars ++ rest) = leaving rest n.reread := by
  rw [readNumber, readLiteral_chars _ n.literal_wellFormed hr, Number.reread]
  simp only [ok_bind]
  cases n.literal.number? <;> rfl

/-- A colon is read where it stands. -/
@[simp] theorem readColon_colon (text : List Char) : readColon (':' :: text) = .ok text := rfl

/-- Collecting decoded members from the front and turning them round is decoding them in order. -/
theorem foldlM_cons_reverse (f : α → Except ReadError β) :
    ∀ (items : List α) (done : List β),
      (items.foldlM (fun done a => do
        let b ← f a
        .ok (b :: done)) done >>= fun bs => .ok bs.reverse) =
        (items.mapM f >>= fun bs => .ok (done.reverse ++ bs))
  | [], done => by simp
  | a :: items, done => by
    rw [List.foldlM_cons, List.mapM_cons]
    cases f a with
    | error e => rfl
    | ok b =>
      simp only [ok_bind]
      rw [foldlM_cons_reverse f items (b :: done)]
      cases items.mapM f <;> simp

/-- Decoded members that were collected from the front are turned round at the end. -/
theorem foldlM_cons_collected {γ : Type} (f : α → Except ReadError β) (items : List α)
    (g : List β → γ) :
    (items.foldlM (fun done a => do
      let b ← f a
      .ok (b :: done)) [] >>= fun bs => .ok (g bs.reverse)) =
      (items.mapM f >>= fun bs => .ok (g bs)) := by
  have h := foldlM_cons_reverse f items []
  calc (items.foldlM _ [] >>= fun bs => .ok (g bs.reverse))
      = (items.foldlM _ [] >>= fun bs => .ok bs.reverse) >>= fun bs => .ok (g bs) := by
        rw [bind_assoc]; rfl
    _ = (items.mapM f >>= fun bs => .ok bs) >>= fun bs => .ok (g bs) := by
        rw [h]; rfl
    _ = (items.mapM f >>= fun bs => .ok (g bs)) := by rw [bind_assoc]; rfl

/-- A member is read with the value that is accepted. -/
theorem readNamed_compact {value : Reader Document} {depth : ℕ}
    (hvalue : Decodes value (Document.accept depth)) (done : List (String × Document))
    (m : String × Document) {rest : List Char} (hr : Ends rest) :
    readNamed value done m.1 (':' :: (m.2.compact ++ rest)) =
      leaving rest (Document.acceptMember depth m >>= fun m => .ok (m :: done)) := by
  unfold readNamed Document.acceptMember
  simp only [readColon_colon, ok_bind, hvalue m.2 rest hr]
  cases Document.accept depth m.2 <;> rfl

/-- A document is read as the document that is accepted. -/
theorem decodes_readDocument (depth : ℕ) :
    Decodes (readDocument depth) (Document.accept depth) := by
  -- By induction on the limit, not on the document: inside a bracket the limit is one less.
  induction depth using Nat.strongRecOn with
  | ind depth ih =>
    intro d rest hr
    rw [readDocument, skipBlank_compact]
    cases d with
    | null => cases depth <;> rfl
    | bool b => cases depth <;> cases b <;> rfl
    | num n =>
      -- Its first character is known only as a digit or a minus, which no other branch takes.
      obtain ⟨c, cs, hcs, hc⟩ := exists_cons_chars n.literal_wellFormed
      have hn := readNumber_chars n hr
      simp only [hcs, List.cons_append] at hn
      have haccept : Document.accept depth (.num n) = n.reread >>= fun n => .ok (.num n) := by
        cases depth <;> rfl
      simp only [Document.compact, hcs, List.cons_append, haccept]
      simp [digit_or_minus_ne hc, hc, hn]
      exact leaving_bind rest _ _ _ fun _ => rfl
    | str s =>
      have haccept : Document.accept depth (.str s) = .ok (.str s) := by cases depth <;> rfl
      simp [Document.compact, quote_eq, readText_quoted, haccept]
    | arr items =>
      cases depth with
      | zero => rfl
      | succ depth =>
        have hitems := readItems_compact (readDocument depth) (Document.accept depth) items rest
          fun d _ => ih depth (Nat.lt_succ_self _) d
        simp only [Document.compact, List.cons_append, List.append_assoc, List.nil_append, hitems]
        exact leaving_bind rest _ _ _ fun _ => rfl
    | obj members =>
      cases depth with
      | zero => rfl
      | succ depth =>
        have hmembers := readMembers_compact readText (readNamed (readDocument depth)) id
          (fun done m => do
            let m ← Document.acceptMember depth m
            .ok (m :: done))
          readText_quoted members [] rest fun done m _ rest hr =>
            readNamed_compact (ih depth (Nat.lt_succ_self _)) done m hr
        simp only [Document.compact, List.cons_append, List.append_assoc, List.nil_append]
        rw [hmembers, Document.accept_obj, ← foldlM_cons_collected _ members Document.obj]
        exact leaving_bind rest _ _ _ fun _ => rfl

/-! ## What is passed over -/

/-- A value is passed over where brackets may nest as deep as they do in it. -/
theorem skipNested_compact (depth : ℕ) : ∀ (d : Document) (rest : List Char), d.nesting ≤ depth →
    Ends rest → skipNested depth (d.compact ++ rest) = .ok rest := by
  -- The loops are those of reading, with items and members that decode to nothing and never fail.
  induction depth using Nat.strongRecOn with
  | ind depth ih =>
    intro d rest hd hr
    rw [skipNested, skipBlank_compact]
    cases d with
    | null => rfl
    | bool b => cases b <;> rfl
    | num n =>
      obtain ⟨c, cs, hcs, hc⟩ := exists_cons_chars n.literal_wellFormed
      have hn := readLiteral_chars .malformed n.literal_wellFormed hr
      simp only [hcs, List.cons_append] at hn
      simp only [Document.compact, hcs, List.cons_append]
      simp [digit_or_minus_ne hc, hc, skipNumber, hn]
    | str s => simp [Document.compact, quote_eq, skipText_quoted]
    | arr items =>
      obtain ⟨depth, rfl⟩ : ∃ n, depth = n + 1 :=
        ⟨depth - 1, by rw [Document.nesting] at hd; omega⟩
      have hle := Document.nestingItems_le.1 (Nat.le_of_succ_le_succ hd)
      have hitems := readItems_compact
        (fun text => do
          let rest ← skipNested depth text
          .ok ((), rest))
        (fun _ => .ok ()) items rest fun d hd rest hr => by
        rw [ih depth (Nat.lt_succ_self _) d rest (hle d hd) hr]
        rfl
      have hok : items.mapM (fun _ => (.ok () : Except ReadError Unit)) =
          .ok (items.map fun _ => ()) := List.mapM_pure
      simp only [Document.compact, List.cons_append, List.append_assoc, List.nil_append, hitems]
      rw [hok]
      rfl
    | obj members =>
      obtain ⟨depth, rfl⟩ : ∃ n, depth = n + 1 :=
        ⟨depth - 1, by rw [Document.nesting] at hd; omega⟩
      have hle := Document.nestingMembers_le.1 (Nat.le_of_succ_le_succ hd)
      have hmembers := readMembers_compact
        (fun text => do
          let rest ← skipText text
          .ok ((), rest))
        (fun _ _ text => do
          let text ← readColon text
          let rest ← skipNested depth text
          .ok ((), rest))
        (fun _ => ()) (fun _ _ => .ok ())
        (fun k rest => by rw [skipText_quoted]; rfl) members () rest fun _ m hm rest hr => by
          simp only [readColon_colon, ok_bind, ih depth (Nat.lt_succ_self _) m.2 rest (hle m hm) hr]
          rfl
      have hok : members.foldlM (fun _ _ => (.ok () : Except ReadError Unit)) () = .ok () :=
        List.foldlM_pure
      simp only [Document.compact, List.cons_append, List.append_assoc, List.nil_append]
      rw [hmembers, hok]
      rfl

/-- A value is passed over, however deep it is: its text is longer than it is deep. -/
theorem skipValue_compact (d : Document) {rest : List Char} (hr : Ends rest) :
    skipValue (d.compact ++ rest) = .ok rest := by
  apply skipNested_compact _ _ _ _ hr
  have h := d.nesting_le_length
  simp only [List.length_append]
  omega

/-- What is passed over is never refused. -/
theorem decodes_readSkipped : Decodes readSkipped fun _ => .ok () := by
  intro d rest hr
  rw [readSkipped, skipValue_compact d hr]
  rfl

/-- Reading data is decoding it. -/
theorem decodes_readData (depth : ℕ) : Decodes (readData depth) (Document.data depth) := by
  intro d rest hr
  rw [readData, decodes_readDocument depth d rest hr, Document.data]
  exact leaving_bind rest _ _ _ fun _ => rfl

/-! ## What is expected -/

/-- What the first character of a document says of the whole of it. -/
theorem opening (d : Document) :
    ∃ c cs, d.compact = c :: cs ∧ (c = 'n' → d = .null) ∧ (c = '"' → ∃ s, d = .str s) ∧
      (c = '[' → ∃ items, d = .arr items) ∧ (c = '\x7b' → ∃ members, d = .obj members) := by
  obtain ⟨c, cs, hcs, hc⟩ := exists_cons_compact d
  have hkind : ∀ {k : Document.Kind}, Document.Kind.ofChar? c = some k → d.kind = k := fun h =>
    Option.some.inj (hc.symm.trans h)
  refine ⟨c, cs, hcs, ?_, ?_, ?_, ?_⟩ <;> rintro rfl <;> have h := hkind rfl <;> cases d <;>
    simp_all [Document.kind]

/-- What is found at a place is told by the document that stands there. -/
theorem readFound_compact (d : Document) {rest : List Char} (hr : Ends rest) :
    readFound (d.compact ++ rest) = d.found := by
  rw [readFound, skipBlank_compact]
  cases d with
  | null => rfl
  | bool b => cases b <;> rfl
  | num n =>
    obtain ⟨c, cs, hcs, hc⟩ := exists_cons_chars n.literal_wellFormed
    have hn := readNumber_chars n hr
    simp only [hcs, List.cons_append] at hn
    simp only [Document.compact, hcs, List.cons_append, Document.found]
    simp [digit_or_minus_ne hc, hc, hn]
    cases n.reread <;> rfl
  | str s => simp [Document.compact, quote_eq, readText_quoted, Document.found]
  | arr items => rfl
  | obj members => rfl

/-- A document is refused with what it is and what is expected. -/
theorem readUnexpected_compact (expected : String) (d : Document) {rest : List Char}
    (hr : Ends rest) :
    readUnexpected expected (d.compact ++ rest) =
      (d.unexpected expected : Except ReadError α) := by
  rw [readUnexpected, readFound_compact d hr, Document.unexpected]

/-- A refusal leaves nothing to go on with. -/
theorem leaving_unexpected (rest : List Char) (expected : String) (d : Document) :
    leaving rest (d.unexpected expected : Except ReadError α) = d.unexpected expected := by
  rw [Document.unexpected, Document.unexpected]
  cases d.found <;> rfl

/-- Nothing is made of a refusal. -/
theorem unexpected_bind (expected : String) (d : Document) (f : α → Except ReadError β) :
    (d.unexpected expected >>= f) = d.unexpected expected := by
  rw [Document.unexpected, Document.unexpected]
  cases d.found <;> rfl

/-- Reading a text is decoding it. -/
theorem decodes_readString : Decodes readString Document.string := by
  intro d rest hr
  rw [readString, skipBlank_compact]
  by_cases hd : ∃ s, d = .str s
  · obtain ⟨s, rfl⟩ := hd
    simp [Document.compact, quote_eq, readText_quoted, Document.string]
  · -- Any other document begins with another character than a quote, and is refused.
    obtain ⟨c, cs, hcs, -, hstr, -, -⟩ := opening d
    have hc : c ≠ '"' := fun h => hd (hstr h)
    have hf : d.string = d.unexpected "a string" := by
      cases d with
      | str s => exact absurd ⟨s, rfl⟩ hd
      | _ => rfl
    rw [hf, leaving_unexpected, ← readUnexpected_compact "a string" d hr, hcs]
    simp [hc]

variable {r : Reader α} {f : Document → Except ReadError α}

/-- A reader that admits `null` decodes what the reader of the rest decodes. -/
theorem decodes_readOptional (h : Decodes r f) :
    Decodes (readOptional r) (Document.optional f) := by
  intro d rest hr
  rw [readOptional, skipBlank_compact]
  by_cases hd : d = .null
  · subst hd
    rfl
  · obtain ⟨c, cs, hcs, hnull, -, -, -⟩ := opening d
    have hc : c ≠ 'n' := fun h => hd (hnull h)
    have hf : Document.optional f d = (f d >>= fun a => .ok (some a)) := by
      cases d with
      | null => exact absurd rfl hd
      | _ => rfl
    have hd' := h d rest hr
    rw [hcs] at hd' ⊢
    simp only [List.cons_append] at hd'
    simp only [List.cons_append, hf]
    simp [hc, hd']
    exact leaving_bind rest _ _ _ fun _ => rfl

/-- The members of an object are decoded one after the other, by a reader that goes on from the
name of a member. -/
theorem readMembers_object (member : σ → String → Reader σ)
    (step : σ → String × Document → Except ReadError σ)
    (h : ∀ s k d rest, Ends rest →
      member s k (':' :: (d.compact ++ rest)) = leaving rest (step s (k, d)))
    (members : List (String × Document)) (s : σ) (rest : List Char) :
    readMembers readText member (Document.compactMembers members ++ '\x7d' :: rest).length true s
      (Document.compactMembers members ++ '\x7d' :: rest) =
        leaving rest (members.foldlM step s) :=
  readMembers_compact readText member id step readText_quoted members s rest
    fun s m _ => h s m.1 m.2

/-- A reader of objects that refuses everything else decodes the members of an object. -/
theorem decodes_object {body : Reader α} {g : List (String × Document) → Except ReadError α}
    (expected : String)
    (hbody : ∀ members rest,
      body (Document.compactMembers members ++ '\x7d' :: rest) = leaving rest (g members)) :
    Decodes
      (fun text => match skipBlank text with
        | '\x7b' :: rest => body rest
        | text => readUnexpected expected text)
      (fun d => match d with
        | .obj members => g members
        | d => d.unexpected expected) := by
  intro d rest hr
  simp only [skipBlank_compact]
  by_cases hd : ∃ members, d = .obj members
  · obtain ⟨members, rfl⟩ := hd
    simp only [Document.compact, List.cons_append, List.append_assoc, List.nil_append, hbody]
  · obtain ⟨c, cs, hcs, -, -, -, hobj⟩ := opening d
    have hc : c ≠ '\x7b' := fun h => hd (hobj h)
    have hf : (match d with
        | .obj members => g members
        | d => d.unexpected expected) = d.unexpected expected := by
      cases d with
      | obj members => exact absurd ⟨members, rfl⟩ hd
      | _ => rfl
    rw [hf, leaving_unexpected, ← readUnexpected_compact expected d hr, hcs]
    simp [hc]

/-- A reader of arrays and objects that refuses everything else decodes the items of an array or the
members of an object. -/
theorem decodes_structure (parts fields : Reader α) (g : List Document → Except ReadError α)
    (k : List (String × Document) → Except ReadError α) (expected : String)
    (hparts : ∀ items rest,
      parts (Document.compactItems items ++ ']' :: rest) = leaving rest (g items))
    (hfields : ∀ members rest,
      fields (Document.compactMembers members ++ '\x7d' :: rest) = leaving rest (k members)) :
    Decodes
      (fun text => match skipBlank text with
        | '[' :: rest => parts rest
        | '\x7b' :: rest => fields rest
        | text => readUnexpected expected text)
      (fun d => match d with
        | .arr items => g items
        | .obj members => k members
        | d => d.unexpected expected) := by
  intro d rest hr
  simp only [skipBlank_compact]
  by_cases hd : (∃ items, d = .arr items) ∨ ∃ members, d = .obj members
  · obtain ⟨items, rfl⟩ | ⟨members, rfl⟩ := hd
    · simp only [Document.compact, List.cons_append, List.append_assoc, List.nil_append, hparts]
    · simp only [Document.compact, List.cons_append, List.append_assoc, List.nil_append, hfields]
  · obtain ⟨c, cs, hcs, -, -, harr, hobj⟩ := opening d
    have hbracket : c ≠ '[' := fun h => hd (.inl (harr h))
    have hbrace : c ≠ '\x7b' := fun h => hd (.inr (hobj h))
    have hf : (match d with
        | .arr items => g items
        | .obj members => k members
        | d => d.unexpected expected) = d.unexpected expected := by
      cases d with
      | arr items => exact absurd (.inl ⟨items, rfl⟩) hd
      | obj members => exact absurd (.inr ⟨members, rfl⟩) hd
      | _ => rfl
    rw [hf, leaving_unexpected, ← readUnexpected_compact expected d hr, hcs]
    simp [hbracket, hbrace]

/-- A reader of maps decodes each value as the reader of values does. -/
theorem decodes_readMap (h : Decodes r f) : Decodes (readMap r) (Document.map f) := by
  refine decodes_object "a map" fun members rest => ?_
  refine readMembers_object _ (Document.mapMember f) (fun m k d rest hr => ?_) members ∅ rest
  simp only [readColon_colon, ok_bind, h d rest hr, Document.mapMember]
  exact leaving_bind rest _ _ _ fun _ => rfl

/-- A member that may stand once is read as it is decoded. -/
theorem readOnce_compact (h : Decodes r f) (name : String) (seen : Option α) (d : Document)
    {rest : List Char} (hr : Ends rest) :
    readOnce name seen r (':' :: (d.compact ++ rest)) =
      leaving rest (Document.once name seen f d) := by
  unfold readOnce Document.once
  split_ifs with hs
  · rfl
  · simp only [readColon_colon, ok_bind, h d rest hr]
    exact leaving_bind rest _ _ _ fun _ => rfl

/-- The name of a member is read where it is written. -/
theorem readName_quote (name : String) (rest : List Char) :
    readName (quote name ++ rest) = .ok (name, rest) := by
  rw [readName, ((leads_quote name).append rest).skipBlank, quote_eq, List.cons_append]
  exact readText_quoted name rest

/-- A member that is passed over changes nothing. -/
theorem skipMember_compact (s : σ) (d : Document) {rest : List Char} (hr : Ends rest) :
    skipMember s (':' :: (d.compact ++ rest)) = leaving rest (.ok s) := by
  rw [skipMember]
  simp [skipValue_compact d hr]

end Reader

end FlatChart
