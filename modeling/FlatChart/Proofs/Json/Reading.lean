import FlatChart.Json.Reader.Field
import FlatChart.Proofs.Json.Lexical
import FlatChart.Proofs.Json.Nesting

/-!
# Reading is decoding

A reader runs over characters with fuel; a decoder is a function of the document that the characters
were written from. `Decodes r f` says that on compact text the reader `r` does what the decoder `f`
does, errors included, and leaves the characters after the document. The loops over arrays and
objects decode item by item (`readItems_compact`, `readMembers_compact`), so every reader built from
them has a decoder built the same way.
-/

namespace FlatChart

namespace Reader

variable {α β σ κ : Type}

/-- On the compact text of a document, the reader does what the decoder does. -/
def Decodes (r : Reader α) (f : Document → Except ReadError α) : Prop :=
  ∀ (d : Document) (rest : List Char), Ends rest → r (d.compact ++ rest) = leaving rest (f d)

/-! ## How documents begin -/

end Reader

namespace Document

/-- What the first character of a document tells. -/
inductive Kind where
  | null
  | bool (value : Bool)
  | num
  | str
  | arr
  | obj

/-- The kind of a document. -/
def kind : Document → Kind
  | .null => .null
  | .bool b => .bool b
  | .num _ => .num
  | .str _ => .str
  | .arr _ => .arr
  | .obj _ => .obj

/-- The kind of the documents that begin with a character, if there are any. -/
def Kind.ofChar? (c : Char) : Option Kind :=
  if c = 'n' then some .null
  else if c = 't' then some (.bool true)
  else if c = 'f' then some (.bool false)
  else if c = '"' then some .str
  else if c = '[' then some .arr
  else if c = '\x7b' then some .obj
  else if c = '-' ∨ c.isDigit = true then some .num
  else none

end Document

namespace Reader

/-- A character that begins a number begins no other value. -/
theorem digit_or_minus_ne {c d : Char} (hc : c = '-' ∨ c.isDigit = true) (hd : d ≠ '-')
    (hdigit : d.isDigit = false) : c ≠ d := by
  rintro rfl
  rcases hc with hc | hc
  · exact hd hc
  · rw [hdigit] at hc
    exact absurd hc (by decide)

/-- A document begins with a character of its kind. -/
theorem exists_cons_compact (d : Document) :
    ∃ c cs, d.compact = c :: cs ∧ Document.Kind.ofChar? c = some d.kind := by
  cases d with
  | null => exact ⟨'n', _, rfl, rfl⟩
  | bool b =>
    cases b with
    | false => exact ⟨'f', _, rfl, rfl⟩
    | true => exact ⟨'t', _, rfl, rfl⟩
  | num n =>
    obtain ⟨c, cs, hcs, hc⟩ := exists_cons_chars n.literal_wellFormed
    exact ⟨c, cs, hcs, by simp [Document.Kind.ofChar?, Document.kind, digit_or_minus_ne hc, hc]⟩
  | str s => exact ⟨'"', _, rfl, rfl⟩
  | arr items => exact ⟨'[', _, rfl, rfl⟩
  | obj members => exact ⟨'\x7b', _, rfl, rfl⟩

/-- The text begins with a character that stands at the front of a value. -/
def Leads (text : List Char) : Prop :=
  ∃ c rest, text = c :: rest ∧ (Document.Kind.ofChar? c).isSome = true

/-- What begins a value still begins it with more text after it. -/
theorem Leads.append {text : List Char} (h : Leads text) (rest : List Char) :
    Leads (text ++ rest) := by
  obtain ⟨c, cs, rfl, hc⟩ := h
  exact ⟨c, cs ++ rest, rfl, hc⟩

/-- A quoted text begins a value. -/
theorem leads_quote (s : String) : Leads (quote s) := ⟨'"', quoted s, quote_eq s, rfl⟩

/-- The text of a document begins a value. -/
theorem leads_compact (d : Document) : Leads d.compact := by
  obtain ⟨c, cs, hcs, hc⟩ := exists_cons_compact d
  exact ⟨c, cs, hcs, by rw [hc]; rfl⟩

/-- No value begins with a blank. -/
theorem isBlank_of_ofChar? {c : Char} (hc : (Document.Kind.ofChar? c).isSome = true) :
    isBlank c = false := by
  simp only [isBlank, Bool.or_eq_false_iff, beq_eq_false_iff_ne]
  refine ⟨⟨⟨?_, ?_⟩, ?_⟩, ?_⟩ <;> rintro rfl <;> exact absurd hc (by decide)

/-- There are no blanks in front of a value. -/
theorem Leads.skipBlank {text : List Char} (h : Leads text) : skipBlank text = text := by
  obtain ⟨c, rest, rfl, hc⟩ := h
  simp [Reader.skipBlank, isBlank_of_ofChar? hc]

/-- There are no blanks in front of a document. -/
@[simp] theorem skipBlank_compact (d : Document) (rest : List Char) :
    skipBlank (d.compact ++ rest) = d.compact ++ rest := ((leads_compact d).append rest).skipBlank

/-- A gap is passed over. -/
@[simp] theorem skipBlank_gap (g : Gap) (text : List Char) :
    skipBlank (g.chars ++ text) = skipBlank text := by
  induction g with
  | nil => rfl
  | cons b g ih =>
    have hb : isBlank b.char = true := by cases b <;> rfl
    rw [← ih]
    simp [Gap.chars, skipBlank, hb]

/-- A closing bracket. -/
def IsClose (c : Char) : Prop := c = ']' ∨ c = '\x7d'

/-- The bracket that closes an array. -/
theorem isClose_bracket : IsClose ']' := .inl rfl

/-- The bracket that closes an object. -/
theorem isClose_brace : IsClose '\x7d' := .inr rfl

/-- A closing bracket may follow a value. -/
theorem IsClose.ends {close : Char} (hclose : IsClose close) (rest : List Char) :
    Ends (close :: rest) := by
  rcases hclose with rfl | rfl
  · exact ends_bracket rest
  · exact ends_brace rest

/-- No value begins with a closing bracket. -/
theorem Leads.ne_close {text : List Char} (h : Leads text) {close : Char} (hclose : IsClose close)
    (rest : List Char) : text ≠ close :: rest := by
  obtain ⟨c, cs, rfl, hc⟩ := h
  intro heq
  obtain rfl := (List.cons.inj heq).1
  rcases hclose with rfl | rfl <;> exact absurd hc (by decide)

/-- After an opening bracket, what begins a value is the first entry. -/
theorem readNext_first {text : List Char} (h : Leads text) {close : Char} (hclose : IsClose close) :
    readNext close true text = .ok (.entry text) := by
  obtain ⟨c, rest, rfl, -⟩ := id h
  have hne : c ≠ close := fun hc => h.ne_close hclose rest (by rw [hc])
  simp [readNext, h.skipBlank, hne]

/-- After a comma and a gap, what begins a value is the next entry. -/
theorem readNext_comma {text : List Char} (h : Leads text) {close : Char} (hclose : IsClose close)
    (g : Gap) : readNext close false (',' :: (g.chars ++ text)) = .ok (.entry text) := by
  have hskip : Reader.skipBlank (',' :: (g.chars ++ text)) = ',' :: (g.chars ++ text) := by
    simp [Reader.skipBlank, isBlank]
  have hcomma : ',' ≠ close := by rcases hclose with rfl | rfl <;> decide
  have htext : Reader.skipBlank (g.chars ++ text) = text := by rw [skipBlank_gap, h.skipBlank]
  obtain ⟨c, rest, rfl, -⟩ := id h
  have hne : c ≠ close := fun hc => h.ne_close hclose rest (by rw [hc])
  simp [readNext, hskip, htext, hcomma, hne]

/-- At the closing bracket no entry is left. -/
theorem readNext_close (first : Bool) {close : Char} (hclose : IsClose close) (rest : List Char) :
    readNext close first (close :: rest) = .ok (.closed rest) := by
  have hblank : isBlank close = false := by rcases hclose with rfl | rfl <;> decide
  simp [readNext, skipBlank, hblank]

/-- A gap changes nothing of what comes next. -/
@[simp] theorem readNext_gap (close : Char) (first : Bool) (g : Gap) (text : List Char) :
    readNext close first (g.chars ++ text) = readNext close first text := by
  rw [readNext, skipBlank_gap, ← readNext]

/-! ## Entries between brackets -/

section Entries

variable {ε : Type} {gaps : ε → Gap × Gap} {text : ε → List Char} {close : Char}

/-- After an entry there is a comma, the closing bracket, or a blank. -/
theorem ends_spaced (gaps : ε → Gap × Gap) (text : ε → List Char) (hclose : IsClose close)
    (entries : List ε) (last : Gap) (rest : List Char) :
    Ends (spaced gaps text false entries ++ (last.chars ++ close :: rest)) := by
  cases entries with
  | nil => exact ends_gap last (hclose.ends rest)
  | cons e entries =>
    rw [spaced, List.append_assoc]
    exact ends_gap _ (ends_comma _)

/-- Every entry has at least one character. -/
theorem length_le_spaced (gaps : ε → Gap × Gap) (htext : ∀ e, Leads (text e)) (first : Bool)
    (entries : List ε) : entries.length ≤ (spaced gaps text first entries).length := by
  induction entries generalizing first with
  | nil => exact Nat.zero_le _
  | cons e entries ih =>
    have hrest := ih false
    obtain ⟨c, cs, hc, -⟩ := htext e
    simp only [spaced, hc, List.length_append, List.length_cons]
    omega

/-- There is a closing bracket after the entries. -/
theorem length_lt_spaced (gaps : ε → Gap × Gap) (htext : ∀ e, Leads (text e)) (first : Bool)
    (close : Char) (entries : List ε) (last : Gap) (rest : List Char) :
    entries.length < (spaced gaps text first entries ++ (last.chars ++ close :: rest)).length := by
  have hle := length_le_spaced gaps htext first entries
  simp only [List.length_append, List.length_cons]
  omega

/-- What follows the opening bracket or an entry. -/
theorem readNext_spaced (gaps : ε → Gap × Gap) (htext : ∀ e, Leads (text e))
    (hclose : IsClose close) (first : Bool) (entries : List ε) (last : Gap) (rest : List Char) :
    readNext close first (spaced gaps text first entries ++ (last.chars ++ close :: rest)) =
      match entries with
      | [] => .ok (.closed rest)
      | e :: entries =>
        .ok (.entry (text e ++ (spaced gaps text false entries ++
          (last.chars ++ close :: rest)))) := by
  cases entries with
  | nil =>
    rw [spaced, List.nil_append, readNext_gap]
    exact readNext_close first hclose rest
  | cons e entries =>
    have hleads :=
      (htext e).append (spaced gaps text false entries ++ (last.chars ++ close :: rest))
    simp only [spaced, List.append_assoc, readNext_gap]
    cases first with
    | true =>
      simp only [if_true, List.nil_append, readNext_gap]
      exact readNext_first hleads hclose
    | false =>
      simp only [Bool.false_eq_true, if_false, List.singleton_append]
      exact readNext_comma hleads hclose _

/-- The texts of entries with a comma before each one. -/
def further (text : ε → List Char) (entries : List ε) : List Char :=
  entries.flatMap fun e => ',' :: text e

/-- The texts of entries with a comma between any two. -/
def joined (text : ε → List Char) : List ε → List Char
  | [] => []
  | e :: entries => text e ++ further text entries

/-- The gaps of compact text, which are empty. -/
def unspaced (_ : ε) : Gap × Gap := ([], [])

/-- Entries with a comma before each one are spaced without blanks. -/
theorem further_eq_spaced (text : ε → List Char) (entries : List ε) :
    further text entries = spaced unspaced text false entries := by
  induction entries with
  | nil => rfl
  | cons e entries ih =>
    rw [spaced, ← ih]
    rfl

/-- Entries with a comma between any two are spaced without blanks. -/
theorem joined_eq_spaced (text : ε → List Char) (entries : List ε) :
    joined text entries = spaced unspaced text true entries := by
  cases entries with
  | nil => rfl
  | cons e entries =>
    rw [joined, further_eq_spaced]
    rfl

/-- After an entry there is a comma or the closing bracket. -/
theorem ends_further (text : ε → List Char) (hclose : IsClose close) (entries : List ε)
    (rest : List Char) :
    Ends (further text entries ++ close :: rest) := by
  rw [further_eq_spaced]
  exact ends_spaced unspaced text hclose entries [] rest

/-- What follows the opening bracket. -/
theorem readNext_joined (htext : ∀ e, Leads (text e)) (hclose : IsClose close) (entries : List ε)
    (rest : List Char) :
    readNext close true (joined text entries ++ close :: rest) =
      match entries with
      | [] => .ok (.closed rest)
      | e :: entries => .ok (.entry (text e ++ (further text entries ++ close :: rest))) := by
  simp only [joined_eq_spaced, further_eq_spaced]
  exact readNext_spaced unspaced htext hclose true entries [] rest

/-- What follows an entry. -/
theorem readNext_further (htext : ∀ e, Leads (text e)) (hclose : IsClose close) (entries : List ε)
    (rest : List Char) :
    readNext close false (further text entries ++ close :: rest) =
      match entries with
      | [] => .ok (.closed rest)
      | e :: entries => .ok (.entry (text e ++ (further text entries ++ close :: rest))) := by
  simp only [further_eq_spaced]
  exact readNext_spaced unspaced htext hclose false entries [] rest

end Entries

end Reader

namespace Document

open Reader

/-- The text of a member. -/
def compactMember (m : String × Document) : List Char := quote m.1 ++ ':' :: m.2.compact

/-- The text of a member begins a value, as its name is a text. -/
theorem leads_compactMember (m : String × Document) : Leads (compactMember m) :=
  (leads_quote m.1).append _

/-- The text of the items of an array. -/
theorem compactItems_eq_joined (items : List Document) :
    compactItems items = joined compact items := by
  cases items with
  | nil => rfl
  | cons d items =>
    induction items generalizing d with
    | nil => simp [compactItems, joined, further]
    | cons e items ih =>
      rw [compactItems, ih e]
      simp [joined, further]

/-- The text of the members of an object. -/
theorem compactMembers_eq_joined (members : List (String × Document)) :
    compactMembers members = joined compactMember members := by
  cases members with
  | nil => rfl
  | cons m members =>
    induction members generalizing m with
    | nil =>
      obtain ⟨k, d⟩ := m
      simp [compactMembers, joined, further, compactMember]
    | cons e members ih =>
      obtain ⟨k, d⟩ := m
      rw [compactMembers, ih e]
      simp [joined, further, compactMember]

end Document

namespace Reader

/-! ## The loops -/

section Items

variable {ε : Type} {text : ε → List Char} (item : Reader α) (f : ε → Except ReadError α)

/-- The items of an array are read one after the other, wherever blanks stand between them. -/
theorem readItems_spaced (gaps : ε → Gap × Gap) (htext : ∀ e, Leads (text e)) (last : Gap)
    (rest : List Char) :
    ∀ (items : List ε) (fuel : ℕ) (first : Bool), items.length < fuel →
      (∀ e ∈ items, ∀ rest, Ends rest → item (text e ++ rest) = leaving rest (f e)) →
      readItems item fuel first (spaced gaps text first items ++ (last.chars ++ ']' :: rest)) =
        leaving rest (items.mapM f)
  | [], fuel + 1, first, _, _ => by
    rw [readItems, readNext_spaced gaps htext isClose_bracket]
    rfl
  | e :: items, fuel + 1, first, hfuel, hitem => by
    have ih := readItems_spaced gaps htext last rest items fuel false (by simpa using hfuel)
      fun d hd => hitem d (List.mem_cons_of_mem _ hd)
    have he := hitem e (List.mem_cons_self ..) _
      (ends_spaced gaps text isClose_bracket items last rest)
    rw [readItems, readNext_spaced gaps htext isClose_bracket]
    simp only [ok_bind, he, List.mapM_cons]
    cases f e with
    | error _ => rfl
    | ok a =>
      simp only [leaving_ok, ok_bind, ih]
      cases items.mapM f <;> rfl

/-- The items of an array are decoded one after the other. -/
theorem readItems_compact (item : Reader α) (f : Document → Except ReadError α)
    (items : List Document) (rest : List Char)
    (hitem : ∀ d ∈ items, ∀ rest, Ends rest → item (d.compact ++ rest) = leaving rest (f d)) :
    readItems item (Document.compactItems items ++ ']' :: rest).length true
      (Document.compactItems items ++ ']' :: rest) = leaving rest (items.mapM f) := by
  rw [Document.compactItems_eq_joined, joined_eq_spaced]
  have hfuel := length_lt_spaced unspaced leads_compact true ']' items [] rest
  exact readItems_spaced item f unspaced leads_compact [] rest items _ true hfuel hitem

end Items

section Members

variable (name : Reader κ) (member : σ → κ → Reader σ)

/-- The members of an object are read one after the other, each with what the ones before it gave,
wherever blanks stand between them. -/
theorem readMembers_spaced {ε : Type} (gaps : ε → Gap × Gap) (tail : ε → List Char)
    (step : σ → ε → Except ReadError σ) (last : Gap) (rest : List Char) :
    ∀ (members : List ε) (fuel : ℕ) (first : Bool) (s : σ), members.length < fuel →
      (∀ e ∈ members, ∀ s rest, Ends rest →
        (name (tail e ++ rest) >>= fun (k, rest) => member s k rest) = leaving rest (step s e)) →
      readMembers name member fuel first s
          (spaced gaps (fun e => '"' :: tail e) first members ++ (last.chars ++ '\x7d' :: rest)) =
        leaving rest (members.foldlM step s)
  | [], fuel + 1, first, s, _, _ => by
    rw [readMembers, readNext_spaced gaps (fun e => ⟨'"', tail e, rfl, rfl⟩) isClose_brace]
    rfl
  | e :: members, fuel + 1, first, s, hfuel, hmember => by
    have ih := fun s => readMembers_spaced gaps tail step last rest members fuel false s
      (by simpa using hfuel) fun d hd => hmember d (List.mem_cons_of_mem _ hd)
    have he := hmember e (List.mem_cons_self ..) s _
      (ends_spaced gaps (fun e => '"' :: tail e) isClose_brace members last rest)
    rw [readMembers, readNext_spaced gaps (fun e => ⟨'"', tail e, rfl, rfl⟩) isClose_brace]
    simp only [ok_bind, List.cons_append]
    -- The name and the value are read in one go, as in the hypothesis.
    calc (name _ >>= fun (k, rest) => member s k rest >>= fun (s, rest) =>
            readMembers name member fuel false s rest)
        = (name _ >>= fun (k, rest) => member s k rest) >>= fun (s, rest) =>
            readMembers name member fuel false s rest := by rw [bind_assoc]
      _ = leaving rest ((e :: members).foldlM step s) := by
        rw [he, List.foldlM_cons]
        cases step s e with
        | error _ => rfl
        | ok s => exact ih s

/-- The members of an object are decoded one after the other, each with what the ones before it
gave. -/
theorem readMembers_compact (key : String → κ)
    (step : σ → String × Document → Except ReadError σ)
    (hname : ∀ k rest, name (quoted k ++ rest) = .ok (key k, rest))
    (members : List (String × Document)) (s : σ) (rest : List Char)
    (hmember : ∀ s, ∀ m ∈ members, ∀ rest, Ends rest →
      member s (key m.1) (':' :: (m.2.compact ++ rest)) = leaving rest (step s m)) :
    readMembers name member (Document.compactMembers members ++ '\x7d' :: rest).length true s
      (Document.compactMembers members ++ '\x7d' :: rest) =
        leaving rest (members.foldlM step s) := by
  have hfuel := length_lt_spaced unspaced Document.leads_compactMember true '\x7d' members [] rest
  have htext : Document.compactMember = fun m => '"' :: (quoted m.1 ++ ':' :: m.2.compact) := rfl
  rw [Document.compactMembers_eq_joined, joined_eq_spaced]
  rw [htext] at hfuel ⊢
  refine readMembers_spaced name member unspaced _ step [] rest members _ true s hfuel ?_
  intro m hm s rest hr
  simp only [List.append_assoc, List.cons_append, hname, ok_bind, hmember s m hm rest hr]

end Members

end Reader

end FlatChart
