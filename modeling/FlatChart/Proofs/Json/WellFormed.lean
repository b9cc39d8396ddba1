import FlatChart.Proofs.Json.Settled
import FlatChart.Proofs.Json.Tokens

/-!
# What is read is well formed

A reader that succeeds has a layout in front of it, maybe after blanks, and leaves what follows the
layout (`Takes`). A loop over items or members takes them up to their bracket when the reader of one
takes a layout, and the readers of values follow by induction on how deep brackets may nest. Of
values that are passed over the converse holds as well: they are the well-formed ones, and nothing
else is asked of them (`skipValue_eq_ok_iff`).
-/

namespace FlatChart.Reader

variable {α σ κ : Type}

/-! ## Layouts -/

/-- A layout stands between what there is before and what is left after, maybe behind blanks. -/
def Laid (text rest : List Char) : Prop :=
  ∃ (gap : Gap) (w : Layout), text = gap.chars ++ (w.chars ++ rest)

/-- A colon and a layout stand there, as after the name of a member. -/
def LaidUnder (text rest : List Char) : Prop :=
  ∃ (colon : Gap) (after : List Char), text = colon.chars ++ ':' :: after ∧ Laid after rest

/-- What is left of an array stands there, up to its bracket. -/
def LaidItems (first : Bool) (text rest : List Char) : Prop :=
  ∃ items last, text = Layout.itemsChars first items ++ (Gap.chars last ++ ']' :: rest)

/-- What is left of an object stands there, up to its bracket. -/
def LaidMembers (first : Bool) (text rest : List Char) : Prop :=
  ∃ members last, text = Layout.membersChars first members ++ (Gap.chars last ++ '\x7d' :: rest)

/-- Wherever the reader succeeds it takes a layout. -/
def Takes (r : Reader α) : Prop := ∀ ⦃text a rest⦄, r text = .ok (a, rest) → Laid text rest

/-- Wherever the reader of a member succeeds it takes a colon and a layout. -/
def TakesUnder (member : σ → κ → Reader σ) : Prop :=
  ∀ ⦃s k text s' rest⦄, member s k text = .ok (s', rest) → LaidUnder text rest

/-- Wherever the reader of a name succeeds it takes a quoted text after its opening quote. -/
def TakesName (name : Reader κ) : Prop :=
  ∀ ⦃text k rest⦄, name text = .ok (k, rest) → ∃ pieces, text = closing pieces ++ rest

variable {text after rest : List Char}

/-- What begins with a layout after its blanks begins with one. -/
theorem laid_of_skipBlank (h : Laid (skipBlank text) rest) : Laid text rest := by
  obtain ⟨gap, hgap⟩ := exists_gap text
  obtain ⟨more, w, hw⟩ := h
  refine ⟨gap ++ more, w, ?_⟩
  rw [hgap, hw]
  simp [Gap.chars]

/-- A layout that stands at the front after the blanks stands there. -/
theorem laid_of_eq (w : Layout) (h : skipBlank text = w.chars ++ rest) : Laid text rest :=
  laid_of_skipBlank ⟨[], w, h⟩

/-- A word that is read is a layout. -/
theorem laid_of_word (w : Layout) {c : Char} {word : List Char} (hw : w.chars = c :: word)
    (hskip : skipBlank text = c :: after) (h : readWord word after = .ok rest) :
    Laid text rest := by
  refine laid_of_eq w ?_
  rw [hskip, of_readWord h, hw, List.cons_append]

/-- A quoted text is a layout. -/
theorem laid_of_closing (hskip : skipBlank text = '"' :: after)
    (h : ∃ pieces, after = closing pieces ++ rest) : Laid text rest := by
  obtain ⟨pieces, rfl⟩ := h
  exact laid_of_eq (.str pieces) hskip

/-- An array is a layout. -/
theorem laid_of_items (hskip : skipBlank text = '[' :: after) (h : LaidItems true after rest) :
    Laid text rest := by
  obtain ⟨items, last, rfl⟩ := h
  exact laid_of_eq (.arr items last) (by simp [hskip, Layout.chars])

/-- An object is a layout. -/
theorem laid_of_members (hskip : skipBlank text = '\x7b' :: after)
    (h : LaidMembers true after rest) : Laid text rest := by
  obtain ⟨members, last, rfl⟩ := h
  exact laid_of_eq (.obj members last) (by simp [hskip, Layout.chars])

/-- After a colon that is read a layout is one under a name. -/
theorem laidUnder_of_readColon (hcolon : readColon text = .ok after) (h : Laid after rest) :
    LaidUnder text rest := by
  obtain ⟨colon, rfl⟩ := of_readColon hcolon
  exact ⟨colon, after, rfl, h⟩

/-! ## Loops -/

/-- What follows inside brackets is the closing bracket after a gap, or an entry after the gaps on
either side of its comma. -/
theorem of_readNext {close : Char} {first : Bool} {next : Next}
    (h : readNext close first text = .ok next) :
    match next with
    | .closed rest => ∃ gap : Gap, text = gap.chars ++ close :: rest
    | .entry after => ∃ gaps : Gap × Gap, text =
        gaps.1.chars ++ ((if first then [] else [',']) ++ (gaps.2.chars ++ after)) := by
  obtain ⟨gap, hgap⟩ := exists_gap text
  rw [readNext] at h
  split at h
  · cases h
  · next c rest hskip =>
    rw [hskip] at hgap
    split_ifs at h with hclose hfirst hcomma
    · cases h
      exact ⟨gap, by rw [hgap, hclose]⟩
    · cases h
      exact ⟨(gap, []), by simp [hgap, hfirst, Gap.chars]⟩
    · obtain ⟨more, hmore⟩ := exists_gap rest
      split at h
      · cases h
      · next d rest' hskip' =>
        rw [hskip'] at hmore
        split_ifs at h with hclose'
        cases h
        exact ⟨(gap, more), by simp [hgap, hfirst, hcomma, hmore]⟩

/-- Where the array is closed no item is left. -/
theorem laidItems_of_closed {first : Bool} (h : readNext ']' first text = .ok (.closed rest)) :
    LaidItems first text rest := by
  obtain ⟨gap, rfl⟩ := of_readNext h
  exact ⟨[], gap, rfl⟩

/-- Where there is an item, it stands before those that are left. -/
theorem laidItems_of_entry {first : Bool} {left : List Char}
    (h : readNext ']' first text = .ok (.entry after)) (hitem : Laid after left)
    (hleft : LaidItems false left rest) : LaidItems first text rest := by
  obtain ⟨gaps, rfl⟩ := of_readNext h
  obtain ⟨gap, w, rfl⟩ := hitem
  obtain ⟨items, last, rfl⟩ := hleft
  exact ⟨((gaps.1, gaps.2 ++ gap), w) :: items, last, by simp [Layout.itemsChars, Gap.chars]⟩

/-- Where no item is left, the array is closed. -/
theorem laidItems_of_readArrayEnd (h : readArrayEnd text = .ok rest) :
    LaidItems false text rest := by
  obtain ⟨gap, hgap⟩ := exists_gap text
  rw [readArrayEnd] at h
  split at h
  · cases h
  · next hskip =>
    cases h
    exact ⟨[], gap, by rw [hgap, hskip]; rfl⟩
  · cases h

/-- The items of an array stand where a loop reads them. -/
theorem laidItems_of_readItems {item : Reader α} (hitem : Takes item) (fuel : ℕ) :
    ∀ {first text xs}, readItems item fuel first text = .ok (xs, rest) →
      LaidItems first text rest := by
  induction fuel with
  | zero => exact fun h => nomatch h
  | succ fuel ih =>
    intro first text xs h
    rw [readItems] at h
    obtain ⟨next, hnext, h⟩ := bind_eq_ok.1 h
    cases next with
    | closed _ =>
      cases h
      exact laidItems_of_closed hnext
    | entry _ =>
      obtain ⟨⟨x, _⟩, hx, h⟩ := bind_eq_ok.1 h
      obtain ⟨⟨xs, _⟩, hxs, h⟩ := bind_eq_ok.1 h
      cases h
      exact laidItems_of_entry hnext (hitem hx) (ih hxs)

/-- The members of an object stand where a loop reads them. -/
theorem laidMembers_of_readMembers {name : Reader κ} {member : σ → κ → Reader σ}
    (hname : TakesName name) (hmember : TakesUnder member) (fuel : ℕ) :
    ∀ {first s text s'}, readMembers name member fuel first s text = .ok (s', rest) →
      LaidMembers first text rest := by
  induction fuel with
  | zero => exact fun h => nomatch h
  | succ fuel ih =>
    intro first s text s' h
    rw [readMembers] at h
    obtain ⟨next, hnext, h⟩ := bind_eq_ok.1 h
    have hfollows := of_readNext hnext
    split at h
    · cases h
      obtain ⟨gap, rfl⟩ := hfollows
      exact ⟨[], gap, rfl⟩
    · obtain ⟨⟨k, _⟩, hk, h⟩ := bind_eq_ok.1 h
      obtain ⟨⟨t, _⟩, ht, h⟩ := bind_eq_ok.1 h
      obtain ⟨members, last, rfl⟩ := ih h
      obtain ⟨gaps, rfl⟩ := hfollows
      obtain ⟨pieces, rfl⟩ := hname hk
      obtain ⟨colon, _, rfl, value, w, rfl⟩ := hmember ht
      exact ⟨(⟨gaps, pieces, colon, value⟩, w) :: members, last, by simp [Layout.membersChars]⟩
    · cases h

/-- The name of a member that is read is a quoted text. -/
theorem takesName_readText : TakesName readText := fun _ _ _ h => of_readText h

/-- A name that is read, with a layout under it and the bracket after that, is an only member. -/
theorem laidMembers_of_readName {name : String} {left : List Char}
    (hname : readName text = .ok (name, after)) (hunder : LaidUnder after left)
    (hclose : skipBlank left = '\x7d' :: rest) : LaidMembers true text rest := by
  obtain ⟨gap, hgap⟩ := exists_gap text
  obtain ⟨last, hlast⟩ := exists_gap left
  rw [readName] at hname
  split at hname
  · cases hname
  · next hskip =>
    obtain ⟨pieces, rfl⟩ := of_readText hname
    obtain ⟨colon, _, rfl, value, w, rfl⟩ := hunder
    refine ⟨[(⟨(gap, []), pieces, colon, value⟩, w)], last, ?_⟩
    rw [hgap, hskip, hlast, hclose]
    simp [Layout.membersChars, Gap.chars]
  · cases hname

/-! ## Values that are passed over -/

/-- A layout stands where a value is passed over. -/
theorem laid_of_skipNested (depth : ℕ) :
    ∀ {text rest}, skipNested depth text = .ok rest → Laid text rest := by
  induction depth using Nat.strongRecOn with
  | ind depth ih =>
    intro text rest h
    rw [skipNested] at h
    split at h
    · cases h
    · next hskip => exact laid_of_word .null rfl hskip h
    · next hskip => exact laid_of_word (.bool true) rfl hskip h
    · next hskip => exact laid_of_word (.bool false) rfl hskip h
    · next hskip => exact laid_of_closing hskip (of_skipText h)
    · next hskip =>
      split at h
      · cases h
      · next n =>
        obtain ⟨⟨_, _⟩, hitems, heq⟩ := bind_eq_ok.1 h
        cases heq
        refine laid_of_items hskip (laidItems_of_readItems (fun text _ rest h => ?_) _ hitems)
        obtain ⟨_, hvalue, heq⟩ := bind_eq_ok.1 h
        cases heq
        exact ih n (Nat.lt_succ_self n) hvalue
    · next hskip =>
      split at h
      · cases h
      · next n =>
        obtain ⟨⟨_, _⟩, hmembers, heq⟩ := bind_eq_ok.1 h
        cases heq
        refine laid_of_members hskip
          (laidMembers_of_readMembers (fun text _ rest h => ?_) (fun _ _ text _ rest h => ?_) _
            hmembers)
        · obtain ⟨_, hname, heq⟩ := bind_eq_ok.1 h
          cases heq
          exact of_skipText hname
        · obtain ⟨after, hcolon, h⟩ := bind_eq_ok.1 h
          obtain ⟨_, hvalue, heq⟩ := bind_eq_ok.1 h
          cases heq
          exact laidUnder_of_readColon hcolon (ih n (Nat.lt_succ_self n) hvalue)
    · next hskip =>
      split_ifs at h
      obtain ⟨n, hn⟩ := of_skipNumber h
      exact laid_of_eq (.num n) (hskip.trans hn)

/-- The values that are passed over, in front of what may follow a value, are the well-formed ones:
of any depth, with numbers of any size and with texts that may be made of no characters. -/
theorem skipValue_eq_ok_iff (hr : Ends rest) : skipValue text = .ok rest ↔ Laid text rest := by
  constructor
  · exact laid_of_skipNested _
  · rintro ⟨gap, w, rfl⟩
    exact skipValue_chars gap w hr

/-- A value that is passed over is a layout. -/
theorem takes_readSkipped : Takes readSkipped := by
  intro text _ rest h
  obtain ⟨_, hvalue, h⟩ := bind_eq_ok.1 h
  cases h
  exact laid_of_skipNested _ hvalue

/-- A member that is passed over has a layout under its name. -/
theorem laidUnder_of_skipMember {s s' : σ} (h : skipMember s text = .ok (s', rest)) :
    LaidUnder text rest := by
  obtain ⟨after, hcolon, h⟩ := bind_eq_ok.1 h
  obtain ⟨_, hvalue, h⟩ := bind_eq_ok.1 h
  cases h
  exact laidUnder_of_readColon hcolon (laid_of_skipNested _ hvalue)

/-! ## Values that are read -/

/-- A document that is read is a layout. -/
theorem takes_readDocument (depth : ℕ) : Takes (readDocument depth) := by
  induction depth using Nat.strongRecOn with
  | ind depth ih =>
    intro text d rest h
    rw [readDocument] at h
    split at h
    · cases h
    · next hskip =>
      obtain ⟨_, hword, heq⟩ := bind_eq_ok.1 h
      cases heq
      exact laid_of_word .null rfl hskip hword
    · next hskip =>
      obtain ⟨_, hword, heq⟩ := bind_eq_ok.1 h
      cases heq
      exact laid_of_word (.bool true) rfl hskip hword
    · next hskip =>
      obtain ⟨_, hword, heq⟩ := bind_eq_ok.1 h
      cases heq
      exact laid_of_word (.bool false) rfl hskip hword
    · next hskip =>
      obtain ⟨⟨_, _⟩, htext, heq⟩ := bind_eq_ok.1 h
      cases heq
      exact laid_of_closing hskip (of_readText htext)
    · next hskip =>
      split at h
      · cases h
      · next n =>
        obtain ⟨⟨_, _⟩, hitems, heq⟩ := bind_eq_ok.1 h
        cases heq
        exact laid_of_items hskip (laidItems_of_readItems (ih n (Nat.lt_succ_self n)) _ hitems)
    · next hskip =>
      split at h
      · cases h
      · next n =>
        obtain ⟨⟨_, _⟩, hmembers, heq⟩ := bind_eq_ok.1 h
        cases heq
        refine laid_of_members hskip
          (laidMembers_of_readMembers takesName_readText (fun _ _ text _ rest h => ?_) _ hmembers)
        obtain ⟨after, hcolon, h⟩ := bind_eq_ok.1 h
        obtain ⟨⟨_, _⟩, hvalue, heq⟩ := bind_eq_ok.1 h
        cases heq
        exact laidUnder_of_readColon hcolon (ih n (Nat.lt_succ_self n) hvalue)
    · next hskip =>
      split_ifs at h
      obtain ⟨⟨_, _⟩, hnumber, heq⟩ := bind_eq_ok.1 h
      cases heq
      obtain ⟨n, hn⟩ := of_readNumber hnumber
      exact laid_of_eq (.num n) (hskip.trans hn)

/-- Data that is read is a layout. -/
theorem takes_readData (depth : ℕ) : Takes (readData depth) := by
  intro text _ rest h
  obtain ⟨⟨_, _⟩, hvalue, h⟩ := bind_eq_ok.1 h
  cases h
  exact takes_readDocument depth hvalue

/-- A string that is read is a layout. -/
theorem takes_readString : Takes readString := by
  intro text _ rest h
  rw [readString] at h
  split at h
  · next hskip => exact laid_of_closing hskip (of_readText h)
  · exact absurd h (readUnexpected_ne_ok _ _ _)

/-! ## Parts of structures -/

section Parts

variable {item : Reader α}

/-- What may be `null` is a layout where it is read. -/
theorem takes_readOptional (hitem : Takes item) : Takes (readOptional item) := by
  intro text _ rest h
  rw [readOptional] at h
  split at h
  · next hskip =>
    obtain ⟨_, hword, h⟩ := bind_eq_ok.1 h
    cases h
    exact laid_of_word .null rfl hskip hword
  · obtain ⟨⟨_, _⟩, hvalue, h⟩ := bind_eq_ok.1 h
    cases h
    exact laid_of_skipBlank (hitem hvalue)

/-- A map that is read is a layout. -/
theorem takes_readMap (hitem : Takes item) : Takes (readMap item) := by
  intro text _ rest h
  rw [readMap] at h
  split at h
  · next hskip =>
    refine laid_of_members hskip
      (laidMembers_of_readMembers takesName_readText (fun _ _ text _ rest h => ?_) _ h)
    obtain ⟨after, hcolon, h⟩ := bind_eq_ok.1 h
    obtain ⟨⟨_, _⟩, hvalue, h⟩ := bind_eq_ok.1 h
    cases h
    exact laidUnder_of_readColon hcolon (hitem hvalue)
  · exact absurd h (readUnexpected_ne_ok _ _ _)

/-- A member that may stand once has a layout under its name where it is read. -/
theorem laidUnder_of_readOnce (hitem : Takes item) {name : String} {seen o : Option α}
    (h : readOnce name seen item text = .ok (o, rest)) : LaidUnder text rest := by
  rw [readOnce] at h
  split_ifs at h
  obtain ⟨after, hcolon, h⟩ := bind_eq_ok.1 h
  obtain ⟨⟨_, _⟩, hvalue, h⟩ := bind_eq_ok.1 h
  cases h
  exact laidUnder_of_readColon hcolon (hitem hvalue)

end Parts

end FlatChart.Reader
