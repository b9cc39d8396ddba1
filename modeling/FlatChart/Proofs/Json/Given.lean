import Mathlib.Data.List.DropRight
import FlatChart.Json.Reader.Field
import FlatChart.Proofs.Json.Nesting

/-!
# What readers give

`Gives r p` says that all that the reader `r` gives satisfies `p`, whatever text it reads. A loop
over the members of an object gives what every single member keeps (`gives_readMembers`), so an
invariant of a structure is shown one member at a time. Data that is read nests within its limit
(`gives_readData`), and `null` is never found where it stands for an absent value
(`gives_readOptional_readData`).
-/

namespace FlatChart

namespace Reader

variable {α β σ κ : Type}

/-- Two steps give a result just when the second one gives it for what the first one gives. -/
theorem bind_eq_ok {r : Except ReadError α} {f : α → Except ReadError β} {b : β} :
    (r >>= f) = .ok b ↔ ∃ a, r = .ok a ∧ f a = .ok b := by
  cases r with
  | error e => exact iff_of_false (fun h => nomatch h) (fun ⟨_, h, _⟩ => nomatch h)
  | ok a => exact ⟨fun h => ⟨a, rfl, h⟩, fun ⟨_, ha, h⟩ => Except.ok.inj ha ▸ h⟩

/-- Whatever the reader gives satisfies `p`. -/
def Gives (r : Reader α) (p : α → Prop) : Prop := ∀ text a rest, r text = .ok (a, rest) → p a

/-- An error gives nothing. -/
theorem readUnexpected_ne_ok (expected : String) (text : List Char) (a : α) :
    readUnexpected expected text ≠ .ok a := by
  intro h
  obtain ⟨_, _, h⟩ := bind_eq_ok.1 h
  cases h

/-! ## Loops -/

/-- Every item of an array is given by the reader of one. -/
theorem gives_readItems {item : Reader α} {p : α → Prop} (hitem : Gives item p) (fuel : ℕ) :
    ∀ first, Gives (readItems item fuel first) fun items => ∀ x ∈ items, p x := by
  induction fuel with
  | zero => exact fun _ _ _ _ h => nomatch h
  | succ fuel ih =>
    intro first text items rest h
    rw [readItems] at h
    obtain ⟨next, -, h⟩ := bind_eq_ok.1 h
    cases next with
    | closed _ =>
      cases h
      exact List.forall_mem_nil _
    | entry text =>
      obtain ⟨⟨x, _⟩, hx, h⟩ := bind_eq_ok.1 h
      obtain ⟨⟨xs, _⟩, hxs, h⟩ := bind_eq_ok.1 h
      cases h
      exact List.forall_mem_cons.2 ⟨hitem _ _ _ hx, ih _ _ _ _ hxs⟩

/-- What every member of an object keeps is kept by all of them. -/
theorem gives_readMembers {name : Reader κ} {member : σ → κ → Reader σ} {p : σ → Prop}
    (hmember : ∀ s k, p s → Gives (member s k) p) (fuel : ℕ) :
    ∀ first s, p s → Gives (readMembers name member fuel first s) p := by
  -- Every member hands what it kept on to the members after it.
  induction fuel with
  | zero => exact fun _ _ _ _ _ _ h => nomatch h
  | succ fuel ih =>
    intro first s hs text s' rest h
    rw [readMembers] at h
    obtain ⟨next, -, h⟩ := bind_eq_ok.1 h
    split at h
    · cases h
      exact hs
    · obtain ⟨⟨k, _⟩, -, h⟩ := bind_eq_ok.1 h
      obtain ⟨⟨t, _⟩, ht, h⟩ := bind_eq_ok.1 h
      exact ih _ t (hmember s k hs _ _ _ ht) _ _ _ h
    · cases h

/-! ## Parts of structures -/

section Parts

variable {item : Reader α} {p : α → Prop}

/-- What stands in place of `null` is given by the reader of it, from a text that does not begin
with the letter of `null`. -/
theorem of_readOptional {text rest : List Char} {a : α}
    (h : readOptional item text = .ok (some a, rest)) :
    ∃ text, item text = .ok (a, rest) ∧ ∀ after, skipBlank text ≠ 'n' :: after := by
  rw [readOptional] at h
  split at h
  · obtain ⟨_, _, h⟩ := bind_eq_ok.1 h
    cases h
  · next text hn =>
    obtain ⟨_, ha, h⟩ := bind_eq_ok.1 h
    cases h
    refine ⟨skipBlank _, ha, fun after hafter => hn after ?_⟩
    -- Blanks are skipped for a second time by the reader.
    rw [← hafter]
    exact (List.dropWhile_idempotent _ _).symm

/-- What an optional value is, if there is one. -/
theorem gives_readOptional (hitem : Gives item p) :
    Gives (readOptional item) fun o => ∀ a, o = some a → p a := by
  rintro text _ rest h a rfl
  obtain ⟨_, ha, _⟩ := of_readOptional h
  exact hitem _ _ _ ha

/-- Everything in a map is given by the reader of one value. -/
theorem gives_readMap (hitem : Gives item p) :
    Gives (readMap item) fun m => ∀ name v, m.get? name = some v → p v := by
  intro text m rest h
  rw [readMap] at h
  split at h
  · refine gives_readMembers (p := fun m : SortedMap α => ∀ name v, m.get? name = some v → p v)
      (fun m k hm text m' rest h => ?_) _ _ ∅ (by simp) _ _ _ h
    obtain ⟨_, _, h⟩ := bind_eq_ok.1 h
    obtain ⟨⟨x, _⟩, hx, h⟩ := bind_eq_ok.1 h
    cases h
    exact SortedMap.forall_get?_insert hm (hitem _ _ _ hx)
  · exact absurd h (readUnexpected_ne_ok _ _ _)

/-- The value of a member that may stand once is given by the reader of it. -/
theorem gives_readOnce (hitem : Gives item p) (name : String) (seen : Option α) :
    Gives (readOnce name seen item) fun o => ∀ a, o = some a → p a := by
  rintro text _ rest h a rfl
  rw [readOnce] at h
  split at h
  · cases h
  · obtain ⟨_, _, h⟩ := bind_eq_ok.1 h
    obtain ⟨⟨x, _⟩, hx, h⟩ := bind_eq_ok.1 h
    cases h
    exact hitem _ _ _ hx

end Parts

/-- A member that is passed over changes nothing. -/
theorem gives_skipMember (s : σ) : Gives (skipMember s) (· = s) := by
  intro text s' rest h
  obtain ⟨_, _, h⟩ := bind_eq_ok.1 h
  obtain ⟨_, _, h⟩ := bind_eq_ok.1 h
  cases h
  rfl

end Reader

/-! ## Data -/

namespace Document

/-- The data of items, one value for each. -/
theorem valueItems_eq_map (items : List Document) : valueItems items = items.map value := by
  induction items with
  | nil => rfl
  | cons d rest ih => rw [valueItems, ih, List.map_cons]

/-- The data of members, one value for each, under the same name. -/
theorem valueMembers_eq_map (members : List (String × Document)) :
    valueMembers members = members.map fun m => (m.1, m.2.value) := by
  induction members with
  | nil => rfl
  | cons m rest ih =>
    obtain ⟨k, d⟩ := m
    rw [valueMembers, ih, List.map_cons]

end Document

namespace Json

/-- The documents of a list of values, one for each. -/
theorem documentItems_eq_map (items : List Json) : documentItems items = items.map document := by
  induction items with
  | nil => rfl
  | cons v rest ih => rw [documentItems, ih, List.map_cons]

/-- An array nests within a bound when what stands in it does within one less. -/
theorem nesting_arr_le {depth : ℕ} {items : List Json} :
    (arr items).nesting ≤ depth + 1 ↔ ∀ v ∈ items, v.nesting ≤ depth := by
  have h : (arr items).nesting = Document.nestingItems (items.map document) + 1 := by
    rw [nesting, document, Document.nesting, documentItems_eq_map]
  rw [h, Nat.add_le_add_iff_right, Document.nestingItems_le, List.forall_mem_map]
  rfl

/-- An object nests within a bound when what stands in it does within one less. -/
theorem nesting_obj_le {depth : ℕ} {members : SortedMap Json} :
    (obj members).nesting ≤ depth + 1 ↔ ∀ e ∈ members.toList, e.2.nesting ≤ depth := by
  obtain ⟨keys, sorted, value⟩ := members
  have hzip : keys.zip (List.ofFn fun i => (value i).document) =
      (SortedMap.toList ⟨keys, sorted, value⟩).map fun e => (e.1, e.2.document) := by
    have hvalues : (List.ofFn fun i => (value i).document) = (List.ofFn value).map document := by
      rw [List.map_ofFn]
      rfl
    rw [hvalues, List.zip_map_right]
    rfl
  rw [nesting, document, Document.nesting, Nat.add_le_add_iff_right, Document.nestingMembers_le,
    hzip, List.forall_mem_map]
  rfl

end Json

namespace Document

/-- Data nests no deeper than the document that holds it. -/
theorem nesting_value_le {depth : ℕ} :
    ∀ {d : Document}, d.nesting ≤ depth → d.value.nesting ≤ depth := by
  induction depth with
  | zero =>
    intro d h
    cases d with
    | arr _ => exact absurd h (Nat.not_succ_le_zero _)
    | obj _ => exact absurd h (Nat.not_succ_le_zero _)
    | _ => exact h
  | succ depth ih =>
    intro d h
    cases d with
    | arr items =>
      have hitems := nestingItems_le.1 (Nat.le_of_succ_le_succ h)
      rw [value, valueItems_eq_map, Json.nesting_arr_le, List.forall_mem_map]
      exact fun d hd => ih (hitems d hd)
    | obj members =>
      have hmembers := nestingMembers_le.1 (Nat.le_of_succ_le_succ h)
      rw [value, valueMembers_eq_map, Json.nesting_obj_le]
      rintro ⟨k, v⟩ he
      -- Of several members with one name only the last one is left.
      have hmem := SortedMap.mem_of_get?_ofList (SortedMap.get?_eq_some_iff.2 he)
      obtain ⟨m, hm, hkv⟩ := List.mem_map.1 hmem
      cases hkv
      exact ih (hmembers m hm)
    | _ => exact Nat.zero_le _

end Document

namespace Reader

/-- What a document that is read can be: `null`, where the text begins with its letter, something
else without brackets, or an array or object read within one bracket less. -/
theorem of_readDocument {depth : ℕ} {text rest : List Char} {d : Document}
    (h : readDocument depth text = .ok (d, rest)) :
    (d = .null ∧ ∃ after, skipBlank text = 'n' :: after) ∨
    (d ≠ .null ∧ d.nesting = 0) ∨
    (∃ n items, depth = n + 1 ∧ d = .arr items ∧ ∃ fuel text rest,
      readItems (readDocument n) fuel true text = .ok (items, rest)) ∨
    (∃ n members, depth = n + 1 ∧ d = .obj members.reverse ∧ ∃ fuel text rest,
      readMembers readText (readNamed (readDocument n)) fuel true [] text =
        .ok (members, rest)) := by
  rw [readDocument] at h
  split at h
  · cases h
  · next after hn =>
    obtain ⟨_, _, h⟩ := bind_eq_ok.1 h
    cases h
    exact .inl ⟨rfl, after, hn⟩
  · obtain ⟨_, _, h⟩ := bind_eq_ok.1 h
    cases h
    exact .inr (.inl ⟨nofun, rfl⟩)
  · obtain ⟨_, _, h⟩ := bind_eq_ok.1 h
    cases h
    exact .inr (.inl ⟨nofun, rfl⟩)
  · obtain ⟨_, _, h⟩ := bind_eq_ok.1 h
    cases h
    exact .inr (.inl ⟨nofun, rfl⟩)
  · split at h
    · cases h
    · next n =>
      obtain ⟨⟨items, _⟩, hitems, h⟩ := bind_eq_ok.1 h
      cases h
      exact .inr (.inr (.inl ⟨n, items, rfl, rfl, _, _, _, hitems⟩))
  · split at h
    · cases h
    · next n =>
      obtain ⟨⟨members, _⟩, hmembers, h⟩ := bind_eq_ok.1 h
      cases h
      exact .inr (.inr (.inr ⟨n, members, rfl, rfl, _, _, _, hmembers⟩))
  · split at h
    · obtain ⟨_, _, h⟩ := bind_eq_ok.1 h
      cases h
      exact .inr (.inl ⟨nofun, rfl⟩)
    · cases h

/-- A document that is read nests within the limit. -/
theorem gives_readDocument (depth : ℕ) : Gives (readDocument depth) (·.nesting ≤ depth) := by
  induction depth using Nat.strongRecOn with
  | ind depth ih =>
    intro text d rest h
    obtain ⟨rfl, -⟩ | ⟨-, hd⟩ | ⟨n, items, rfl, rfl, _, _, _, hitems⟩ |
      ⟨n, members, rfl, rfl, _, _, _, hmembers⟩ := of_readDocument h
    · exact Nat.zero_le _
    · exact hd ▸ Nat.zero_le _
    · have hall := gives_readItems (ih n (Nat.lt_succ_self n)) _ _ _ _ _ hitems
      exact Nat.succ_le_succ (Document.nestingItems_le.2 hall)
    · have hall : ∀ m ∈ members, m.2.nesting ≤ n := by
        refine gives_readMembers (p := fun members : List (String × Document) =>
          ∀ m ∈ members, m.2.nesting ≤ n) (fun before k hbefore text members rest h => ?_)
          _ _ [] (List.forall_mem_nil _) _ _ _ hmembers
        obtain ⟨_, _, h⟩ := bind_eq_ok.1 h
        obtain ⟨⟨d, _⟩, hd, h⟩ := bind_eq_ok.1 h
        cases h
        exact List.forall_mem_cons.2 ⟨ih n (Nat.lt_succ_self n) _ _ _ hd, hbefore⟩
      refine Nat.succ_le_succ (Document.nestingMembers_le.2 fun m hm => ?_)
      exact hall m (List.mem_reverse.1 hm)

/-- Data that is read nests within the limit. -/
theorem gives_readData (depth : ℕ) : Gives (readData depth) (·.nesting ≤ depth) := by
  intro text v rest h
  obtain ⟨⟨d, _⟩, hd, h⟩ := bind_eq_ok.1 h
  cases h
  exact Document.nesting_value_le (gives_readDocument depth _ _ _ hd)

/-- Data that may be absent nests within the limit, and is never `null`. -/
theorem gives_readOptional_readData (depth : ℕ) :
    Gives (readOptional (readData depth)) fun o =>
      ∀ v, o = some v → v ≠ .null ∧ v.nesting ≤ depth := by
  rintro text _ rest h v rfl
  obtain ⟨text', hv, hne⟩ := of_readOptional h
  refine ⟨?_, gives_readData depth _ _ _ hv⟩
  obtain ⟨⟨d, _⟩, hd, h⟩ := bind_eq_ok.1 hv
  cases h
  obtain ⟨-, after, hn⟩ | hd | ⟨_, _, _, rfl, _⟩ | ⟨_, _, _, rfl, _⟩ := of_readDocument hd
  · exact absurd hn (hne after)
  · intro hnull
    cases d with
    | null => exact hd.1 rfl
    | _ => cases hnull
  · nofun
  · nofun

end Reader

end FlatChart
