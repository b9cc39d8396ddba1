import Mathlib.Data.List.Basic
import Mathlib.Data.List.Forall2
import FlatChart.SortedMap.Lookup

/-!
# More about sorted maps

Maps rebuilt from their entries, the entries of a map whose values were changed, and maps that are
compared: two maps are alike just when what they find under every name is (`beq_iff`).
-/

namespace FlatChart.SortedMap

variable {α β : Type}

/-- Rebuilding a map from its entries gives the map. -/
@[simp] theorem ofList_toList (m : SortedMap α) : ofList m.toList = m := by
  apply ext_get?
  intro name
  rw [get?_ofList, lookup_reverse name m.sorted_toList]
  rfl

/-- Rebuilding a map from entries that are kept as they are gives the map. -/
theorem ofList_filterMap_toList {f : String × α → Option (String × α)} {m : SortedMap α}
    (h : ∀ e ∈ m.toList, f e = some e) : ofList (m.toList.filterMap f) = m := by
  rw [List.filterMap_congr h, List.filterMap_some, ofList_toList]

/-- Something holds of all changed values when it holds of what each value is changed to. -/
theorem forall_toList_map {f : α → β} {m : SortedMap α} {p : β → Prop} :
    (∀ e ∈ (m.map f).toList, p e.2) ↔ ∀ e ∈ m.toList, p (f e.2) := by
  rw [toList_map, List.forall_mem_map]

/-- What holds of all values still does when a value is put of which it holds. -/
theorem forall_get?_insert {m : SortedMap α} {p : α → Prop} {name : String} {v : α}
    (hm : ∀ other w, m.get? other = some w → p w) (hv : p v) :
    ∀ other w, (m.insert name v).get? other = some w → p w := by
  intro other w hw
  rw [get?_insert] at hw
  split at hw
  · exact Option.some.inj hw ▸ hv
  · exact hm other w hw

/-- Changing the values of a list of entries changes the values of the map made of it. -/
theorem map_ofList (g : α → β) (entries : List (String × α)) :
    (ofList entries).map g = ofList (entries.map fun e => (e.1, g e.2)) := by
  apply ext_get?
  intro name
  rw [get?_map, get?_ofList, get?_ofList, ← List.map_reverse]
  induction entries.reverse with
  | nil => rfl
  | cons e rest ih =>
    rw [List.map_cons, lookup_cons_ite, lookup_cons_ite, ← ih]
    split <;> rfl

/-- A function that changes no value in a map changes nothing. -/
theorem map_eq_self {f : α → α} {m : SortedMap α} (h : ∀ name v, m.get? name = some v → f v = v) :
    m.map f = m := by
  apply ext_get?
  intro name
  rw [get?_map]
  cases hv : m.get? name with
  | none => rfl
  | some v => rw [Option.map_some, h name v hv]

/-- Keeping some names of a list of entries keeps them in the map made of it. -/
theorem filter_ofList (keep : String → Bool) (entries : List (String × α)) :
    (ofList entries).filter (fun name _ => keep name) = ofList (entries.filter (keep ·.1)) := by
  apply ext_get?
  intro name
  rw [get?_filter, get?_ofList, get?_ofList, ← List.filter_reverse]
  induction entries.reverse with
  | nil => rfl
  | cons e rest ih =>
    rw [lookup_cons_ite, List.filter_cons]
    by_cases hname : name = e.1
    · subst hname
      cases hkeep : keep e.1 with
      | true => simp [lookup_cons_ite]
      | false => simpa [hkeep] using ih
    · rw [if_neg hname, ih]
      cases hkeep : keep e.1 with
      | true => rw [if_pos rfl, lookup_cons_ite, if_neg hname]
      | false => rw [if_neg (by simp)]

/-- What a map made of a list finds stands in the list. -/
theorem mem_of_get?_ofList {entries : List (String × α)} {name : String} {v : α}
    (h : (ofList entries).get? name = some v) : (name, v) ∈ entries := by
  rw [get?_ofList, List.lookup_eq_some_iff] at h
  obtain ⟨before, after, hentries, -⟩ := h
  have hmem : (name, v) ∈ entries.reverse := by
    rw [hentries]
    exact List.mem_append_right _ (List.mem_cons_self ..)
  exact List.mem_reverse.1 hmem

/-- A map made of a list has the names of its entries. -/
theorem contains_ofList {entries : List (String × α)} {e : String × α} (he : e ∈ entries) :
    (ofList entries).contains e.1 = true := by
  rw [contains_eq_isSome_get?, get?_ofList, List.lookup_isSome_iff]
  exact ⟨e, List.mem_reverse.2 he, beq_self_eq_true _⟩

/-- In a map made of what some items give, the last item of a name is found. -/
theorem get?_ofList_filterMap {ι : Type} (key : ι → Option String) (f : ι → α) (items : List ι)
    (name : String) :
    (ofList (items.filterMap fun i => (key i).map fun k => (k, f i))).get? name =
      (items.reverse.find? fun i => key i = some name).map f := by
  rw [get?_ofList, ← List.filterMap_reverse]
  induction items.reverse with
  | nil => rfl
  | cons i rest ih =>
    rw [List.find?_cons, List.filterMap_cons]
    cases hk : key i with
    | none => simpa using ih
    | some k =>
      rw [Option.map_some, lookup_cons_ite, ih]
      by_cases hname : name = k
      · simp [hname]
      · have hne : ¬k = name := fun h => hname h.symm
        simp [hname, hne]

/-- The map of what a function gives for some names. -/
def ofNames (names : List String) (f : String → Option α) : SortedMap α :=
  .ofList (names.filterMap fun name => (f name).map fun v => (name, v))

/-- Under the names that it was made for, a map finds what the function gives. -/
theorem get?_ofNames (names : List String) (f : String → Option α) (name : String) :
    (ofNames names f).get? name = if name ∈ names then f name else none := by
  have hmem : name ∈ names ↔ name ∈ names.reverse := List.mem_reverse.symm
  rw [ofNames, get?_ofList, ← List.filterMap_reverse, if_congr hmem rfl rfl]
  induction names.reverse with
  | nil => rfl
  | cons n rest ih =>
    rw [List.filterMap_cons]
    by_cases h : name = n
    · subst h
      cases hv : f name with
      | none => simp [hv] at ih ⊢; exact ih
      | some v => simp
    · cases hv : f n with
      | none => simp [h, ih]
      | some v => simp [lookup_cons_ite, h, ih]

/-- A change that a function does not see is not seen in the changed map. -/
theorem map_modify {f : α → α} {g : α → β} (h : ∀ a, g (f a) = g a) (m : SortedMap α)
    (name : String) : (m.modify name f).map g = m.map g := by
  apply ext_get?
  intro other
  rw [get?_map, get?_map, get?_modify]
  split
  · rw [Option.map_map]
    exact congrArg (Option.map · _) (funext h)
  · rfl

/-- Changing the value under a name twice is changing it once by both functions. -/
@[simp] theorem modify_modify (m : SortedMap α) (name : String) (f g : α → α) :
    (m.modify name f).modify name g = m.modify name (g ∘ f) := by
  apply ext_get?
  intro other
  simp only [get?_modify]
  split
  · rw [Option.map_map]
  · rfl

/-- A change that does nothing to the value under a name changes nothing. -/
theorem modify_eq_self {m : SortedMap α} {name : String} {f : α → α}
    (h : ∀ v, m.get? name = some v → f v = v) : m.modify name f = m := by
  apply ext_get?
  intro other
  rw [get?_modify]
  split
  · next hname =>
    subst hname
    cases hv : m.get? other with
    | none => rfl
    | some v => rw [Option.map_some, h v hv]
  · rfl

/-! ## Changing every entry by its name -/

/-- The map with every value changed by a function of its name and it. -/
def mapEntries (f : String → α → β) (m : SortedMap α) : SortedMap β :=
  m.filterMap fun name v => some (f name v)

/-- A map with every entry changed finds the changed values. -/
theorem get?_mapEntries (f : String → α → β) (m : SortedMap α) (name : String) :
    (m.mapEntries f).get? name = (m.get? name).map (f name) := by
  rw [mapEntries, get?_filterMap]
  cases m.get? name <;> rfl

/-- Changing every value is changing every entry, whatever its name is. -/
theorem map_eq_mapEntries (f : α → β) (m : SortedMap α) : m.map f = m.mapEntries fun _ => f := by
  apply ext_get?
  intro name
  rw [get?_map, get?_mapEntries]

/-- Changing one more value is changing every entry by one more case. -/
theorem modify_mapEntries (f : String → α → β) (m : SortedMap α) (name : String) (g : β → β) :
    (m.mapEntries f).modify name g =
      m.mapEntries fun other v => if other = name then g (f other v) else f other v := by
  apply ext_get?
  intro other
  rw [get?_modify, get?_mapEntries, get?_mapEntries]
  cases m.get? other <;> split <;> simp_all

/-- Entries that change alike make maps that change alike. -/
theorem mapEntries_congr {f g : String → α → β} {m : SortedMap α}
    (h : ∀ name v, m.get? name = some v → f name v = g name v) :
    m.mapEntries f = m.mapEntries g := by
  apply ext_get?
  intro name
  rw [get?_mapEntries, get?_mapEntries]
  exact Option.map_congr fun v hv => h name v hv

/-- Changing every entry to what it is changes nothing. -/
theorem mapEntries_eq_self {f : String → α → α} {m : SortedMap α}
    (h : ∀ name v, m.get? name = some v → f name v = v) : m.mapEntries f = m := by
  apply ext_get?
  intro name
  rw [get?_mapEntries, Option.map_congr fun v hv => h name v hv, Option.map_id']

/-! ## Comparing -/

/-- The value at a position is found under the name there. -/
theorem get?_getElem {keys : List String} (sorted : keys.Pairwise (· < ·))
    (value : Fin keys.length → α) (i : Fin keys.length) :
    get? ⟨keys, sorted, value⟩ keys[i] = some (value i) := by
  rw [get?_eq_some_iff, toList, List.mem_iff_getElem]
  exact ⟨i, by simp, by simp⟩

/-- Nothing is found just under what is no name of the map. -/
theorem get?_eq_none_iff {m : SortedMap α} {name : String} :
    m.get? name = none ↔ name ∉ m.keys := by
  rw [← Option.isNone_iff_eq_none, ← Option.not_isSome, ← contains_eq_isSome_get?, contains]
  simp

/-- A map has a name just when it finds something there. -/
theorem mem_keys_iff {m : SortedMap α} {name : String} :
    name ∈ m.keys ↔ ∃ v, m.get? name = some v := by
  rw [← Option.ne_none_iff_exists', ne_eq, get?_eq_none_iff, not_not]

/-- Maps that find something under the same names have the same names. -/
theorem keys_eq_of_get? {m : SortedMap α} {n : SortedMap β}
    (h : ∀ name, m.get? name = none ↔ n.get? name = none) : m.keys = n.keys := by
  -- Without their values the two maps are one.
  have hmap : m.map (fun _ => ()) = n.map (fun _ => ()) := by
    apply ext_get?
    intro name
    have hname := h name
    rw [get?_map, get?_map]
    cases hm : m.get? name <;> cases hn : n.get? name <;> simp_all
  exact congrArg keys hmap

variable {r : α → β → Prop}

/-- Values under the same names are related at every position just when they are under every
name. -/
theorem forall_value_iff {keys : List String} (sorted : keys.Pairwise (· < ·))
    (v : Fin keys.length → α) (w : Fin keys.length → β) :
    (∀ i, r (v i) (w i)) ↔
      ∀ name, Option.Rel r (get? ⟨keys, sorted, v⟩ name) (get? ⟨keys, sorted, w⟩ name) := by
  constructor
  · intro h name
    by_cases hname : name ∈ keys
    · obtain ⟨i, hi, rfl⟩ := List.mem_iff_getElem.1 hname
      have hv := get?_getElem sorted v ⟨i, hi⟩
      have hw := get?_getElem sorted w ⟨i, hi⟩
      simp only [Fin.getElem_fin] at hv hw
      rw [hv, hw]
      exact .some (h ⟨i, hi⟩)
    · rw [get?_eq_none_iff.2 hname, get?_eq_none_iff.2 hname]
      exact .none
  · intro h i
    have hi := h keys[i]
    rw [get?_getElem, get?_getElem] at hi
    cases hi with
    | some hr => exact hr

/-- A map of changed values agrees with another map just when under every name neither has
anything, or what they have is related. -/
theorem agrees_map_iff {γ : Type} {m : SortedMap α} {n : SortedMap β} {f : β → γ}
    {same : Fin m.keys.length → γ → Bool} (hsame : ∀ i w, same i (f w) = true ↔ r (m.value i) w) :
    (n.map f).agrees m.keys same = true ↔ ∀ name, Option.Rel r (m.get? name) (n.get? name) := by
  by_cases hkeys : n.keys = m.keys
  · obtain ⟨keys, sorted, v⟩ := m
    obtain ⟨_, sorted', w⟩ := n
    subst hkeys
    have hall := forall_value_iff (r := r) sorted v w
    rw [← hall, map, tabulate_eq, agrees, dif_pos rfl, List.all_eq_true]
    constructor
    · intro h i
      exact (hsame i _).1 (h i (List.mem_finRange i))
    · intro h i _
      exact (hsame i _).2 (h i)
  · have hnames : (n.map f).keys ≠ m.keys := hkeys
    rw [agrees, dif_neg hnames]
    constructor
    · intro h
      cases h
    · intro h
      refine absurd (keys_eq_of_get? fun name => ?_) hkeys
      have hname := h name
      generalize m.get? name = v at hname ⊢
      generalize n.get? name = w at hname ⊢
      cases hname <;> simp

/-- Two maps are alike just when what they find under every name is. -/
theorem beq_iff [BEq α] {m n : SortedMap α} :
    (m == n) = true ↔
      ∀ name, Option.Rel (fun v w => (v == w) = true) (m.get? name) (n.get? name) := by
  have hid : n.map id = n := map_eq_self fun _ _ _ => rfl
  have h : (n.map id).agrees m.keys (fun i w => m.value i == w) = true ↔
      ∀ name, Option.Rel (fun v w => (v == w) = true) (m.get? name) (n.get? name) :=
    agrees_map_iff fun _ _ => Iff.rfl
  rw [hid] at h
  exact h

/-- Lists with alike entries make alike maps. -/
theorem beq_ofList [BEq α] {as bs : List (String × α)}
    (h : List.Forall₂ (fun a b => a.1 = b.1 ∧ (a.2 == b.2) = true) as bs) :
    (ofList as == ofList bs) = true := by
  rw [beq_iff]
  intro name
  rw [get?_ofList, get?_ofList]
  -- The last entry of the name stands at the same position of both lists.
  have hreverse := List.forall₂_reverse_iff.2 h
  generalize as.reverse = as at hreverse ⊢
  generalize bs.reverse = bs at hreverse ⊢
  induction hreverse with
  | nil => exact .none
  | cons hab _ ih =>
    rw [lookup_cons_ite, lookup_cons_ite, hab.1]
    split
    · exact .some hab.2
    · exact ih

end FlatChart.SortedMap
