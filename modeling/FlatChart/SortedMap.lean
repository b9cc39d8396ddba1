/-!
# Maps sorted by name

`SortedMap α` is a finite map from names to values whose names stand in strictly increasing order
of code points. Order and uniqueness are part of the type, so equal maps have equal entries, and the
values sit behind an index, so the type may occur inside its own value type (objects whose members
are again values, elements whose attributes hold elements). `toList` is the view that every
operation is described through.
-/

namespace FlatChart

/-- A finite map from names to values, the names strictly increasing. -/
structure SortedMap (α : Type) where
  /-- The names, in increasing order. -/
  keys : List String
  /-- No name stands twice and none stands out of order. -/
  sorted : keys.Pairwise (· < ·)
  /-- The value under the name at each position. -/
  value : Fin keys.length → α

namespace SortedMap

variable {α β : Type}

/-- The map with the given names whose value at each position is computed once and kept. -/
def tabulate (keys : List String) (sorted : keys.Pairwise (· < ·))
    (value : Fin keys.length → α) : SortedMap α :=
  let cells := Array.ofFn value
  ⟨keys, sorted, fun i =>
    have inside : i.val < cells.size := by simp [cells]
    cells[i.val]⟩

/-- Keeping the values does not change the map. -/
theorem tabulate_eq (keys : List String) (sorted : keys.Pairwise (· < ·))
    (value : Fin keys.length → α) : tabulate keys sorted value = ⟨keys, sorted, value⟩ := by
  simp [tabulate]

/-- The entries in increasing order of their names. -/
def toList (m : SortedMap α) : List (String × α) := m.keys.zip (List.ofFn m.value)

/-- The map with the given entries, which already stand in order. -/
def ofSorted (entries : List (String × α))
    (sorted : entries.Pairwise (fun a b => a.1 < b.1)) : SortedMap α :=
  let cells := entries.toArray
  ⟨entries.map Prod.fst, List.pairwise_map.2 sorted,
    fun i =>
      have inside : i.val < cells.size := by simpa [cells] using i.isLt
      cells[i.val].2⟩

/-- The names of the entries are the names of the map. -/
theorem map_fst_toList (m : SortedMap α) : m.toList.map Prod.fst = m.keys := by
  rw [toList, List.map_fst_zip]
  simp

/-- The entries of a map are sorted by name. -/
theorem sorted_toList (m : SortedMap α) : m.toList.Pairwise (fun a b => a.1 < b.1) := by
  have h := m.sorted
  rw [← map_fst_toList m, List.pairwise_map] at h
  exact h

/-- A map made of sorted entries has just these entries. -/
@[simp] theorem toList_ofSorted (entries : List (String × α))
    (sorted : entries.Pairwise (fun a b => a.1 < b.1)) :
    (ofSorted entries sorted).toList = entries := by
  apply List.ext_getElem <;> simp [toList, ofSorted]

/-- Two maps with the same entries are the same map. -/
theorem toList_inj {m n : SortedMap α} : m.toList = n.toList ↔ m = n := by
  constructor
  · intro h
    have hk : m.keys = n.keys := by rw [← map_fst_toList m, ← map_fst_toList n, h]
    obtain ⟨keys, sm, vm⟩ := m
    obtain ⟨keys', sn, vn⟩ := n
    subst hk
    have hv : vm = vn := by
      funext i
      have hz := congrArg (fun l => (l.map Prod.snd)[i.val]?) h
      simpa [toList, List.map_snd_zip, List.getElem?_ofFn] using hz
    rw [hv]
  · rintro rfl
    rfl

/-- The map without entries. -/
def empty : SortedMap α := ofSorted [] .nil

instance : EmptyCollection (SortedMap α) := ⟨empty⟩
instance : Inhabited (SortedMap α) := ⟨empty⟩

/-- The empty map has no entries. -/
@[simp] theorem toList_empty : (∅ : SortedMap α).toList = [] := toList_ofSorted [] .nil

/-- Whether the map has no entries. -/
def isEmpty (m : SortedMap α) : Bool := m.keys.isEmpty

/-- The value under a name, if the map has that name. -/
def get? (m : SortedMap α) (name : String) : Option α := m.toList.lookup name

/-- Whether the map has a name. -/
def contains (m : SortedMap α) (name : String) : Bool := m.keys.contains name

/-! ## Changing entries -/

/-- Entries with one entry put at its place, where it replaces an entry of the same name. -/
def insertEntry (name : String) (v : α) : List (String × α) → List (String × α)
  | [] => [(name, v)]
  | (k, w) :: rest =>
    if name < k then (name, v) :: (k, w) :: rest
    else if name = k then (name, v) :: rest
    else (k, w) :: insertEntry name v rest

/-- The names after putting an entry are the new one and old ones. -/
theorem fst_of_mem_insertEntry {name : String} {v : α} {e : String × α} :
    {entries : List (String × α)} → e ∈ insertEntry name v entries →
      e.1 = name ∨ e ∈ entries
  | [], h => by simp_all [insertEntry]
  | (k, w) :: rest, h => by
    unfold insertEntry at h
    split at h
    · simp at h ⊢; rcases h with rfl | h <;> simp_all
    · split at h
      · simp at h ⊢; rcases h with rfl | h <;> simp_all
      · simp at h ⊢
        rcases h with rfl | h
        · simp
        · rcases fst_of_mem_insertEntry h with h | h <;> simp_all

/-- Putting an entry at its place keeps the order. -/
theorem sorted_insertEntry (name : String) (v : α) :
    {entries : List (String × α)} → entries.Pairwise (fun a b => a.1 < b.1) →
      (insertEntry name v entries).Pairwise (fun a b => a.1 < b.1)
  | [], _ => by simp [insertEntry]
  | (k, w) :: rest, h => by
    obtain ⟨hk, hrest⟩ := List.pairwise_cons.1 h
    unfold insertEntry
    split
    · next hlt =>
      refine List.pairwise_cons.2 ⟨fun e he => ?_, h⟩
      rcases List.mem_cons.1 he with rfl | he
      · exact hlt
      · exact String.lt_trans hlt (hk e he)
    · next hnlt =>
      split
      · next heq =>
        subst heq
        exact List.pairwise_cons.2 ⟨hk, hrest⟩
      · next hne =>
        refine List.pairwise_cons.2 ⟨fun e he => ?_, sorted_insertEntry name v hrest⟩
        rcases fst_of_mem_insertEntry he with hn | he
        · rw [hn]
          have hle : k ≤ name := String.not_lt.1 hnlt
          by_cases hlt : k < name
          · exact hlt
          · exact absurd (String.le_antisymm (String.not_lt.1 hlt) hle) hne
        · exact hk e he

/-- The map with a value put under a name, in place of the one that was there. -/
def insert (m : SortedMap α) (name : String) (v : α) : SortedMap α :=
  ofSorted (insertEntry name v m.toList) (sorted_insertEntry name v m.sorted_toList)

/-- The map with only the entries that a test keeps. -/
def filter (keep : String → α → Bool) (m : SortedMap α) : SortedMap α :=
  ofSorted (m.toList.filter fun e => keep e.1 e.2) (m.sorted_toList.filter _)

/-- The map without a name. -/
def erase (m : SortedMap α) (name : String) : SortedMap α := m.filter fun k _ => k != name

/-- The map with every value changed by a function of it. -/
def map (f : α → β) (m : SortedMap α) : SortedMap β :=
  tabulate m.keys m.sorted fun i => f (m.value i)

/-- The map with the value under one name changed; without that name nothing changes. -/
def modify (m : SortedMap α) (name : String) (f : α → α) : SortedMap α :=
  ofSorted (m.toList.map fun e => (e.1, if e.1 = name then f e.2 else e.2)) <| by
    rw [List.pairwise_map]
    exact m.sorted_toList

/-- The map with some values changed and the others left out. -/
def filterMap (f : String → α → Option β) (m : SortedMap α) : SortedMap β :=
  ofSorted (m.toList.filterMap fun e => (f e.1 e.2).map fun v => (e.1, v)) <| by
    rw [List.pairwise_filterMap]
    refine m.sorted_toList.imp ?_
    intro a b hab x hx y hy
    obtain ⟨_, -, rfl⟩ := Option.map_eq_some_iff.1 hx
    obtain ⟨_, -, rfl⟩ := Option.map_eq_some_iff.1 hy
    exact hab

/-- The first map with all entries of the second put into it. -/
def merge (m n : SortedMap α) : SortedMap α := n.toList.foldl (fun m e => m.insert e.1 e.2) m

/-- The map of a list of entries in any order; of several with one name the last one counts. -/
def ofList (entries : List (String × α)) : SortedMap α :=
  entries.foldl (fun m e => m.insert e.1 e.2) ∅

/-! ## The entries after each change -/

/-- Putting a value adds its entry at its place. -/
@[simp] theorem toList_insert (m : SortedMap α) (name : String) (v : α) :
    (m.insert name v).toList = insertEntry name v m.toList := toList_ofSorted _ _

/-- Filtering keeps the entries that pass, in their order. -/
@[simp] theorem toList_filter (keep : String → α → Bool) (m : SortedMap α) :
    (m.filter keep).toList = m.toList.filter fun e => keep e.1 e.2 := toList_ofSorted _ _

/-- Changing and leaving out values keeps the order of the other entries. -/
@[simp] theorem toList_filterMap (f : String → α → Option β) (m : SortedMap α) :
    (m.filterMap f).toList = m.toList.filterMap fun e => (f e.1 e.2).map fun v => (e.1, v) :=
  toList_ofSorted _ _

/-- Changing every value keeps the names. -/
@[simp] theorem toList_map (f : α → β) (m : SortedMap α) :
    (m.map f).toList = m.toList.map fun e => (e.1, f e.2) := by
  rw [map, tabulate_eq]
  apply List.ext_getElem <;> simp [toList]

/-- Changing the value under one name keeps the names and all other values. -/
@[simp] theorem toList_modify (m : SortedMap α) (name : String) (f : α → α) :
    (m.modify name f).toList =
      m.toList.map fun e => (e.1, if e.1 = name then f e.2 else e.2) := toList_ofSorted _ _

/-! ## Comparing -/

/-- Whether a map has the given names and passes a test at every position. -/
def agrees (keys : List String) (same : Fin keys.length → β → Bool) (m : SortedMap β) : Bool :=
  if h : m.keys = keys then
    (List.finRange keys.length).all fun i => same i (m.value (i.cast (by rw [h])))
  else false

/-- Two maps are alike when they have the same names with alike values. -/
instance [BEq α] : BEq (SortedMap α) :=
  ⟨fun m n => n.agrees m.keys fun i v => m.value i == v⟩

end SortedMap

end FlatChart
