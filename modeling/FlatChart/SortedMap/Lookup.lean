import FlatChart.SortedMap

/-!
# Looking up in sorted maps

What `get?` finds after each operation. A map is determined by what it finds under every name
(`ext_get?`), so these statements say all there is to say about an operation.
-/

namespace FlatChart.SortedMap

variable {α β : Type}

/-- Looking a name up compares it with the first entry, then goes on with the rest. -/
theorem lookup_cons_ite (name : String) (e : String × α) (rest : List (String × α)) :
    (e :: rest).lookup name = if name = e.1 then some e.2 else rest.lookup name := by
  rw [List.lookup_cons]
  by_cases h : name = e.1
  · simp [h]
  · simp [h, beq_eq_false_iff_ne.2 h]

/-- In sorted entries a name is found just with the value it stands with. -/
theorem lookup_eq_some_iff {name : String} {v : α} :
    {entries : List (String × α)} → entries.Pairwise (fun a b => a.1 < b.1) →
      (entries.lookup name = some v ↔ (name, v) ∈ entries)
  | [], _ => by simp
  | e :: rest, sorted => by
    obtain ⟨first, sorted⟩ := List.pairwise_cons.1 sorted
    rw [lookup_cons_ite, List.mem_cons]
    by_cases h : name = e.1
    · rw [if_pos h]
      constructor
      · intro hv
        obtain ⟨k, w⟩ := e
        simp only [Option.some.injEq] at hv
        exact .inl (by rw [h, hv])
      · rintro (he | he)
        · rw [← he]
        · have hlt := first _ he
          rw [h] at hlt
          exact absurd hlt (String.lt_irrefl _)
    · rw [if_neg h, lookup_eq_some_iff sorted]
      constructor
      · exact .inr
      · rintro (he | he)
        · exact absurd (by rw [← he]) h
        · exact he

/-- A name is found with a value just when the two are an entry. -/
theorem get?_eq_some_iff {m : SortedMap α} {name : String} {v : α} :
    m.get? name = some v ↔ (name, v) ∈ m.toList := lookup_eq_some_iff m.sorted_toList

/-- Sorted lists with the same members are the same. -/
theorem eq_of_mem_iff :
    {as bs : List (String × α)} → as.Pairwise (fun a b => a.1 < b.1) →
      bs.Pairwise (fun a b => a.1 < b.1) → (∀ e, e ∈ as ↔ e ∈ bs) → as = bs
  | [], [], _, _, _ => rfl
  | [], b :: _, _, _, h => absurd ((h b).2 (List.mem_cons_self ..)) (by simp)
  | a :: _, [], _, _, h => absurd ((h a).1 (List.mem_cons_self ..)) (by simp)
  | a :: as, b :: bs, ha, hb, h => by
    obtain ⟨fa, sa⟩ := List.pairwise_cons.1 ha
    obtain ⟨fb, sb⟩ := List.pairwise_cons.1 hb
    have hab : a = b := by
      rcases List.mem_cons.1 ((h a).1 (List.mem_cons_self ..)) with hab | hab
      · exact hab
      · rcases List.mem_cons.1 ((h b).2 (List.mem_cons_self ..)) with hba | hba
        · exact hba.symm
        · exact absurd (fb _ hab) (String.lt_asymm (fa _ hba))
    subst hab
    have hrest : ∀ e, e ∈ as ↔ e ∈ bs := by
      intro e
      constructor
      · intro he
        rcases List.mem_cons.1 ((h e).1 (List.mem_cons_of_mem _ he)) with heq | hmem
        · have hlt := fa _ he
          rw [heq] at hlt
          exact absurd hlt (String.lt_irrefl _)
        · exact hmem
      · intro he
        rcases List.mem_cons.1 ((h e).2 (List.mem_cons_of_mem _ he)) with heq | hmem
        · have hlt := fb _ he
          rw [heq] at hlt
          exact absurd hlt (String.lt_irrefl _)
        · exact hmem
    rw [eq_of_mem_iff sa sb hrest]

/-- A map is determined by what it finds under every name. -/
theorem ext_get? {m n : SortedMap α} (h : ∀ name, m.get? name = n.get? name) : m = n := by
  apply toList_inj.1
  apply eq_of_mem_iff m.sorted_toList n.sorted_toList
  intro e
  rw [← get?_eq_some_iff, ← get?_eq_some_iff, h]

/-- A map has the names that it finds something under. -/
theorem contains_eq_isSome_get? (m : SortedMap α) (name : String) :
    m.contains name = (m.get? name).isSome := by
  rw [contains, ← map_fst_toList, get?]
  induction m.toList with
  | nil => simp
  | cons e rest ih =>
    rw [List.map_cons, List.contains_cons, lookup_cons_ite, ih]
    by_cases h : name = e.1
    · simp [h]
    · simp [h, beq_eq_false_iff_ne.2 h]

/-! ## After each operation -/

/-- The empty map finds nothing. -/
@[simp] theorem get?_empty (name : String) : (∅ : SortedMap α).get? name = none := by
  simp [get?]

/-- Entries with one entry put at its place find that entry and all others. -/
theorem lookup_insertEntry (name other : String) (v : α) :
    (entries : List (String × α)) →
      (insertEntry name v entries).lookup other =
        if other = name then some v else entries.lookup other
  | [] => by simp [insertEntry, lookup_cons_ite]
  | (k, w) :: rest => by
    unfold insertEntry
    split
    · simp [lookup_cons_ite]
    · split
      · next heq => subst heq; by_cases h : other = name <;> simp [lookup_cons_ite, h]
      · next hne =>
        have ih := lookup_insertEntry name other v rest
        by_cases h : other = name
        · subst h; simp [lookup_cons_ite, ih, hne]
        · simp [lookup_cons_ite, ih, h]

/-- What was put under a name is found there, and everything else as before. -/
theorem get?_insert (m : SortedMap α) (name other : String) (v : α) :
    (m.insert name v).get? other = if other = name then some v else m.get? other := by
  rw [get?, toList_insert, lookup_insertEntry]
  rfl

/-- The value that was put under a name is found there. -/
@[simp] theorem get?_insert_self (m : SortedMap α) (name : String) (v : α) :
    (m.insert name v).get? name = some v := by
  rw [get?_insert, if_pos rfl]

/-- A changed map finds the changed values. -/
@[simp] theorem get?_map (f : α → β) (m : SortedMap α) (name : String) :
    (m.map f).get? name = (m.get? name).map f := by
  rw [get?, get?, toList_map]
  induction m.toList with
  | nil => simp
  | cons e rest ih =>
    rw [List.map_cons, lookup_cons_ite, lookup_cons_ite, ih]
    split <;> simp

/-- Under the name that was changed the changed value is found, and everything else as before. -/
theorem get?_modify (m : SortedMap α) (name other : String) (f : α → α) :
    (m.modify name f).get? other =
      if other = name then (m.get? other).map f else m.get? other := by
  rw [get?, get?, toList_modify]
  induction m.toList with
  | nil => simp
  | cons e rest ih =>
    rw [List.map_cons, lookup_cons_ite, lookup_cons_ite, ih]
    by_cases h : other = e.1
    · by_cases hn : other = name
      · simp [← h, hn]
      · simp [← h, hn]
    · simp [h]

/-- A filtered map finds what was found before and passes. -/
theorem get?_filter (keep : String → α → Bool) (m : SortedMap α) (name : String) :
    (m.filter keep).get? name = (m.get? name).filter (keep name) := by
  apply Option.ext
  intro v
  rw [get?_eq_some_iff, toList_filter, List.mem_filter, ← get?_eq_some_iff,
    Option.filter_eq_some_iff]

/-- A map without a name finds nothing there, and everything else as before. -/
theorem get?_erase (m : SortedMap α) (name other : String) :
    (m.erase name).get? other = if other = name then none else m.get? other := by
  rw [erase, get?_filter]
  by_cases h : other = name
  · simp [h]
  · rw [if_neg h]
    cases m.get? other <;> simp [h]

/-- A map with values changed and left out finds the values that were kept. -/
theorem get?_filterMap (f : String → α → Option β) (m : SortedMap α) (name : String) :
    (m.filterMap f).get? name = (m.get? name).bind (f name) := by
  apply Option.ext
  intro v
  rw [get?_eq_some_iff, toList_filterMap, List.mem_filterMap, Option.bind_eq_some_iff]
  constructor
  · rintro ⟨⟨k, w⟩, hmem, he⟩
    obtain ⟨u, hu, heq⟩ := Option.map_eq_some_iff.1 he
    obtain ⟨rfl, rfl⟩ := Prod.mk.inj heq
    exact ⟨w, get?_eq_some_iff.2 hmem, hu⟩
  · rintro ⟨w, hw, hv⟩
    exact ⟨(name, w), get?_eq_some_iff.1 hw, Option.map_eq_some_iff.2 ⟨v, hv, rfl⟩⟩

/-- Putting entries one after the other finds the last one of a name, else what was there. -/
theorem get?_foldl_insert (name : String) :
    (entries : List (String × α)) → (m : SortedMap α) →
      (entries.foldl (fun m e => m.insert e.1 e.2) m).get? name =
        (entries.reverse.lookup name).or (m.get? name)
  | [], m => by simp
  | e :: rest, m => by
    rw [List.foldl_cons, get?_foldl_insert name rest, get?_insert, List.reverse_cons,
      List.lookup_append, Option.or_assoc]
    congr 1
    rw [lookup_cons_ite]
    split <;> simp

/-- Sorted entries have each name once, so it does not matter from which end they are searched. -/
theorem lookup_reverse (name : String) :
    {entries : List (String × α)} → entries.Pairwise (fun a b => a.1 < b.1) →
      entries.reverse.lookup name = entries.lookup name
  | [], _ => rfl
  | e :: rest, sorted => by
    obtain ⟨first, sorted⟩ := List.pairwise_cons.1 sorted
    rw [List.reverse_cons, List.lookup_append, lookup_reverse name sorted, lookup_cons_ite,
      lookup_cons_ite]
    by_cases h : name = e.1
    · have hnone : rest.lookup name = none := by
        rw [Option.eq_none_iff_forall_ne_some]
        intro v hv
        have hlt := first _ ((lookup_eq_some_iff sorted).1 hv)
        rw [h] at hlt
        exact String.lt_irrefl _ hlt
      rw [hnone, if_pos h, if_pos h, Option.none_or]
    · simp [h]

/-- A merged map finds what the second map has, else what the first one has. -/
theorem get?_merge (m n : SortedMap α) (name : String) :
    (m.merge n).get? name = (n.get? name).or (m.get? name) := by
  rw [merge, get?_foldl_insert, lookup_reverse name n.sorted_toList]
  rfl

/-- A map made of a list finds the last entry of a name. -/
theorem get?_ofList (entries : List (String × α)) (name : String) :
    (ofList entries).get? name = entries.reverse.lookup name := by
  rw [ofList, get?_foldl_insert]
  simp

end FlatChart.SortedMap
