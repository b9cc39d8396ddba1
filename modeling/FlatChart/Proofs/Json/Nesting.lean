import FlatChart.Json.Document
import FlatChart.Proofs.Number.Spelling
import FlatChart.Proofs.SortedMap

/-!
# What a document holds

The depth to which brackets nest in a document, and the floats in it: these two decide whether its
text can be read back as it is. A value and its document hold the same data
(`Json.value_document`).
-/

namespace FlatChart

namespace Document

/-! ## Nesting -/

mutual
/-- The number of brackets around the innermost part of a document. -/
def nesting : Document → ℕ
  | .arr items => nestingItems items + 1
  | .obj members => nestingMembers members + 1
  | _ => 0

/-- The deepest nesting in the items of an array. -/
def nestingItems : List Document → ℕ
  | [] => 0
  | d :: rest => max d.nesting (nestingItems rest)

/-- The deepest nesting in the members of an object. -/
def nestingMembers : List (String × Document) → ℕ
  | [] => 0
  | (_, d) :: rest => max d.nesting (nestingMembers rest)
end

/-- Items nest within a bound when each one does. -/
theorem nestingItems_le {depth : ℕ} {items : List Document} :
    nestingItems items ≤ depth ↔ ∀ d ∈ items, d.nesting ≤ depth := by
  induction items with
  | nil => simp [nestingItems]
  | cons d rest ih => rw [nestingItems, Nat.max_le, ih, List.forall_mem_cons]

/-- Members nest within a bound when the document of each one does. -/
theorem nestingMembers_le {depth : ℕ} {members : List (String × Document)} :
    nestingMembers members ≤ depth ↔ ∀ m ∈ members, m.2.nesting ≤ depth := by
  induction members with
  | nil => simp [nestingMembers]
  | cons m rest ih =>
    obtain ⟨k, d⟩ := m
    rw [nestingMembers, Nat.max_le, ih, List.forall_mem_cons]

mutual
/-- Every bracket takes a character, so a document is at least as long as it is deep. -/
theorem nesting_le_length : ∀ d : Document, d.nesting ≤ d.compact.length
  | .null => Nat.zero_le _
  | .bool _ => Nat.zero_le _
  | .num _ => Nat.zero_le _
  | .str _ => Nat.zero_le _
  | .arr items => by
    have h := nestingItems_le_length items
    simp only [nesting, compact, List.length_cons, List.length_append]
    omega
  | .obj members => by
    have h := nestingMembers_le_length members
    simp only [nesting, compact, List.length_cons, List.length_append]
    omega

/-- The items of an array are at least as long as they are deep. -/
theorem nestingItems_le_length : ∀ items : List Document,
    nestingItems items ≤ (compactItems items).length
  | [] => Nat.zero_le _
  | [d] => by simpa [nestingItems, compactItems] using nesting_le_length d
  | d :: e :: rest => by
    have hd := nesting_le_length d
    have hrest := nestingItems_le_length (e :: rest)
    simp only [nestingItems, compactItems, List.length_append, List.length_cons] at hrest ⊢
    omega

/-- The members of an object are at least as long as they are deep. -/
theorem nestingMembers_le_length : ∀ members : List (String × Document),
    nestingMembers members ≤ (compactMembers members).length
  | [] => Nat.zero_le _
  | [(k, d)] => by
    have hd := nesting_le_length d
    simp only [nestingMembers, compactMembers, List.length_append, List.length_cons]
    omega
  | (k, d) :: e :: rest => by
    have hd := nesting_le_length d
    have hrest := nestingMembers_le_length (e :: rest)
    rw [nestingMembers, compactMembers]
    simp only [List.length_append, List.length_cons]
    omega
end

/-! ## Floats -/

mutual
/-- The floats in a document, in the order in which they stand. -/
def floats : Document → List Binary64
  | .num (.float x) => [x]
  | .arr items => floatsOfItems items
  | .obj members => floatsOfMembers members
  | _ => []

/-- The floats in the items of an array. -/
def floatsOfItems : List Document → List Binary64
  | [] => []
  | d :: rest => d.floats ++ floatsOfItems rest

/-- The floats in the members of an object. -/
def floatsOfMembers : List (String × Document) → List Binary64
  | [] => []
  | (_, d) :: rest => d.floats ++ floatsOfMembers rest
end

/-- The floats of an array are those of its items. -/
theorem mem_floatsOfItems {x : Binary64} {items : List Document} :
    x ∈ floatsOfItems items ↔ ∃ d ∈ items, x ∈ d.floats := by
  induction items with
  | nil => simp [floatsOfItems]
  | cons d rest ih => simp [floatsOfItems, ih]

/-- The floats of an object are those of its members. -/
theorem mem_floatsOfMembers {x : Binary64} {members : List (String × Document)} :
    x ∈ floatsOfMembers members ↔ ∃ m ∈ members, x ∈ m.2.floats := by
  induction members with
  | nil => simp [floatsOfMembers]
  | cons m rest ih =>
    obtain ⟨k, d⟩ := m
    simp only [floatsOfMembers, List.mem_append, ih, List.exists_mem_cons_iff]

end Document

namespace Json

/-- The number of brackets around the innermost part of a value. -/
def nesting (v : Json) : ℕ := v.document.nesting

/-- The floats in a value. -/
def floats (v : Json) : List Binary64 := v.document.floats

/-- The values of documents under names stand under these names. -/
theorem valueMembers_zip :
    ∀ (keys : List String) (documents : List Document),
      Document.valueMembers (keys.zip documents) = keys.zip (documents.map Document.value)
  | [], _ => rfl
  | _ :: _, [] => rfl
  | k :: keys, d :: documents => by
    simp [Document.valueMembers, valueMembers_zip keys documents]

mutual
/-- The data of the document of a value is that value. -/
theorem value_document : ∀ v : Json, v.document.value = v
  | .null => rfl
  | .bool _ => rfl
  | .num _ => rfl
  | .str _ => rfl
  | .arr items => by rw [document, Document.value, valueItems_documentItems items]
  | .obj ⟨keys, sorted, value⟩ => by
    have ih : ∀ i, (value i).document.value = value i := fun i => value_document (value i)
    have hmap : (List.ofFn fun i => (value i).document).map Document.value = List.ofFn value := by
      rw [List.map_ofFn]
      exact congrArg List.ofFn (funext ih)
    -- The members stand in the order of the names, and a map is built of its own entries again.
    have hlist : keys.zip (List.ofFn value) = SortedMap.toList ⟨keys, sorted, value⟩ := rfl
    rw [document, Document.value, valueMembers_zip, hmap, hlist, SortedMap.ofList_toList]

/-- The data of the documents of values are these values. -/
theorem valueItems_documentItems : ∀ items : List Json,
    Document.valueItems (documentItems items) = items
  | [] => rfl
  | v :: rest => by
    rw [documentItems, Document.valueItems, value_document v, valueItems_documentItems rest]
end

end Json

end FlatChart
