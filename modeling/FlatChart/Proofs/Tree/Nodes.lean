import Mathlib.Data.List.Sort
import FlatChart.Tree.Attribute

/-!
# The nodes of an attribute

An attribute may hold lists inside lists. A place in it says which item to take of the outermost
list, which one of the next, and so on down to a node (`Attribute.nodeAt?`). Places stand in
document order when they are compared position by position, which is how lists of numbers are
ordered, and `Attribute.InOrder` says that some nodes are those at all places, in this order. There
is exactly one such list of nodes, the one that is collected (`Attribute.inOrder_iff`).

A change of an attribute that keeps the shape of lists changes the nodes one by one
(`Attribute.Changes.nodes_eq`).
-/

namespace FlatChart.Attribute

variable {M N : Type}

/-! ## Nodes of lists -/

/-- The nodes of items are those of each item, in the order of the items. -/
theorem nodesOfItems_eq (items : List (Attribute N)) :
    nodesOfItems items = items.flatMap nodes := by
  induction items with
  | nil => rfl
  | cons a rest ih => rw [nodesOfItems, List.flatMap_cons, ih]

/-- The nodes of a list are those of its items. -/
theorem nodes_list (items : List (Attribute N)) : (list items).nodes = items.flatMap nodes := by
  rw [nodes, nodesOfItems_eq]

/-- The nodes of a list of nodes. -/
theorem nodes_list_node (ns : List N) : (list (ns.map .node)).nodes = ns := by
  rw [nodes_list, List.flatMap_map]
  simp [nodes]

/-- A change of attributes that changes nodes one by one: lists are changed item by item, and
nothing else becomes a node or a list. -/
structure Changes (f : N → M) (g : Attribute N → Attribute M) : Prop where
  /-- A node stays one. -/
  node : ∀ n, g (.node n) = .node (f n)
  /-- A list keeps its shape. -/
  list : ∀ items, g (.list items) = .list (items.map g)
  /-- Data gets no nodes. -/
  data : ∀ v, (g (.data v)).nodes = []
  /-- A callback gets no nodes. -/
  callback : ∀ k, (g (.callback k)).nodes = []
  /-- A guard gets no nodes. -/
  guard : ∀ k, (g (.guard k)).nodes = []
  /-- A reducer gets no nodes. -/
  reducer : ∀ k, (g (.reducer k)).nodes = []

/-- Items that are changed one by one from the first one on are all changed. -/
theorem eq_map_of_cons {g : Attribute N → Attribute M}
    {gs : List (Attribute N) → List (Attribute M)} (hnil : gs [] = [])
    (hcons : ∀ a rest, gs (a :: rest) = g a :: gs rest) (items : List (Attribute N)) :
    gs items = items.map g := by
  induction items with
  | nil => exact hnil
  | cons a rest ih => rw [hcons, ih, List.map_cons]

mutual
/-- The nodes of a changed attribute are the nodes changed one by one. -/
theorem Changes.nodes_eq {f : N → M} {g : Attribute N → Attribute M} (h : Changes f g) :
    ∀ a : Attribute N, (g a).nodes = a.nodes.map f
  | .data v => h.data v
  | .node n => by rw [h.node, nodes, nodes, List.map_singleton]
  | .list items => by rw [h.list, nodes_list, nodes_list, h.flatMap_eq items]
  | .callback k => h.callback k
  | .guard k => h.guard k
  | .reducer k => h.reducer k

/-- The nodes of changed items are the nodes changed one by one. -/
theorem Changes.flatMap_eq {f : N → M} {g : Attribute N → Attribute M} (h : Changes f g) :
    ∀ items : List (Attribute N), (items.map g).flatMap nodes = (items.flatMap nodes).map f
  | [] => rfl
  | a :: rest => by
    rw [List.map_cons, List.flatMap_cons, List.flatMap_cons, List.map_append, h.nodes_eq a,
      h.flatMap_eq rest]
end

/-! ## Document order -/

/-- The node at a place, which says what item to take of each list on the way. -/
def nodeAt? : List ℕ → Attribute N → Option N
  | [], .node n => some n
  | i :: place, .list items => items[i]?.bind (nodeAt? place)
  | _, _ => none

/-- Some nodes are all nodes of an attribute in document order: they stand at places that follow one
another, and no place with a node is left out. -/
def InOrder (a : Attribute N) (ns : List N) : Prop :=
  ∃ placed : List (List ℕ × N), placed.Pairwise (fun e f => e.1 < f.1) ∧
    (∀ place n, (place, n) ∈ placed ↔ a.nodeAt? place = some n) ∧ placed.map Prod.snd = ns

mutual
/-- The nodes with their places. -/
def placed : Attribute N → List (List ℕ × N)
  | .node n => [([], n)]
  | .list items => placedFrom 0 items
  | _ => []

/-- The nodes of the items of a list with their places, the first item at the given position. -/
def placedFrom (i : ℕ) : List (Attribute N) → List (List ℕ × N)
  | [] => []
  | a :: rest => (a.placed.map fun e => (i :: e.1, e.2)) ++ placedFrom (i + 1) rest
end

mutual
/-- Without their places they are the nodes that are collected. -/
theorem map_snd_placed : ∀ a : Attribute N, a.placed.map Prod.snd = a.nodes
  | .node _ => rfl
  | .list items => by rw [placed, nodes, map_snd_placedFrom 0 items]
  | .data _ => rfl
  | .callback _ => rfl
  | .guard _ => rfl
  | .reducer _ => rfl

/-- The same of the items of a list. -/
theorem map_snd_placedFrom (i : ℕ) :
    ∀ items : List (Attribute N), (placedFrom i items).map Prod.snd = nodesOfItems items
  | [] => rfl
  | a :: rest => by
    rw [placedFrom, nodesOfItems, List.map_append, List.map_map, map_snd_placedFrom (i + 1) rest,
      ← map_snd_placed a]
    rfl
end

mutual
/-- Each node stands at its place, and none is left out. -/
theorem mem_placed : ∀ (a : Attribute N) {place : List ℕ} {n : N},
    (place, n) ∈ a.placed ↔ a.nodeAt? place = some n
  | .node m, place, n => by cases place <;> simp [placed, nodeAt?, eq_comm]
  | .list items, place, n => by
    rw [placed, mem_placedFrom 0 items]
    cases place with
    | nil => simp [nodeAt?]
    | cons j place => simp [nodeAt?]
  | .data _, place, n => by cases place <;> simp [placed, nodeAt?]
  | .callback _, place, n => by cases place <;> simp [placed, nodeAt?]
  | .guard _, place, n => by cases place <;> simp [placed, nodeAt?]
  | .reducer _, place, n => by cases place <;> simp [placed, nodeAt?]

/-- A place in a list begins with the position of an item. -/
theorem mem_placedFrom : ∀ (i : ℕ) (items : List (Attribute N)) {place : List ℕ} {n : N},
    (place, n) ∈ placedFrom i items ↔
      ∃ j rest, place = (i + j) :: rest ∧ items[j]?.bind (nodeAt? rest) = some n
  | i, [], place, n => by simp [placedFrom]
  | i, a :: items, place, n => by
    rw [placedFrom, List.mem_append, mem_placedFrom (i + 1) items, List.mem_map]
    constructor
    · rintro (⟨e, he, heq⟩ | ⟨j, rest, rfl, hn⟩)
      · obtain ⟨rfl, rfl⟩ := Prod.mk.inj heq
        exact ⟨0, e.1, rfl, (mem_placed a).1 he⟩
      · exact ⟨j + 1, rest, by rw [Nat.add_right_comm, Nat.add_assoc], hn⟩
    · rintro ⟨_ | j, rest, rfl, hn⟩
      · exact .inl ⟨(rest, n), (mem_placed a).2 hn, rfl⟩
      · exact .inr ⟨j, rest, by rw [Nat.add_right_comm, Nat.add_assoc], hn⟩
end

mutual
/-- The places follow one another. -/
theorem pairwise_placed : ∀ a : Attribute N, a.placed.Pairwise fun e f => e.1 < f.1
  | .node _ => List.pairwise_singleton ..
  | .list items => pairwise_placedFrom 0 items
  | .data _ => .nil
  | .callback _ => .nil
  | .guard _ => .nil
  | .reducer _ => .nil

/-- The places in the items of a list follow one another. -/
theorem pairwise_placedFrom (i : ℕ) :
    ∀ items : List (Attribute N), (placedFrom i items).Pairwise fun e f => e.1 < f.1
  | [] => .nil
  | a :: items => by
    rw [placedFrom, List.pairwise_append, List.pairwise_map]
    refine ⟨(pairwise_placed a).imp fun h => List.cons_lt_cons_self.2 h,
      pairwise_placedFrom (i + 1) items, ?_⟩
    intro e he f hf
    obtain ⟨e, -, rfl⟩ := List.mem_map.1 he
    obtain ⟨j, rest, hplace, -⟩ := (mem_placedFrom (i + 1) items).1 hf
    rw [hplace]
    exact List.cons_lt_cons_iff.2 (.inl (by omega))
end

/-- The nodes that are collected, and no other list, are those of an attribute in document order. -/
theorem inOrder_iff {a : Attribute N} {ns : List N} : a.InOrder ns ↔ ns = a.nodes := by
  constructor
  · rintro ⟨placed, hsorted, hmem, rfl⟩
    -- Both lists have the same members, and each stands in order.
    have hirrefl : Std.Irrefl fun e f : List ℕ × N => e.1 < f.1 := ⟨fun e => List.lt_irrefl e.1⟩
    have hantisymm : Std.Antisymm fun e f : List ℕ × N => e.1 < f.1 :=
      ⟨fun _ _ h h' => absurd h' (List.lt_asymm h)⟩
    have hsame : placed = a.placed :=
      hsorted.eq_of_mem_iff a.pairwise_placed fun e => (hmem e.1 e.2).trans a.mem_placed.symm
    rw [hsame, map_snd_placed]
  · rintro rfl
    exact ⟨a.placed, a.pairwise_placed, fun _ _ => a.mem_placed, a.map_snd_placed⟩

end FlatChart.Attribute
