import Mathlib.Data.List.Basic
import FlatChart.Proofs.SortedMap
import FlatChart.Proofs.Tree.Nodes
import FlatChart.Tree.Node

/-!
# Trees without their functions

`Element.unwired` drops the functions that the transitions of a tree are wired with: those under
`cond`, `action` and `assign` of every `Transition` element, at any depth. `Element.values` are all
data attributes of a tree. Both go through every attribute, and both are followed here down to the
children of a node, as its attributes and its children are all that compiling looks at.
-/

namespace FlatChart

/-- Whether the attribute is a function. -/
def Attribute.isFunction {N : Type} : Attribute N → Bool
  | .callback _ => true
  | .guard _ => true
  | .reducer _ => true
  | _ => false

/-- Whether an attribute is a function that a transition is wired with. -/
def ElementType.wires {N : Type} (type : ElementType) (name : String) (a : Attribute N) : Bool :=
  type.name? == some "Transition" && ["cond", "action", "assign"].contains name && a.isFunction

mutual
/-- The tree without the functions that its transitions are wired with. -/
def Element.unwired : Element → Element
  | ⟨type, key, refName, owner, store, keys, sorted, value⟩ =>
    ⟨type, key, refName, owner, store,
      (SortedMap.tabulate keys sorted fun i => (value i).unwired).filter
        fun name a => !type.wires name a⟩

/-- An attribute whose elements lose these functions. -/
def Attribute.unwired : Attribute Element → Attribute Element
  | .data v => .data v
  | .node e => .node e.unwired
  | .list items => .list (Attribute.unwiredItems items)
  | .callback f => .callback f
  | .guard f => .guard f
  | .reducer f => .reducer f

/-- The items of a list whose elements lose these functions. -/
def Attribute.unwiredItems : List (Attribute Element) → List (Attribute Element)
  | [] => []
  | a :: rest => a.unwired :: Attribute.unwiredItems rest
end

mutual
/-- The values of all data attributes in the tree. -/
def Element.values : Element → List Json
  | ⟨_, _, _, _, _, _, _, value⟩ => (List.ofFn fun i => (value i).values).flatten

/-- The values of all data in an attribute. -/
def Attribute.values : Attribute Element → List Json
  | .data v => [v]
  | .node e => e.values
  | .list items => Attribute.valuesOfItems items
  | _ => []

/-- The values of all data in the items of a list. -/
def Attribute.valuesOfItems : List (Attribute Element) → List Json
  | [] => []
  | a :: rest => a.values ++ Attribute.valuesOfItems rest
end

/-! ## Attributes -/

namespace Element

/-- What an element keeps of its attributes. -/
theorem unwired_eq (e : Element) :
    e.unwired = { e with
      attributes :=
        (e.attributes.map Attribute.unwired).filter fun name a => !e.type.wires name a } := by
  obtain ⟨type, _, _, _, _, keys, sorted, value⟩ := e
  rfl

/-- The data of an attribute is data of the element. -/
theorem values_subset {e : Element} {name : String} {a : Attribute Element}
    (ha : e.attributes.get? name = some a) : a.values ⊆ e.values := by
  intro v hv
  obtain ⟨type, _, _, _, _, keys, sorted, value⟩ := e
  have hmem := List.of_mem_zip (SortedMap.get?_eq_some_iff.1 ha)
  obtain ⟨i, rfl⟩ := List.mem_ofFn.1 hmem.2
  exact List.mem_flatten.2 ⟨_, List.mem_ofFn.2 ⟨i, rfl⟩, hv⟩

end Element

namespace Attribute

/-- A function stays one, and nothing else becomes one. -/
@[simp] theorem isFunction_unwired (a : Attribute Element) :
    a.unwired.isFunction = a.isFunction := by
  cases a <;> rfl

/-- Elements become nodes one by one. -/
theorem changes_normalize : Changes Element.normalize Attribute.normalize where
  node _ := rfl
  list items := congrArg list (eq_map_of_cons rfl (fun _ _ => rfl) items)
  data _ := rfl
  callback _ := rfl
  guard _ := rfl
  reducer _ := rfl

/-- The nodes of an attribute are its elements as nodes. -/
theorem nodes_normalize (a : Attribute Element) :
    a.normalize.nodes = a.nodes.map Element.normalize := changes_normalize.nodes_eq a

/-- Elements lose their functions one by one. -/
theorem changes_unwired : Changes Element.unwired Attribute.unwired where
  node _ := rfl
  list items := congrArg list (eq_map_of_cons rfl (fun _ _ => rfl) items)
  data _ := rfl
  callback _ := rfl
  guard _ := rfl
  reducer _ := rfl

/-- The elements of an attribute lose their functions one by one. -/
theorem nodes_unwired (a : Attribute Element) :
    a.unwired.nodes = a.nodes.map Element.unwired := changes_unwired.nodes_eq a

mutual
/-- The data of an element in an attribute is data of the attribute. -/
theorem values_subset_of_mem_nodes : ∀ (a : Attribute Element) {e : Element}, e ∈ a.nodes →
    e.values ⊆ a.values
  | .node e, _, he => by
    obtain rfl := List.mem_singleton.1 he
    exact List.Subset.refl _
  | .list items, _, he => values_subset_of_mem_nodesOfItems items he
  | .data _, _, he => absurd he List.not_mem_nil
  | .callback _, _, he => absurd he List.not_mem_nil
  | .guard _, _, he => absurd he List.not_mem_nil
  | .reducer _, _, he => absurd he List.not_mem_nil

/-- The data of an element in a list is data of the list. -/
theorem values_subset_of_mem_nodesOfItems : ∀ (items : List (Attribute Element)) {e : Element},
    e ∈ nodesOfItems items → e.values ⊆ valuesOfItems items
  | [], _, he => absurd he List.not_mem_nil
  | a :: rest, e, he => by
    rw [nodesOfItems, List.mem_append] at he
    rcases he with he | he
    · exact List.subset_append_of_subset_left _ (values_subset_of_mem_nodes a he)
    · exact List.subset_append_of_subset_right _ (values_subset_of_mem_nodesOfItems rest he)
end

end Attribute

namespace Element

/-- The data of a child is data of the element. -/
theorem values_subset_of_mem_children {e child : Element} (h : child ∈ e.children) :
    child.values ⊆ e.values := by
  unfold children at h
  split at h
  · exact absurd h List.not_mem_nil
  · next a ha => exact List.Subset.trans (a.values_subset_of_mem_nodes h) (values_subset ha)

end Element

end FlatChart
