import FlatChart.Proofs.Chart.Equality
import FlatChart.Proofs.Tree.Declarations

/-!
# Alike trees

What does a tree lose when it becomes plain nodes? `Element.Alike` says which trees mean the same
without mentioning nodes: elements of the same declared name, with alike attributes under the same
names, whatever their keys, references, owners and stores are, and whether a name is that of a tag
of the host or of a component. Two trees become the same node just when they are alike
(`Element.beq_normalize`): the proof follows the two trees down, and at an element it compares what
is found under every name (`SortedMap.agrees_map_iff`).

Alike attributes then read alike (`Attribute.Alike.text?_eq`): their truth, their functions and
their data are the same, and so are their texts, unless one is the float zero and the other the
negative one. These two are equal as data, and their texts are `0.0` and `-0.0`.
-/

namespace FlatChart

mutual
/-- Two elements are alike when they have the same declared name and, under the same names, alike
attributes. -/
inductive Element.Alike : Element → Element → Prop
  | intro {e f : Element} (name : e.name? = f.name?)
    (attributes : ∀ name,
      Option.Rel Attribute.Alike (e.attributes.get? name) (f.attributes.get? name)) :
    Element.Alike e f

/-- Two attributes are alike when they are equal data, alike nodes, lists with alike items at every
position, or the same function. -/
inductive Attribute.Alike : Attribute Element → Attribute Element → Prop
  | data {v w : Json} (same : (v == w) = true) : Attribute.Alike (.data v) (.data w)
  | node {e f : Element} (alike : Element.Alike e f) : Attribute.Alike (.node e) (.node f)
  | list {as bs : List (Attribute Element)} (alike : List.Forall₂ Attribute.Alike as bs) :
    Attribute.Alike (.list as) (.list bs)
  | callback {f g : Callback} (same : (f == g) = true) : Attribute.Alike (.callback f) (.callback g)
  | guard {f g : Guard} (same : (f == g) = true) : Attribute.Alike (.guard f) (.guard g)
  | reducer {f g : Reducer} (same : (f == g) = true) : Attribute.Alike (.reducer f) (.reducer g)
end

/-! ## Becoming the same node -/

/-- A tag keeps the name that it was made for. -/
theorem Tag.name?_ofName (name : Option String) : (Tag.ofName name).name? = name := by
  unfold ofName
  split <;> rfl

/-- Tags differ when their names do. -/
theorem Tag.ofName_inj {a b : Option String} : Tag.ofName a = Tag.ofName b ↔ a = b := by
  constructor
  · intro h
    rw [← name?_ofName a, h, name?_ofName]
  · rintro rfl
    rfl

/-- Being alike, read off at an element. -/
theorem Element.alike_iff {e f : Element} : e.Alike f ↔ e.name? = f.name? ∧
    ∀ name, Option.Rel Attribute.Alike (e.attributes.get? name) (f.attributes.get? name) := by
  constructor
  · rintro ⟨hname, hattributes⟩
    exact ⟨hname, hattributes⟩
  · rintro ⟨hname, hattributes⟩
    exact ⟨hname, hattributes⟩

mutual
/-- Two elements become the same node just when they are alike. -/
theorem Element.beq_normalize : ∀ e f : Element, e.normalize.beq f.normalize = true ↔ e.Alike f
  | ⟨type, key, refName, owner, store, keys, sorted, value⟩, f => by
    -- Under every name the attributes are the same just when they are alike.
    have hattributes : (f.attributes.map Attribute.normalize).agrees keys
          (fun i a => (value i).normalize.beq a) = true ↔
        ∀ name, Option.Rel Attribute.Alike (SortedMap.get? ⟨keys, sorted, value⟩ name)
          (f.attributes.get? name) :=
      SortedMap.agrees_map_iff (m := ⟨keys, sorted, value⟩) fun i a => (value i).beq_normalize a
    rw [Element.normalize, SortedMap.tabulate_eq, Node.beq, Bool.and_eq_true, f.normalize_eq,
      hattributes, Element.alike_iff, beq_iff_eq, Tag.ofName_inj]
    rfl

/-- Two attributes become the same just when they are alike. -/
theorem Attribute.beq_normalize :
    ∀ a b : Attribute Element, a.normalize.beq b.normalize = true ↔ a.Alike b
  | .data v, b => by
    constructor
    · intro h
      cases b with
      | data w => exact .data h
      | _ => cases h
    · intro h
      cases h with
      | data same => exact same
  | .node e, b => by
    constructor
    · intro h
      cases b with
      | node f => exact .node ((e.beq_normalize f).1 h)
      | _ => cases h
    · intro h
      cases h with
      | node alike => exact (e.beq_normalize _).2 alike
  | .list as, b => by
    constructor
    · intro h
      cases b with
      | list bs => exact .list ((Attribute.beqItems_normalize as bs).1 h)
      | _ => cases h
    · intro h
      cases h with
      | list alike => exact (Attribute.beqItems_normalize as _).2 alike
  | .callback f, b => by
    constructor
    · intro h
      cases b with
      | callback g => exact .callback h
      | _ => cases h
    · intro h
      cases h with
      | callback same => exact same
  | .guard f, b => by
    constructor
    · intro h
      cases b with
      | guard g => exact .guard h
      | _ => cases h
    · intro h
      cases h with
      | guard same => exact same
  | .reducer f, b => by
    constructor
    · intro h
      cases b with
      | reducer g => exact .reducer h
      | _ => cases h
    · intro h
      cases h with
      | reducer same => exact same

/-- Two lists of attributes become the same just when they are alike at every position. -/
theorem Attribute.beqItems_normalize : ∀ as bs : List (Attribute Element),
    Attribute.beqItems (Attribute.normalizeItems as) (Attribute.normalizeItems bs) = true ↔
      List.Forall₂ Attribute.Alike as bs
  | [], [] => ⟨fun _ => .nil, fun _ => rfl⟩
  | [], _ :: _ => ⟨fun h => absurd h Bool.false_ne_true, fun h => nomatch h⟩
  | _ :: _, [] => ⟨fun h => absurd h Bool.false_ne_true, fun h => nomatch h⟩
  | a :: as, b :: bs => by
    rw [Attribute.normalizeItems, Attribute.normalizeItems, Attribute.beqItems, Bool.and_eq_true,
      a.beq_normalize b, Attribute.beqItems_normalize as bs, List.forall₂_cons]
end

instance (e f : Element) : Decidable (e.Alike f) := decidable_of_iff _ (e.beq_normalize f)

/-! ## Reading alike attributes -/

namespace Attribute

/-- The float zero of a sign. -/
def zero (negative : Bool) : Attribute Element := .data (.num (.float (.zero negative)))

/-- One is the zero of a sign, the other the zero of the other sign. -/
def OppositeZeros (a b : Attribute Element) : Prop :=
  ∃ negative, a = zero negative ∧ b = zero !negative

/-- Equal data reads alike, unless it is two zeros. -/
theorem reads_of_beq {v w : Json} (h : v.beq w = true) :
    ((data v : Attribute Element).text? = (data w : Attribute Element).text? ∧
      (data v : Attribute Element).isTruthy = (data w : Attribute Element).isTruthy) ∨
      OppositeZeros (.data v) (.data w) := by
  unfold Json.beq at h
  split at h
  · exact .inl ⟨rfl, rfl⟩
  · obtain rfl := eq_of_beq h
    exact .inl ⟨rfl, rfl⟩
  · rcases Number.eq_or_zeros_of_beq h with rfl | ⟨negative, rfl, rfl⟩
    · exact .inl ⟨rfl, rfl⟩
    · exact .inr ⟨negative, rfl, rfl⟩
  · obtain rfl := eq_of_beq h
    exact .inl ⟨rfl, rfl⟩
  -- Lists and objects have no text, and all of them count as set.
  · exact .inl ⟨rfl, rfl⟩
  · exact .inl ⟨rfl, rfl⟩
  · cases h

namespace Alike

variable {a b : Attribute Element}

/-- Alike attributes read alike, unless they are two zeros. -/
theorem reads (h : a.Alike b) :
    (a.text? = b.text? ∧ a.isTruthy = b.isTruthy) ∨ OppositeZeros a b := by
  cases h with
  | data same => exact reads_of_beq same
  | _ => exact .inl ⟨rfl, rfl⟩

/-- Alike attributes have the same text, unless they are two zeros. -/
theorem text?_eq (h : a.Alike b) : a.text? = b.text? ∨ OppositeZeros a b :=
  h.reads.imp_left And.left

/-- Of alike attributes both have a text, or neither. -/
theorem isSome_text?_eq (h : a.Alike b) : a.text?.isSome = b.text?.isSome := by
  obtain htext | ⟨negative, rfl, rfl⟩ := h.text?_eq
  · rw [htext]
  · simp only [zero, text?, Option.isSome_some]

/-- Of alike attributes both are set, or neither: neither zero is. -/
theorem isTruthy_eq (h : a.Alike b) : a.isTruthy = b.isTruthy := by
  obtain ⟨-, htruthy⟩ | ⟨negative, rfl, rfl⟩ := h.reads
  · exact htruthy
  · cases negative <;> rfl

/-- Alike attributes hold the same callback. -/
theorem rel_callback? (h : a.Alike b) :
    Option.Rel (fun f g => (f == g) = true) a.callback? b.callback? := by
  cases h with
  | callback same => exact .some same
  | _ => exact .none

/-- Alike attributes hold the same guard. -/
theorem rel_guard? (h : a.Alike b) :
    Option.Rel (fun f g => (f == g) = true) a.guard? b.guard? := by
  cases h with
  | guard same => exact .some same
  | _ => exact .none

/-- Alike attributes hold the same reducer. -/
theorem rel_reducer? (h : a.Alike b) :
    Option.Rel (fun f g => (f == g) = true) a.reducer? b.reducer? := by
  cases h with
  | reducer same => exact .some same
  | _ => exact .none

/-- Alike attributes hold equal data. -/
theorem rel_data? (h : a.Alike b) :
    Option.Rel (fun v w => (v == w) = true) a.data? b.data? := by
  cases h with
  | data same => exact .some same
  | _ => exact .none

mutual
/-- The nodes of alike attributes are alike, in their order. -/
theorem nodes : ∀ {a b : Attribute Element}, a.Alike b →
    List.Forall₂ Element.Alike a.nodes b.nodes
  | .data _, _, .data _ => .nil
  | .node _, _, .node h => .cons h .nil
  | .list _, _, .list h => nodesOfItems h
  | .callback _, _, .callback _ => .nil
  | .guard _, _, .guard _ => .nil
  | .reducer _, _, .reducer _ => .nil

/-- The nodes of alike lists are alike, in their order. -/
theorem nodesOfItems : ∀ {as bs : List (Attribute Element)}, List.Forall₂ Attribute.Alike as bs →
    List.Forall₂ Element.Alike (Attribute.nodesOfItems as) (Attribute.nodesOfItems bs)
  | [], _, .nil => .nil
  | _ :: _, _, .cons h hs => List.rel_append (nodes h) (nodesOfItems hs)
end

end Alike

end Attribute

/-! ## Reading alike elements -/

namespace Element.Alike

variable {e f : Element}

/-- Alike elements have the same tag. -/
theorem tag_eq (h : e.Alike f) : e.normalize.tag = f.normalize.tag := by
  rw [tag_normalize, tag_normalize, (alike_iff.1 h).1]

/-- Under a name alike elements both have nothing, or alike attributes. -/
theorem attribute?_cases (h : e.Alike f) (name : String) :
    e.attributes.get? name = none ∧ f.attributes.get? name = none ∨
      ∃ a b, e.attributes.get? name = some a ∧ f.attributes.get? name = some b ∧ a.Alike b := by
  have hname := (alike_iff.1 h).2 name
  generalize e.attributes.get? name = a at hname ⊢
  generalize f.attributes.get? name = b at hname ⊢
  cases hname with
  | none => exact .inl ⟨rfl, rfl⟩
  | some hab => exact .inr ⟨_, _, rfl, rfl, hab⟩

/-- The children of alike elements are alike, in their order. -/
theorem children (h : e.Alike f) : List.Forall₂ Alike e.children f.children := by
  rw [Element.children, Element.children]
  obtain ⟨he, hf⟩ | ⟨a, b, he, hf, hab⟩ := h.attribute?_cases "children"
  · rw [he, hf]
    exact .nil
  · rw [he, hf]
    exact hab.nodes

/-- Of alike elements both have children of some kind, or neither. -/
theorem hasChildren_eq (h : e.Alike f) : e.normalize.hasChildren = f.normalize.hasChildren := by
  rw [Node.hasChildren_eq, Node.hasChildren_eq, attribute?_normalize, attribute?_normalize]
  obtain ⟨he, hf⟩ | ⟨a, b, he, hf, -⟩ := h.attribute?_cases "children"
  · rw [he, hf]
  · rw [he, hf]
    rfl

/-- What is read alike off alike attributes is read alike off alike elements. -/
theorem rel_bind_attribute? {α : Type} {r : α → α → Prop} (h : e.Alike f) (name : String)
    (read : Attribute Node → Option α)
    (hread : ∀ a b : Attribute Element, a.Alike b →
      Option.Rel r (read a.normalize) (read b.normalize)) :
    Option.Rel r ((e.normalize.attribute? name).bind read)
      ((f.normalize.attribute? name).bind read) := by
  rw [attribute?_normalize, attribute?_normalize]
  obtain ⟨he, hf⟩ | ⟨a, b, he, hf, hab⟩ := h.attribute?_cases name
  · rw [he, hf]
    exact .none
  · rw [he, hf]
    exact hread a b hab

/-- Of alike elements both have a text under a name, or neither. -/
theorem isSome_text?_eq (h : e.Alike f) (name : String) :
    (e.normalize.text? name).isSome = (f.normalize.text? name).isSome := by
  rw [Node.text?, Node.text?, attribute?_normalize, attribute?_normalize]
  obtain ⟨he, hf⟩ | ⟨a, b, he, hf, hab⟩ := h.attribute?_cases name
  · rw [he, hf]
  · rw [he, hf]
    simpa using hab.isSome_text?_eq

/-- Of alike elements an attribute is set in both, or in neither. -/
theorem isTruthy_eq (h : e.Alike f) (name : String) :
    e.normalize.isTruthy name = f.normalize.isTruthy name := by
  rw [Node.isTruthy, Node.isTruthy, attribute?_normalize, attribute?_normalize]
  obtain ⟨he, hf⟩ | ⟨a, b, he, hf, hab⟩ := h.attribute?_cases name
  · rw [he, hf]
  · rw [he, hf]
    simpa using hab.isTruthy_eq

/-- Of alike elements both declare a state, or neither. -/
theorem isSome_stateName?_eq (h : e.Alike f) : e.stateName?.isSome = f.stateName?.isSome := by
  rw [stateName?, stateName?, h.tag_eq]
  split
  · exact h.isSome_text?_eq "id"
  · rfl

/-- Of alike elements both declare a transition, or neither. -/
theorem isSome_eventName?_eq (h : e.Alike f) : e.eventName?.isSome = f.eventName?.isSome := by
  rw [eventName?, eventName?, h.tag_eq]
  split
  · exact h.isSome_text?_eq "event"
  · rfl

end Element.Alike

end FlatChart
