import FlatChart.Tree.Element
import FlatChart.Chart.Writing

/-!
# Plain nodes

What is left of an element when its bookkeeping is dropped: a tag and the attributes.
`Element.normalize` turns a whole tree into plain nodes.
-/

namespace FlatChart

/-- The tag of a node, which decides what it means in a chart. -/
inductive Tag where
  | state
  | transition
  | final
  /-- Any other name, or none for a container. -/
  | other (name : Option String)
  deriving DecidableEq

namespace Tag

/-- The tag for a declared name. -/
def ofName : Option String → Tag
  | some "State" => .state
  | some "Transition" => .transition
  | some "Final" => .final
  | name => .other name

/-- The declared name of a tag. -/
def name? : Tag → Option String
  | .state => some "State"
  | .transition => some "Transition"
  | .final => some "Final"
  | .other name => name

/-- Whether a node of this tag declares a state. -/
def isStateLike : Tag → Bool
  | .state => true
  | .final => true
  | _ => false

/-- A tag is written as its name, or as `null` without one. -/
def document (t : Tag) : Document :=
  match t.name? with
  | some name => .str name
  | none => .null

end Tag

/-- A node without bookkeeping. -/
structure Node where
  /-- The tag. -/
  tag : Tag
  /-- The attributes by name. -/
  attributes : SortedMap (Attribute Node)

instance : Inhabited Node := ⟨⟨.other none, ∅⟩⟩

mutual
/-- The element and all elements inside it as plain nodes. Lists keep their shape, and every other
attribute stays as it is. -/
def Element.normalize : Element → Node
  | ⟨type, _, _, _, _, keys, sorted, value⟩ =>
    ⟨.ofName type.name?, .tabulate keys sorted fun i => (value i).normalize⟩

/-- An attribute with its elements as plain nodes. -/
def Attribute.normalize : Attribute Element → Attribute Node
  | .data v => .data v
  | .node e => .node e.normalize
  | .list items => .list (Attribute.normalizeItems items)
  | .callback f => .callback f
  | .guard f => .guard f
  | .reducer f => .reducer f

/-- The items of a list with their elements as plain nodes. -/
def Attribute.normalizeItems : List (Attribute Element) → List (Attribute Node)
  | [] => []
  | a :: rest => a.normalize :: Attribute.normalizeItems rest
end

/-- A plain node has the tag of the element's name and its attributes, each as plain nodes. -/
theorem Element.normalize_eq (e : Element) :
    e.normalize = ⟨.ofName e.name?, e.attributes.map Attribute.normalize⟩ := by
  obtain ⟨type, _, _, _, _, keys, sorted, value⟩ := e
  rfl

mutual
/-- Whether two nodes have the same tag and the same attributes, functions by identity. -/
def Node.beq : Node → Node → Bool
  | ⟨tag, keys, _, value⟩, n =>
    tag == n.tag && n.attributes.agrees keys fun i a => (value i).beq a

/-- Whether two attributes are the same. -/
def Attribute.beq : Attribute Node → Attribute Node → Bool
  | .data v, .data w => v == w
  | .node m, .node n => m.beq n
  | .list as, .list bs => Attribute.beqItems as bs
  | .callback f, .callback g => f == g
  | .guard f, .guard g => f == g
  | .reducer f, .reducer g => f == g
  | _, _ => false

/-- Whether two lists of attributes are the same at every position. -/
def Attribute.beqItems : List (Attribute Node) → List (Attribute Node) → Bool
  | [], [] => true
  | a :: as, b :: bs => a.beq b && Attribute.beqItems as bs
  | _, _ => false
end

instance : BEq Node := ⟨Node.beq⟩
instance : BEq (Attribute Node) := ⟨Attribute.beq⟩

mutual
/-- A node is written as its tag and its attributes in order of their names. -/
def Node.document : Node → Document
  | ⟨tag, keys, _, value⟩ =>
    .obj [("type", tag.document),
      ("props", .obj (keys.zip (List.ofFn fun i => (value i).document)))]

/-- Data is written as itself and a function as its label. -/
def Attribute.document : Attribute Node → Document
  | .data v => v.document
  | .node n => n.document
  | .list items => .arr (Attribute.documentItems items)
  | .callback f => .str f.label
  | .guard f => .str f.label
  | .reducer f => .str f.label

/-- The documents of the items of a list. -/
def Attribute.documentItems : List (Attribute Node) → List Document
  | [] => []
  | a :: rest => a.document :: Attribute.documentItems rest
end

namespace Node

/-- The attribute under a name. -/
def attribute? (n : Node) (name : String) : Option (Attribute Node) := n.attributes.get? name

/-- The text of a scalar attribute. -/
def text? (n : Node) (name : String) : Option String := (n.attribute? name).bind Attribute.text?

/-- The data of an attribute. -/
def data? (n : Node) (name : String) : Option Json := (n.attribute? name).bind Attribute.data?

/-- Whether an attribute is set. -/
def isTruthy (n : Node) (name : String) : Bool := (n.attribute? name).any Attribute.isTruthy

/-- Whether the node has children of any kind. -/
def hasChildren (n : Node) : Bool := n.attributes.contains "children"

/-- The nodes among the children, in document order. -/
def children (n : Node) : List Node :=
  match n.attribute? "children" with
  | none => []
  | some a => a.nodes

/-- The compact text of a node. -/
def text (n : Node) : String := n.document.text

end Node

end FlatChart
