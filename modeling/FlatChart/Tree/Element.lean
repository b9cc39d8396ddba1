import FlatChart.Tree.Attribute

/-!
# Element trees

The authored form of a chart: elements with attributes, and with bookkeeping that means nothing to a
machine. The attribute `children` holds a single node or a list.
-/

namespace FlatChart

/-- What an element was made from. -/
inductive ElementType where
  /-- A container without a tag. -/
  | fragment
  /-- A tag of the host, such as `meta`. -/
  | intrinsic (tag : String)
  /-- A component, known by its declared name. -/
  | component (name : String)
  deriving DecidableEq

namespace ElementType

/-- The declared name, none for a fragment. -/
def name? : ElementType → Option String
  | .fragment => none
  | .intrinsic tag => some tag
  | .component name => some name

/-- The description in messages. -/
def description : ElementType → String
  | .fragment => "Fragment"
  | .intrinsic tag => describe "Intrinsic" tag
  | .component name => describe "Component" name

end ElementType

/-- One element of an authored tree. -/
structure Element where
  /-- What it was made from. -/
  type : ElementType
  /-- Bookkeeping: a key. -/
  key : Option String
  /-- Bookkeeping: the name of a reference. -/
  refName : Option String
  /-- Bookkeeping: an owner. -/
  owner : Option String
  /-- Bookkeeping: private data. -/
  store : SortedMap Json
  /-- The attributes by name. -/
  attributes : SortedMap (Attribute Element)

namespace Element

/-- An element without attributes. -/
def ofType (type : ElementType) : Element := ⟨type, none, none, none, ∅, ∅⟩

/-- A container without a tag. -/
def fragment : Element := ofType .fragment

/-- An element of a component. -/
def component (name : String) : Element := ofType (.component name)

/-- An element of a host tag. -/
def intrinsic (tag : String) : Element := ofType (.intrinsic tag)

instance : Inhabited Element := ⟨fragment⟩

/-- The declared name, none for a fragment. -/
def name? (e : Element) : Option String := e.type.name?

/-- The element with a key. -/
def withKey (e : Element) (key : String) : Element := { e with key := some key }

/-- The element with an attribute set. -/
def withAttribute (e : Element) (name : String) (a : Attribute Element) : Element :=
  { e with attributes := e.attributes.insert name a }

/-- The element with one more child. A single child stays a node of its own, and whatever else
stands in its place becomes the first item of a list. -/
def child (e : Element) (child : Element) : Element :=
  e.withAttribute "children" <|
    match e.attributes.get? "children" with
    | none => .node child
    | some (.list items) => .list (items ++ [.node child])
    | some a => .list [a, .node child]

/-- The element with other children in place of all it had. -/
def withChildren (e : Element) (children : List Element) : Element :=
  match Attribute.ofChildren? children with
  | none => { e with attributes := e.attributes.erase "children" }
  | some a => e.withAttribute "children" a

/-- The elements among the children, in document order. -/
def children (e : Element) : List Element :=
  match e.attributes.get? "children" with
  | none => []
  | some a => a.nodes

/-- The elements that stand for an element among the children of another one: a fragment gives its
children, any other element itself. -/
def splice (e : Element) : List Element :=
  match e.type with
  | .fragment => e.children
  | _ => [e]

end Element

end FlatChart
