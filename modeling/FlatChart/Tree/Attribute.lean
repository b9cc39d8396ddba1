import FlatChart.Function

/-!
# Attributes of a tree

`Attribute N` is the value of an attribute in a tree whose nodes are of type `N`: data, a node, a
list, or a function. The same type serves elements as they are authored and the plain nodes that
they become.
-/

namespace FlatChart

/-- The value of an attribute in a tree of nodes `N`. -/
inductive Attribute (N : Type) where
  | data (value : Json)
  | node (node : N)
  | list (items : List (Attribute N))
  | callback (function : Callback)
  | guard (function : Guard)
  | reducer (function : Reducer)

namespace Attribute

variable {N : Type}

instance : Inhabited (Attribute N) := ⟨.data .null⟩

/-- Whether the attribute counts as set: `false`, `null`, zero and the empty text do not. -/
def isTruthy : Attribute N → Bool
  | .data .null => false
  | .data (.bool b) => b
  | .data (.num n) => !n.isZero
  | .data (.str s) => !s.isEmpty
  | _ => true

/-- The text of scalar data, which serves as a name. -/
def text? : Attribute N → Option String
  | .data (.str s) => some s
  | .data (.num n) => some n.text
  | .data (.bool true) => some "true"
  | .data (.bool false) => some "false"
  | _ => none

/-- The data. -/
def data? : Attribute N → Option Json
  | .data v => some v
  | _ => none

/-- The callback. -/
def callback? : Attribute N → Option Callback
  | .callback f => some f
  | _ => none

/-- The guard. -/
def guard? : Attribute N → Option Guard
  | .guard f => some f
  | _ => none

/-- The reducer. -/
def reducer? : Attribute N → Option Reducer
  | .reducer f => some f
  | _ => none

mutual
/-- The nodes of an attribute in document order, through lists of any nesting; everything else is
passed over. -/
def nodes : Attribute N → List N
  | .node n => [n]
  | .list items => nodesOfItems items
  | _ => []

/-- The nodes of the items of a list. -/
def nodesOfItems : List (Attribute N) → List N
  | [] => []
  | a :: rest => a.nodes ++ nodesOfItems rest
end

/-- The attribute that holds a list of nodes as children: none for no node, the node itself for
one, and a list for several. -/
def ofChildren? : List N → Option (Attribute N)
  | [] => none
  | [n] => some (.node n)
  | ns => some (.list (ns.map .node))

end Attribute

end FlatChart
