import FlatChart.Proofs.Tree.Nodes
import FlatChart.SortedMap.Lookup
import FlatChart.Tree.Element

/-!
# Children as a list

The attribute `children` has several forms: it may be absent, a node, lists inside lists, or
something that is no child at all. Whatever the form, the children behave as one list
(`Element.children_as_list`): one more child is put at its end, and other children take its place.

`Element.KeepsAllButChildren` says that nothing else of an element changes, so two elements that
keep all but the children of a third one are the same as soon as their attribute `children` is
(`Element.KeepsAllButChildren.eq`). From this one more child after some children is those children
with one more (`Element.child_withChildren`), and by induction children put one by one are children
put at once (`Element.foldl_child`).
-/

namespace FlatChart.Element

/-! ## The children of an element -/

/-- Some elements are the children of an element in document order. -/
def ChildrenInOrder (e : Element) (children : List Element) : Prop :=
  (e.attributes.get? "children" = none ∧ children = []) ∨
    ∃ a, e.attributes.get? "children" = some a ∧ a.InOrder children

/-- The children in document order are those that are collected. -/
theorem childrenInOrder_iff {e : Element} {children : List Element} :
    e.ChildrenInOrder children ↔ children = e.children := by
  rw [ChildrenInOrder, Element.children]
  cases e.attributes.get? "children" <;> simp [Attribute.inOrder_iff]

/-- The children of a fragment stand for it. -/
theorem splice_of_fragment {e : Element} (h : e.type = .fragment) : e.splice = e.children := by
  rw [splice, h]

/-! ## What is kept -/

/-- Two elements that are the same but for their children. -/
structure SameBesidesChildren (e e' : Element) : Prop where
  /-- They are made from the same. -/
  type : e'.type = e.type
  /-- They have the same attributes. -/
  attributes : ∀ name, name ≠ "children" → e'.attributes.get? name = e.attributes.get? name

/-- An element is another one but for its children: made from the same, with the same bookkeeping
and the same other attributes. -/
structure KeepsAllButChildren (e e' : Element) : Prop extends SameBesidesChildren e e' where
  /-- They have the same key. -/
  key : e'.key = e.key
  /-- They have the same name of a reference. -/
  refName : e'.refName = e.refName
  /-- They have the same owner. -/
  owner : e'.owner = e.owner
  /-- They have the same private data. -/
  store : e'.store = e.store

/-- Doing nothing keeps everything. -/
theorem KeepsAllButChildren.refl (e : Element) : e.KeepsAllButChildren e :=
  ⟨⟨rfl, fun _ _ => rfl⟩, rfl, rfl, rfl, rfl⟩

/-- What two changes keep, both keep together. -/
theorem KeepsAllButChildren.trans {e f g : Element} (h : e.KeepsAllButChildren f)
    (h' : f.KeepsAllButChildren g) : e.KeepsAllButChildren g where
  type := h'.type.trans h.type
  attributes name hname := (h'.attributes name hname).trans (h.attributes name hname)
  key := h'.key.trans h.key
  refName := h'.refName.trans h.refName
  owner := h'.owner.trans h.owner
  store := h'.store.trans h.store

/-- Two elements that keep all but the children of a third one differ in their children only. -/
theorem KeepsAllButChildren.eq {e f g : Element} (hf : e.KeepsAllButChildren f)
    (hg : e.KeepsAllButChildren g)
    (hchildren : f.attributes.get? "children" = g.attributes.get? "children") : f = g := by
  have hattributes : f.attributes = g.attributes := SortedMap.ext_get? fun name => by
    by_cases hname : name = "children"
    · rw [hname, hchildren]
    · rw [hf.attributes name hname, hg.attributes name hname]
  obtain ⟨⟨ftype, -⟩, fkey, frefName, fowner, fstore⟩ := hf
  obtain ⟨⟨gtype, -⟩, gkey, grefName, gowner, gstore⟩ := hg
  cases f
  cases g
  simp_all

/-- Setting the children keeps everything else. -/
theorem keepsAllButChildren_withAttribute (e : Element) (b : Attribute Element) :
    e.KeepsAllButChildren (e.withAttribute "children" b) :=
  ⟨⟨rfl, fun name hname => by rw [withAttribute, SortedMap.get?_insert, if_neg hname]⟩,
    rfl, rfl, rfl, rfl⟩

/-- One more child keeps everything else. -/
theorem keepsAllButChildren_child (e x : Element) : e.KeepsAllButChildren (e.child x) :=
  e.keepsAllButChildren_withAttribute _

/-- Other children keep everything else. -/
theorem keepsAllButChildren_withChildren (e : Element) (xs : List Element) :
    e.KeepsAllButChildren (e.withChildren xs) := by
  rw [withChildren]
  cases Attribute.ofChildren? xs with
  | none =>
    exact ⟨⟨rfl, fun name hname => by rw [SortedMap.get?_erase, if_neg hname]⟩, rfl, rfl, rfl, rfl⟩
  | some a => exact e.keepsAllButChildren_withAttribute a

/-! ## One more child, and other children -/

/-- An attribute that is set is found. -/
theorem get?_withAttribute (e : Element) (name : String) (b : Attribute Element) :
    (e.withAttribute name b).attributes.get? name = some b := SortedMap.get?_insert_self ..

/-- Other children are stored as a list of children is. -/
theorem get?_withChildren (e : Element) (xs : List Element) :
    (e.withChildren xs).attributes.get? "children" = Attribute.ofChildren? xs := by
  cases hxs : Attribute.ofChildren? xs with
  | none => rw [withChildren, hxs, SortedMap.get?_erase, if_pos rfl]
  | some a => rw [withChildren, hxs, get?_withAttribute]

/-- One more child is the last one. -/
theorem children_child (e x : Element) : (e.child x).children = e.children ++ [x] := by
  rw [children, child, get?_withAttribute, children]
  rcases e.attributes.get? "children" with _ | a
  · rfl
  · cases a with
    | list items =>
      show (Attribute.list (items ++ [.node x])).nodes = (Attribute.list items).nodes ++ [x]
      rw [Attribute.nodes_list, Attribute.nodes_list, List.flatMap_append]
      rfl
    | _ => rfl

/-- Other children take the place of all there were. -/
theorem children_withChildren (e : Element) (xs : List Element) :
    (e.withChildren xs).children = xs := by
  rw [children, get?_withChildren]
  rcases xs with _ | ⟨x, _ | ⟨y, xs⟩⟩
  · rfl
  · rfl
  · exact Attribute.nodes_list_node (x :: y :: xs)

/-- One more child after some children is those children with one more. -/
theorem child_withChildren (e x : Element) (xs : List Element) :
    (e.withChildren xs).child x = e.withChildren (xs ++ [x]) := by
  have hkeeps := (e.keepsAllButChildren_withChildren xs).trans
    ((e.withChildren xs).keepsAllButChildren_child x)
  refine hkeeps.eq (e.keepsAllButChildren_withChildren (xs ++ [x])) ?_
  rw [get?_withChildren, child, get?_withAttribute, get?_withChildren]
  rcases xs with _ | ⟨y, _ | ⟨z, xs⟩⟩ <;> simp [Attribute.ofChildren?]

/-- Children put one by one after some children are put at once. -/
theorem foldl_child_withChildren (e : Element) (xs ys : List Element) :
    ys.foldl child (e.withChildren xs) = e.withChildren (xs ++ ys) := by
  induction ys generalizing xs with
  | nil => rw [List.foldl_nil, List.append_nil]
  | cons y ys ih =>
    rw [List.foldl_cons, child_withChildren, ih, List.append_assoc, List.singleton_append]

/-- Without children, putting none changes nothing. -/
theorem withChildren_nil {e : Element} (h : e.attributes.get? "children" = none) :
    e.withChildren [] = e :=
  (e.keepsAllButChildren_withChildren []).eq (.refl e) (by rw [get?_withChildren, h]; rfl)

/-- Children put one by one where there were none are put at once. -/
theorem foldl_child {e : Element} (h : e.attributes.get? "children" = none) (xs : List Element) :
    xs.foldl child e = e.withChildren xs := by
  have hall := e.foldl_child_withChildren [] xs
  rwa [withChildren_nil h] at hall

/-- The children of an element are a list, whatever form their attribute has: the elements at all
places of it in document order. One more child is put at the end of this list, other children take
its place, and nothing else of the element changes. Where there were no children, they may be put
one by one or at once; they are stored as nothing, as a node or as a list of nodes. The children of
a fragment stand for it, so putting them among others is putting them where it stands. -/
theorem children_as_list (e : Element) :
    (∀ xs, e.ChildrenInOrder xs ↔ xs = e.children) ∧
      (∀ x, (e.child x).children = e.children ++ [x] ∧ e.KeepsAllButChildren (e.child x)) ∧
      (∀ xs, (e.withChildren xs).children = xs ∧ e.KeepsAllButChildren (e.withChildren xs)) ∧
      (e.attributes.get? "children" = none → ∀ xs, xs.foldl child e = e.withChildren xs) ∧
      ((e.withChildren []).attributes.get? "children" = none ∧
        (∀ x, (e.withChildren [x]).attributes.get? "children" = some (.node x)) ∧
        ∀ x y xs, (e.withChildren (x :: y :: xs)).attributes.get? "children" =
          some (.list ((x :: y :: xs).map .node))) ∧
      (e.type = .fragment → ∀ ys, (e.withChildren ys).splice = ys ∧
        ∀ (f : Element) (xs zs : List Element),
          f.withChildren (xs ++ (e.withChildren ys).splice ++ zs) =
            f.withChildren (xs ++ ys ++ zs)) := by
  refine ⟨fun xs => childrenInOrder_iff,
    fun x => ⟨e.children_child x, e.keepsAllButChildren_child x⟩,
    fun xs => ⟨e.children_withChildren xs, e.keepsAllButChildren_withChildren xs⟩, foldl_child,
    ⟨e.get?_withChildren [], fun x => e.get?_withChildren [x],
      fun x y xs => e.get?_withChildren (x :: y :: xs)⟩, fun he ys => ?_⟩
  have hsplice : (e.withChildren ys).splice = ys := by
    have htype := (e.keepsAllButChildren_withChildren ys).type.trans he
    rw [splice_of_fragment htype, children_withChildren]
  exact ⟨hsplice, fun f xs zs => by rw [hsplice]⟩

/-- A tool. -/
def tool (name : String) : Element := intrinsic name

/-- A rack without tools, which has a key and a title. -/
def rack : Element := (fragment.withKey "rack").withAttribute "title" (.data (.str "tools"))

/-- A bench with two tools, in lists and among other things. -/
def bench : Element :=
  (component "Bench").withAttribute "children"
    (.list [.data .null, .list [.node (tool "saw"), .list []], .node (tool "file")])

/-- A bench gains one tool and then has another one in place of all; a rack is filled with tools one
by one, and its tools stand for it among others. -/
theorem children_as_list_rack :
    bench.ChildrenInOrder [tool "saw", tool "file"] ∧
      (bench.child (tool "clamp")).children = [tool "saw", tool "file", tool "clamp"] ∧
      ((bench.child (tool "clamp")).withChildren [tool "vise"]).children = [tool "vise"] ∧
      [tool "saw", tool "file", tool "clamp"].foldl child rack =
        rack.withChildren [tool "saw", tool "file", tool "clamp"] ∧
      (rack.withChildren [tool "saw", tool "file"]).splice = [tool "saw", tool "file"] ∧
      fragment.withChildren ([tool "vise"] ++
          (rack.withChildren [tool "saw", tool "file"]).splice ++ [tool "clamp"]) =
        fragment.withChildren [tool "vise", tool "saw", tool "file", tool "clamp"] := by
  have hbench : bench.children = [tool "saw", tool "file"] := by
    rw [children, bench, get?_withAttribute]
    rfl
  have hrack : rack.attributes.get? "children" = none := by
    rw [rack, withAttribute, SortedMap.get?_insert, if_neg (by decide)]
    exact SortedMap.get?_empty _
  obtain ⟨horder, hchild, -⟩ := children_as_list bench
  obtain ⟨-, -, hother, -⟩ := children_as_list (bench.child (tool "clamp"))
  obtain ⟨-, -, -, hfoldl, -, hsplice⟩ := children_as_list rack
  obtain ⟨hnodes, hamong⟩ := hsplice rfl [tool "saw", tool "file"]
  refine ⟨(horder _).2 hbench.symm, ?_, (hother _).1, hfoldl hrack _, hnodes, hamong _ _ _⟩
  rw [(hchild (tool "clamp")).1, hbench]
  rfl

end FlatChart.Element
