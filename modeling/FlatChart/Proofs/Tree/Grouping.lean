import FlatChart.Proofs.Chart.Modify
import FlatChart.Proofs.Tree.Children
import FlatChart.Proofs.Tree.Declarations

/-!
# How children are grouped

Children may be a node, or lists of any nesting with anything in between; a tree compiles to what
their nodes are in document order, and of these only to what has the right tag at its place: states
and final states under the root (`Node.compile_congr`), transitions under a state
(`Node.transitions_congr`). `Element.modifyChild` changes one child of the root where it stands.
When only the children of that child are changed, all it can change is the state that it declares,
and this only where it is the last declaration of the state
(`Element.compile_modifyChild_of_last`). The whole is `Element.compile_regrouped`, where having no
children at all is told apart from having none that count.
-/

namespace FlatChart

/-! ## Changing one child -/

section Modify

variable {N : Type}

mutual
/-- The attribute with the node at a place in document order changed. Lists keep their shape. -/
def Attribute.modifyNode (f : N → N) : (i : ℕ) → Attribute N → Attribute N
  | i, .node n => .node (if i = 0 then f n else n)
  | i, .list items => .list (Attribute.modifyNodeOfItems f i items)
  | _, .data v => .data v
  | _, .callback g => .callback g
  | _, .guard g => .guard g
  | _, .reducer g => .reducer g

/-- The items of a list with the node at a place in document order changed. -/
def Attribute.modifyNodeOfItems (f : N → N) : (i : ℕ) → List (Attribute N) → List (Attribute N)
  | _, [] => []
  | i, a :: rest =>
    if i < a.nodes.length then a.modifyNode f i :: rest
    else a :: Attribute.modifyNodeOfItems f (i - a.nodes.length) rest
end

/-- A change in a first list leaves the second one. -/
theorem modify_append_of_lt (f : N → N) {i : ℕ} {as : List N} (h : i < as.length) (bs : List N) :
    (as ++ bs).modify i f = as.modify i f ++ bs := by
  induction as generalizing i with
  | nil => exact absurd h (Nat.not_lt_zero i)
  | cons a as ih =>
    cases i with
    | zero => rfl
    | succ i =>
      rw [List.cons_append, List.modify_succ_cons, List.modify_succ_cons,
        ih (Nat.lt_of_succ_lt_succ h), List.cons_append]

/-- A change beyond a first list is one in the second. -/
theorem modify_append_of_le (f : N → N) {i : ℕ} {as : List N} (h : as.length ≤ i) (bs : List N) :
    (as ++ bs).modify i f = as ++ bs.modify (i - as.length) f := by
  induction as generalizing i with
  | nil => rfl
  | cons a as ih =>
    obtain ⟨i, rfl⟩ : ∃ n, i = n + 1 := ⟨i - 1, by rw [List.length_cons] at h; omega⟩
    rw [List.cons_append, List.modify_succ_cons, ih (Nat.le_of_succ_le_succ h), List.cons_append,
      List.length_cons, Nat.add_sub_add_right]

mutual
/-- The nodes of a changed attribute are the nodes with one changed. -/
theorem Attribute.nodes_modifyNode (f : N → N) (i : ℕ) :
    (a : Attribute N) → (a.modifyNode f i).nodes = a.nodes.modify i f
  | .node n => by cases i <;> simp [modifyNode, nodes]
  | .list items => by
    rw [modifyNode, nodes, nodes]
    exact nodesOfItems_modifyNode f i items
  | .data _ => by simp [modifyNode, nodes]
  | .callback _ => by simp [modifyNode, nodes]
  | .guard _ => by simp [modifyNode, nodes]
  | .reducer _ => by simp [modifyNode, nodes]

/-- The nodes of changed items are the nodes with one changed. -/
theorem Attribute.nodesOfItems_modifyNode (f : N → N) (i : ℕ) : (items : List (Attribute N)) →
    nodesOfItems (modifyNodeOfItems f i items) = (nodesOfItems items).modify i f
  | [] => by simp [modifyNodeOfItems, nodesOfItems]
  | a :: rest => by
    rw [modifyNodeOfItems]
    split_ifs with h
    · rw [nodesOfItems, nodesOfItems, a.nodes_modifyNode f i, modify_append_of_lt f h]
    · rw [nodesOfItems, nodesOfItems, nodesOfItems_modifyNode f _ rest,
        modify_append_of_le f (Nat.le_of_not_lt h)]
end

end Modify

/-! ## What is read of children -/

/-- The nodes of an attribute that are read at a place where only some tags are. -/
def Attribute.tagged (read : Tag → Bool) (a : Attribute Element) : List Node :=
  a.normalize.nodes.filter fun n => read n.tag

namespace Node

/-- A tree compiles to what those of its children declare that have the tag of a state. -/
theorem compile_congr {root root' : Node}
    (h : (root'.children.filter fun n => n.tag.isStateLike) =
      root.children.filter fun n => n.tag.isStateLike) (context : Option Json) :
    root'.compile context = root.compile context := by
  have hdeclarations : ∀ n : Node, n.declarations =
      (n.children.filter fun m => m.tag.isStateLike).filterMap fun m =>
        (m.text? "id").map fun id => (id, m) := by
    intro n
    rw [declarations, List.filterMap_filter]
  rw [compile, compile, hdeclarations, hdeclarations, h]

/-- A state has the transitions that those of its children declare that have the tag of one. -/
theorem transitions_congr {n n' : Node}
    (h : (n'.children.filter fun m => decide (m.tag = .transition)) =
      n.children.filter fun m => decide (m.tag = .transition)) :
    n'.transitions = n.transitions := by
  have htransitions : ∀ n : Node, n.transitions =
      .ofList ((n.children.filter fun m => decide (m.tag = .transition)).filterMap fun m =>
        (m.text? "event").map fun event => (event, m.transition)) := by
    intro n
    rw [transitions, List.filterMap_filter]
    simp only [decide_eq_true_eq]
  rw [htransitions, htransitions, h]

end Node

namespace Element

/-- The element with the child at a place in document order changed. -/
def modifyChild (e : Element) (i : ℕ) (f : Element → Element) : Element :=
  { e with attributes := e.attributes.modify "children" (Attribute.modifyNode f i) }

/-- The children of a changed element are the children with one changed. -/
theorem children_modifyChild (e : Element) (i : ℕ) (f : Element → Element) :
    (e.modifyChild i f).children = e.children.modify i f := by
  rw [children, children, modifyChild, SortedMap.get?_modify, if_pos rfl]
  cases e.attributes.get? "children" with
  | none => simp
  | some a => exact a.nodes_modifyNode f i

/-- The child at a place is the last one that declares the state of a name. -/
structure DeclaresLast (tree : Element) (i : ℕ) (id : String) : Prop where
  /-- It declares the state. -/
  declares : ∃ s, tree.children[i]? = some s ∧ s.stateName? = some id
  /-- No later one does. -/
  last : ∀ j m, i < j → tree.children[j]? = some m → m.stateName? ≠ some id

/-- Other attributes than the children become the same attributes of a node. -/
theorem SameBesidesChildren.attribute? {e e' : Element} (h : e.SameBesidesChildren e')
    {name : String} (hname : name ≠ "children") :
    e'.normalize.attribute? name = e.normalize.attribute? name := by
  rw [attribute?_normalize, attribute?_normalize, h.attributes name hname]

/-- Both become nodes of the same tag. -/
theorem SameBesidesChildren.tag {e e' : Element} (h : e.SameBesidesChildren e') :
    e'.normalize.tag = e.normalize.tag := by
  rw [tag_normalize, tag_normalize, name?, name?, h.type]

/-- Both declare a state of the same name. -/
theorem SameBesidesChildren.stateName? {e e' : Element} (h : e.SameBesidesChildren e') :
    e'.stateName? = e.stateName? := by
  rw [Element.stateName?, Element.stateName?, h.tag, Node.text?, Node.text?,
    h.attribute? (by decide)]

/-- Both say the same of where a machine starts. -/
theorem SameBesidesChildren.mark? {e e' : Element} (h : e.SameBesidesChildren e') :
    e'.mark? = e.mark? := by
  rw [Element.mark?, Element.mark?, h.stateName?, Node.isTruthy, Node.isTruthy,
    h.attribute? (by decide)]

/-! ## Where one child stands -/

/-- A child stands between the children before it and those after it, also when it is changed. -/
theorem exists_children_eq {tree s : Element} {i : ℕ} (hs : tree.children[i]? = some s)
    (f : Element → Element) :
    ∃ before after, before.length = i ∧ tree.children = before ++ s :: after ∧
      (tree.modifyChild i f).children = before ++ f s :: after := by
  obtain ⟨hi, hget⟩ := List.getElem?_eq_some_iff.1 hs
  obtain ⟨before, m, after, hchildren, hlength, hmodify⟩ := List.exists_of_modify f hi
  have hm : m = s := by
    rw [← hget]
    simp [hchildren, ← hlength]
  subst hm
  exact ⟨before, after, hlength, hchildren, (children_modifyChild tree i f).trans hmodify⟩

/-- A child is the last declaration when it declares the state and no child after it does. -/
theorem declaresLast_iff {tree s : Element} {before after : List Element}
    (hchildren : tree.children = before ++ s :: after) (id : String) :
    tree.DeclaresLast before.length id ↔
      s.stateName? = some id ∧ ∀ m ∈ after, m.stateName? ≠ some id := by
  have hs : tree.children[before.length]? = some s := by simp [hchildren]
  have hafter : ∀ k, tree.children[before.length + 1 + k]? = after[k]? := by
    intro k
    rw [hchildren, List.getElem?_append_right (by omega)]
    rw [show before.length + 1 + k - before.length = k + 1 by omega]
    rfl
  constructor
  · rintro ⟨⟨s', hs', hname⟩, hlast⟩
    obtain rfl : s' = s := Option.some.inj (hs'.symm.trans hs)
    refine ⟨hname, fun m hm => ?_⟩
    obtain ⟨k, hk⟩ := List.mem_iff_getElem?.1 hm
    exact hlast (before.length + 1 + k) m (by omega) ((hafter k).trans hk)
  · rintro ⟨hname, hlast⟩
    refine ⟨⟨s, hs, hname⟩, fun j m hj hm => ?_⟩
    obtain ⟨k, rfl⟩ : ∃ k, j = before.length + 1 + k := ⟨j - before.length - 1, by omega⟩
    exact hlast m (List.mem_of_getElem? ((hafter k).symm.trans hm))

/-- The declaration that counts is looked for in the children after a child, then in the child, and
then in those before it. -/
theorem stateDeclaration?_eq {tree s : Element} {before after : List Element}
    (hchildren : tree.children = before ++ s :: after) (id : String) :
    tree.stateDeclaration? id =
      (after.reverse.find? fun m => m.stateName? = some id).or
        (if s.stateName? = some id then some s
          else before.reverse.find? fun m => m.stateName? = some id) := by
  rw [stateDeclaration?, hchildren]
  simp only [List.reverse_append, List.reverse_cons, List.append_assoc, List.singleton_append,
    List.find?_append, List.find?_cons]
  by_cases hname : s.stateName? = some id <;> simp [hname]

/-- The last declaration of a state is the one that counts. -/
theorem DeclaresLast.stateDeclaration? {tree s : Element} {i : ℕ} {id : String}
    (h : tree.DeclaresLast i id) (hs : tree.children[i]? = some s) :
    tree.stateDeclaration? id = some s := by
  obtain ⟨before, after, rfl, hchildren, -⟩ := exists_children_eq hs fun m => m
  obtain ⟨hname, hlast⟩ := (declaresLast_iff hchildren id).1 h
  have hnone : (after.reverse.find? fun m => m.stateName? = some id) = none := by
    simpa using hlast
  rw [stateDeclaration?_eq hchildren, hnone, if_pos hname, Option.none_or]

variable {tree s : Element} {i : ℕ} {f : Element → Element}

/-- A changed child is the last declaration when it was before. -/
theorem declaresLast_modifyChild (hs : tree.children[i]? = some s)
    (hsame : s.SameBesidesChildren (f s)) (id : String) :
    (tree.modifyChild i f).DeclaresLast i id ↔ tree.DeclaresLast i id := by
  obtain ⟨before, after, rfl, hchildren, hmodify⟩ := exists_children_eq hs f
  rw [declaresLast_iff hchildren, declaresLast_iff hmodify, hsame.stateName?]

/-- Where a changed child is not the last declaration of a state, the same one counts as before. -/
theorem stateDeclaration?_modifyChild (hs : tree.children[i]? = some s)
    (hsame : s.SameBesidesChildren (f s)) {id : String} (hlast : ¬ tree.DeclaresLast i id) :
    (tree.modifyChild i f).stateDeclaration? id = tree.stateDeclaration? id := by
  obtain ⟨before, after, rfl, hchildren, hmodify⟩ := exists_children_eq hs f
  rw [declaresLast_iff hchildren] at hlast
  rw [stateDeclaration?_eq hchildren, stateDeclaration?_eq hmodify, hsame.stateName?]
  by_cases hname : s.stateName? = some id
  · -- A later child declares the state, so it is found before the changed one.
    obtain ⟨m, hm, hdeclares⟩ : ∃ m ∈ after, m.stateName? = some id := by
      simpa [hname] using hlast
    have hsome : (after.reverse.find? fun m => m.stateName? = some id).isSome = true :=
      List.find?_isSome.2 ⟨m, List.mem_reverse.2 hm, decide_eq_true hdeclares⟩
    obtain ⟨found, hfound⟩ := Option.isSome_iff_exists.1 hsome
    rw [hfound, Option.some_or, Option.some_or]
  · rw [if_neg hname, if_neg hname]

/-- A chart starts in the same state when one child is changed in its children only. -/
theorem initial_modifyChild (hs : tree.children[i]? = some s)
    (hsame : s.SameBesidesChildren (f s)) (context : Option Json) :
    ((tree.modifyChild i f).compile context).initial = (tree.compile context).initial := by
  obtain ⟨before, after, -, hchildren, hmodify⟩ := exists_children_eq hs f
  refine initial_congr ?_ context
  simp only [hchildren, hmodify, List.filterMap_append, List.filterMap_cons, hsame.mark?]

/-- The chart of a tree is known from where it starts and which declarations count. -/
theorem compile_eq {tree : Element} {context : Option Json} {c : Chart}
    (hcontext : c.context = context) (hinitial : c.initial = (tree.compile context).initial)
    (hstates : ∀ id, c.state? id =
      (tree.stateDeclaration? id).map fun child => child.normalize.state) :
    tree.compile context = c := by
  have hmaps : (tree.compile context).states = c.states := SortedMap.ext_get? fun id => by
    have h := (state?_compile tree context id).trans (hstates id).symm
    rwa [Chart.state?, Chart.state?] at h
  have hsame : (tree.compile context).context = context := rfl
  cases c
  cases hc : tree.compile context
  simp_all

/-- A child that is changed in its children only changes the chart where it is the last declaration
of a state, and there it changes the state. -/
theorem compile_modifyChild_of_last (hs : tree.children[i]? = some s)
    (hsame : s.SameBesidesChildren (f s)) (context : Option Json) {id : String}
    (hlast : tree.DeclaresLast i id) :
    (tree.modifyChild i f).compile context =
      (tree.compile context).modifyState id fun _ => (f s).normalize.state := by
  refine compile_eq rfl (initial_modifyChild hs hsame context).symm fun other => ?_
  by_cases hother : other = id
  · subst hother
    have hs' : (tree.modifyChild i f).children[i]? = some (f s) := by
      rw [children_modifyChild, List.getElem?_modify_eq, hs]
      rfl
    have hlast' := (declaresLast_modifyChild hs hsame other).2 hlast
    rw [Chart.state?_modifyState, state?_compile, hlast.stateDeclaration? hs,
      hlast'.stateDeclaration? hs']
    rfl
  · -- It declares one state only, so it does not count for any other one.
    have hnot : ¬ tree.DeclaresLast i other := by
      intro h
      have hdeclaration := h.stateDeclaration? hs
      obtain ⟨s₁, hs₁, hname₁⟩ := h.declares
      obtain ⟨s₂, hs₂, hname₂⟩ := hlast.declares
      obtain rfl : s₁ = s₂ := Option.some.inj (hs₁.symm.trans hs₂)
      exact hother (Option.some.inj (hname₁.symm.trans hname₂))
    rw [Chart.state?_modifyState_of_ne _ hother, state?_compile,
      stateDeclaration?_modifyChild hs hsame hnot]

/-- A child that is changed in its children only changes nothing where it is no last declaration. -/
theorem compile_modifyChild_of_not_last (hs : tree.children[i]? = some s)
    (hsame : s.SameBesidesChildren (f s)) (context : Option Json)
    (hlast : ¬ ∃ id, tree.DeclaresLast i id) :
    (tree.modifyChild i f).compile context = tree.compile context := by
  refine compile_eq rfl (initial_modifyChild hs hsame context).symm fun id => ?_
  rw [state?_compile, stateDeclaration?_modifyChild hs hsame fun h => hlast ⟨id, h⟩]

/-- A child that declares the same state as before changes nothing. -/
theorem compile_modifyChild_of_state (hs : tree.children[i]? = some s)
    (hsame : s.SameBesidesChildren (f s)) (hstate : (f s).normalize.state = s.normalize.state)
    (context : Option Json) : (tree.modifyChild i f).compile context = tree.compile context := by
  by_cases hlast : ∃ id, tree.DeclaresLast i id
  · obtain ⟨id, hlast⟩ := hlast
    have hfound : (tree.compile context).state? id = some s.normalize.state := by
      rw [state?_compile, hlast.stateDeclaration? hs]
      rfl
    calc (tree.modifyChild i f).compile context
        = (tree.compile context).modifyState id fun _ => (f s).normalize.state :=
          compile_modifyChild_of_last hs hsame context hlast
      _ = tree.compile context := Chart.modifyState_eq_self fun state hfound' => by
          rw [hstate]
          exact Option.some.inj (hfound.symm.trans hfound')
  · exact compile_modifyChild_of_not_last hs hsame context hlast

/-! ## Other children -/

/-- The children of the node of an element are the nodes of its attribute. -/
theorem children_normalize_of_get? {e : Element} {a : Attribute Element}
    (h : e.attributes.get? "children" = some a) : e.normalize.children = a.normalize.nodes := by
  rw [Node.children, attribute?_normalize, h]
  rfl

/-- Without children there are none. -/
theorem children_normalize_withChildren_nil (e : Element) :
    (e.withChildren []).normalize.children = [] := by
  rw [children_normalize, children_withChildren, List.map_nil]

/-- A state with children declares the transitions among them. -/
theorem state_normalize_of_get? {e : Element} {a : Attribute Element}
    (htag : e.normalize.tag = .state) (h : e.attributes.get? "children" = some a) :
    e.normalize.state = { on := some e.normalize.transitions } := by
  have hchildren : e.normalize.hasChildren = true := by
    rw [Node.hasChildren_eq, attribute?_normalize, h]
    rfl
  rw [Node.state_of_not_final (by simp [htag]), if_pos hchildren]

/-- A state without children declares nothing. -/
theorem state_normalize_withChildren_nil {e : Element} (htag : e.normalize.tag = .state) :
    (e.withChildren []).normalize.state = {} := by
  have hsame := (e.keepsAllButChildren_withChildren []).toSameBesidesChildren
  have hchildren : (e.withChildren []).normalize.hasChildren = false := by
    rw [Node.hasChildren_eq, attribute?_normalize, get?_withChildren]
    rfl
  rw [Node.state_of_not_final (by simp [hsame.tag, htag]), hchildren]
  rfl

/-- A state with other children declares the same when the same transitions are among them. -/
theorem state_normalize_withAttribute {e : Element} {a b : Attribute Element}
    (htag : e.normalize.tag = .state) (ha : e.attributes.get? "children" = some a)
    (hb : b.tagged (· = .transition) = a.tagged (· = .transition)) :
    (e.withAttribute "children" b).normalize.state = e.normalize.state := by
  have hsame := (e.keepsAllButChildren_withAttribute b).toSameBesidesChildren
  have hget := e.get?_withAttribute "children" b
  have htransitions : (e.withAttribute "children" b).normalize.transitions =
      e.normalize.transitions := by
    refine Node.transitions_congr ?_
    rw [children_normalize_of_get? hget, children_normalize_of_get? ha]
    exact hb
  rw [state_normalize_of_get? (hsame.tag.trans htag) hget, state_normalize_of_get? htag ha,
    htransitions]

/-- A state with children, none of which is a transition, has an empty map of transitions. -/
theorem state_normalize_of_tagged_nil {e : Element} {a : Attribute Element}
    (htag : e.normalize.tag = .state) (ha : e.attributes.get? "children" = some a)
    (hnone : a.tagged (· = .transition) = []) : e.normalize.state = { on := some ∅ } := by
  have htransitions : e.normalize.transitions = (e.withChildren []).normalize.transitions := by
    refine Node.transitions_congr ?_
    rw [children_normalize_withChildren_nil, children_normalize_of_get? ha]
    exact hnone
  have hempty : (e.withChildren []).normalize.transitions = ∅ := by
    rw [Node.transitions, children_normalize_withChildren_nil]
    rfl
  rw [state_normalize_of_get? htag ha, htransitions, hempty]

/-- A tree compiles to the same chart whatever stands in place of the children of its root, as long
as the same states and final states stand there in the same order, and also when none stand there
and the children are dropped. The same holds of the children of a state and its transitions, but for
one thing: a state without transitions has an empty map of them with children and none without. So
when its children are dropped this one map is gone, if the state is the last one of its name, and
nothing else changes. -/
theorem compile_regrouped (tree : Element) (context : Option Json) :
    (∀ a, tree.attributes.get? "children" = some a →
      (∀ b : Attribute Element, b.tagged Tag.isStateLike = a.tagged Tag.isStateLike →
        (tree.withAttribute "children" b).compile context = tree.compile context) ∧
      (a.tagged Tag.isStateLike = [] →
        (tree.withChildren []).compile context = tree.compile context)) ∧
    ∀ i s a, tree.children[i]? = some s → s.normalize.tag = .state →
      s.attributes.get? "children" = some a →
      (∀ b : Attribute Element, b.tagged (· = .transition) = a.tagged (· = .transition) →
        (tree.modifyChild i (·.withAttribute "children" b)).compile context =
          tree.compile context) ∧
      (a.tagged (· = .transition) = [] →
        (∀ id, tree.DeclaresLast i id →
          (tree.compile context).state? id = some { on := some ∅ } ∧
          (tree.modifyChild i (·.withChildren [])).compile context =
            (tree.compile context).modifyState id fun state => { state with on := none }) ∧
        ((¬ ∃ id, tree.DeclaresLast i id) →
          (tree.modifyChild i (·.withChildren [])).compile context = tree.compile context)) := by
  refine ⟨fun a ha => ⟨fun b hb => ?_, fun hnone => ?_⟩, fun i s a hs htag ha =>
    ⟨fun b hb => ?_, fun hnone => ?_⟩⟩
  · refine Node.compile_congr ?_ context
    rw [children_normalize_of_get? (tree.get?_withAttribute _ b), children_normalize_of_get? ha]
    exact hb
  · refine Node.compile_congr ?_ context
    rw [children_normalize_withChildren_nil, children_normalize_of_get? ha]
    exact hnone.symm
  · have hsame := (s.keepsAllButChildren_withAttribute b).toSameBesidesChildren
    exact compile_modifyChild_of_state hs hsame (state_normalize_withAttribute htag ha hb) context
  · have hsame := (s.keepsAllButChildren_withChildren []).toSameBesidesChildren
    have hstate := state_normalize_of_tagged_nil htag ha hnone
    refine ⟨fun id hlast => ?_, compile_modifyChild_of_not_last hs hsame context⟩
    have hfound : (tree.compile context).state? id = some { on := some ∅ } := by
      rw [state?_compile, hlast.stateDeclaration? hs, Option.map_some, hstate]
    refine ⟨hfound, ?_⟩
    calc (tree.modifyChild i (·.withChildren [])).compile context
        = (tree.compile context).modifyState id fun _ => (s.withChildren []).normalize.state :=
          compile_modifyChild_of_last hs hsame context hlast
      _ = (tree.compile context).modifyState id fun state => { state with on := none } :=
          Chart.modifyState_congr fun state hstate' => by
            rw [state_normalize_withChildren_nil htag]
            obtain rfl : state = { on := some ∅ } := Option.some.inj (hstate'.symm.trans hfound)
            rfl

/-- A call for a dumbwaiter. -/
def call : Element := (component "Transition").withAttribute "event" (.data (.str "CALL"))

/-- A floor of a dumbwaiter. -/
def floor (id : String) (children : Attribute Element) : Element :=
  ((component "State").withAttribute "id" (.data (.str id))).withAttribute "children" children

/-- A dumbwaiter that answers one call upstairs. Downstairs is declared twice, without a call. -/
def dumbwaiter : Element :=
  fragment.withAttribute "children" (.list [.node (floor "up" (.node call)),
    .list [.node (floor "down" (.data .null)), .node (floor "down" (.list []))]])

/-- The floors may be grouped in another way, and so may the call upstairs. Without its children the
first declaration of the floor downstairs leaves the chart as it is, and without those of the second
one the floor loses its empty map of transitions. -/
theorem compile_regrouped_dumbwaiter :
    (dumbwaiter.withAttribute "children" (.list [.list [.data .null,
        .node (floor "up" (.node call))], .node call, .node (floor "down" (.data .null)),
        .node (floor "down" (.list []))])).compile none = dumbwaiter.compile none ∧
      (dumbwaiter.modifyChild 0 (·.withAttribute "children"
        (.list [.node fragment, .list [.node call]]))).compile none = dumbwaiter.compile none ∧
      (dumbwaiter.modifyChild 1 (·.withChildren [])).compile none = dumbwaiter.compile none ∧
      (dumbwaiter.compile none).state? "down" = some { on := some ∅ } ∧
      (dumbwaiter.modifyChild 2 (·.withChildren [])).compile none =
        (dumbwaiter.compile none).modifyState "down" fun state => { state with on := none } := by
  obtain ⟨hroot, hstates⟩ := compile_regrouped dumbwaiter none
  have hchildren : dumbwaiter.children =
      [floor "up" (.node call), floor "down" (.data .null), floor "down" (.list [])] := by
    rw [children, dumbwaiter, get?_withAttribute]
    rfl
  have hat : ∀ j : ℕ, dumbwaiter.children[j]? = [floor "up" (.node call),
      floor "down" (.data .null), floor "down" (.list [])][j]? := fun j => by rw [hchildren]
  obtain ⟨hup, -⟩ := hstates 0 _ _ (hat 0) rfl (get?_withAttribute ..)
  obtain ⟨-, hfirst⟩ := hstates 1 _ _ (hat 1) rfl (get?_withAttribute ..)
  obtain ⟨-, hsecond⟩ := hstates 2 _ _ (hat 2) rfl (get?_withAttribute ..)
  have hlast : dumbwaiter.DeclaresLast 2 "down" := by
    refine ⟨⟨_, hat 2, by decide +kernel⟩, fun j m hj hm => ?_⟩
    rw [hchildren, List.getElem?_eq_none (Nat.succ_le_of_lt hj)] at hm
    cases hm
  have hnot : ¬ ∃ id, dumbwaiter.DeclaresLast 1 id := by
    rintro ⟨id, ⟨s, hs, hname⟩, h⟩
    obtain rfl := Option.some.inj ((hat 1).symm.trans hs)
    exact h 2 _ (by decide) (hat 2) hname
  exact ⟨(hroot _ (get?_withAttribute ..)).1 _ rfl, hup _ rfl, (hfirst rfl).2 hnot,
    (hsecond rfl).1 "down" hlast⟩

end Element

end FlatChart
