import FlatChart.Proofs.Tree.Alike

/-!
# Charts of alike trees

Do alike trees compile to equal charts? Whatever compiling reads is the same in both, up to the
texts that become names of states, events and targets: `0.0` and `-0.0` are equal as data, and
written as a name they differ. `Element.names` are the texts that a tree puts into its chart, and
alike trees with the same names compile to equal charts (`Element.normalize_beq_iff`). Without that
they need not (`Element.zeroStation_differs`).

Both trees are read side by side: the children are alike position by position, and where the names
agree they agree at every position (`forall₂_of_filterMap_eq`), so the declarations are the same in
the same order.
-/

namespace FlatChart

/-! ## Reading two lists side by side -/

section

variable {α β κ μ : Type} {r : α → α → Prop} {s : β → β → Prop}

/-- Options with related values make related lists. -/
theorem forall₂_toList_map {f : α → β} (hf : ∀ v w, r v w → s (f v) (f w)) {a b : Option α}
    (h : Option.Rel r a b) : List.Forall₂ s (a.map f).toList (b.map f).toList := by
  cases h with
  | none => exact .nil
  | some hab => exact .cons (hf _ _ hab) .nil

/-- Where the same names are found in two lists, and at every position in both or in neither, the
names are the same at every position. -/
theorem forall₂_of_filterMap_eq {key : α → Option κ}
    (hkey : ∀ a b, r a b → (key a).isSome = (key b).isSome) {as bs : List α}
    (h : List.Forall₂ r as bs) (hkeys : as.filterMap key = bs.filterMap key) :
    List.Forall₂ (fun a b => r a b ∧ key a = key b) as bs := by
  -- By induction on the pairs: as both heads have a name or neither, the rests have the same names.
  induction h with
  | nil => exact .nil
  | @cons a b as bs hab _ ih =>
    have hsome := hkey a b hab
    cases ha : key a with
    | none =>
      have hb : key b = none := by simpa [ha] using hsome
      rw [List.filterMap_cons_none ha, List.filterMap_cons_none hb] at hkeys
      exact .cons ⟨hab, by rw [ha, hb]⟩ (ih hkeys)
    | some k =>
      obtain ⟨k', hb⟩ := Option.isSome_iff_exists.1 (hsome ▸ Option.isSome_of_mem ha)
      rw [List.filterMap_cons_some ha, List.filterMap_cons_some hb] at hkeys
      obtain ⟨hhead, htail⟩ := List.cons.inj hkeys
      exact .cons ⟨hab, by rw [ha, hb, hhead]⟩ (ih htail)

/-- Under the same name, with the same mark, related values make related entries. -/
theorem rel_entry {a b : Option κ} {x y : μ} {v w : β}
    (h : (a.map fun k => (k, x)) = b.map fun k => (k, y)) (hs : x = y → s v w) :
    Option.Rel (fun p q => p.1 = q.1 ∧ s p.2 q.2) (a.map fun k => (k, v))
      (b.map fun k => (k, w)) := by
  cases a with
  | none =>
    obtain rfl := Option.map_eq_none_iff.1 h.symm
    exact .none
  | some k =>
    obtain ⟨k', rfl, hk⟩ := Option.map_eq_some_iff.1 h.symm
    obtain ⟨rfl, rfl⟩ := Prod.mk.inj hk
    exact .some ⟨rfl, hs rfl⟩

end

/-! ## Equal charts -/

namespace Element

/-- The events that the children of an element declare, with the targets there. A final state
declares none. -/
def transitionNames (e : Element) : List (String × Option String) :=
  if e.normalize.tag = .final then [] else e.children.filterMap fun child =>
    child.eventName?.map fun event => (event, child.normalize.text? "target")

/-- The states that the children of a tree declare, with the events and targets there. -/
def names (tree : Element) : List (String × List (String × Option String)) :=
  tree.children.filterMap fun child => child.stateName?.map fun id => (id, child.transitionNames)

namespace Alike

variable {e f : Element}

/-- Alike elements with the same target declare equal transitions. -/
theorem beq_transition (h : e.Alike f)
    (htarget : e.normalize.text? "target" = f.normalize.text? "target") :
    (e.normalize.transition == f.normalize.transition) = true := by
  have haction := h.rel_bind_attribute? "action" Attribute.callback? fun a b hab => by
    simpa using hab.rel_callback?
  have hassign := h.rel_bind_attribute? "assign" Attribute.reducer? fun a b hab => by
    simpa using hab.rel_reducer?
  have hcond := h.rel_bind_attribute? "cond" Attribute.guard? fun a b hab => by
    simpa using hab.rel_guard?
  have hactions : (e.normalize.actions == f.normalize.actions) = true := by
    rw [Node.actions, Node.actions]
    refine beq_of_forall₂ (List.rel_append ?_ ?_)
    · refine forall₂_toList_map ?_ haction
      exact fun _ _ same => same
    · refine forall₂_toList_map ?_ hassign
      exact fun _ _ same => same
  have hextra : (e.normalize.extra == f.normalize.extra) = true := by
    refine SortedMap.beq_iff.2 fun key => ?_
    rw [Node.extra, Node.extra, SortedMap.get?_filterMap, SortedMap.get?_filterMap]
    refine h.rel_bind_attribute? key _ fun a b hab => ?_
    split
    · exact .none
    · simpa using hab.rel_data?
  exact Transition.beq_iff.2 ⟨htarget, hactions, beq_iff_rel.2 hcond, hextra⟩

/-- Alike elements with the same events and targets declare equal states. -/
theorem beq_state (h : e.Alike f) (hnames : e.transitionNames = f.transitionNames) :
    (e.normalize.state == f.normalize.state) = true := by
  by_cases hfinal : e.normalize.tag = .final
  · rw [Node.state_of_final hfinal, Node.state_of_final (h.tag_eq ▸ hfinal)]
    rfl
  have hfinal' : f.normalize.tag ≠ .final := h.tag_eq ▸ hfinal
  have htransitions : (e.normalize.transitions == f.normalize.transitions) = true := by
    rw [transitionNames, transitionNames, if_neg hfinal, if_neg hfinal'] at hnames
    have hchildren := forall₂_of_filterMap_eq
      (fun a b hab => by simpa using hab.isSome_eventName?_eq) h.children hnames
    rw [transitions_normalize, transitions_normalize]
    refine SortedMap.beq_ofList (List.rel_filterMap (fun a b hab => ?_) hchildren)
    exact rel_entry (s := fun t u => (t == u) = true) hab.2 hab.1.beq_transition
  rw [Node.state_of_not_final hfinal, Node.state_of_not_final hfinal', h.hasChildren_eq]
  split
  · exact State.beq_iff.2 ⟨rfl, htransitions, rfl, rfl, rfl⟩
  · rfl

/-- Alike trees with the same names declare alike states under the same names. -/
theorem declarations (h : e.Alike f) (hnames : e.names = f.names) :
    List.Forall₂ (fun d d' => d.1 = d'.1 ∧ d.2.Alike d'.2 ∧
      d.2.transitionNames = d'.2.transitionNames) e.declarations f.declarations := by
  have hchildren := forall₂_of_filterMap_eq
    (fun a b hab => by simpa using hab.isSome_stateName?_eq) h.children hnames
  rw [declarations_eq, declarations_eq]
  refine List.rel_filterMap (fun a b hab => ?_) hchildren
  exact rel_entry
    (s := fun c d : Element => c.Alike d ∧ c.transitionNames = d.transitionNames) hab.2
    fun hstate => ⟨hab.1, hstate⟩

/-- Alike trees with the same names compile to equal charts. -/
theorem beq_compile (h : e.Alike f) (hnames : e.names = f.names) (context : Option Json) :
    (e.compile context == f.compile context) = true := by
  have hdeclarations := h.declarations hnames
  have hinitial : Node.initialState e.normalize.declarations =
      Node.initialState f.normalize.declarations := by
    refine Node.initialState_congr ?_
    rw [declarations_normalize, declarations_normalize, List.map_map, List.map_map,
      ← List.forall₂_eq_eq_eq, List.forall₂_map_left_iff, List.forall₂_map_right_iff]
    exact hdeclarations.imp fun d d' hd => Prod.ext hd.1 (hd.2.1.isTruthy_eq "initial")
  have hstates : ((e.compile context).states == (f.compile context).states) = true := by
    refine SortedMap.beq_ofList ?_
    rw [declarations_normalize, declarations_normalize, List.map_map, List.map_map,
      List.forall₂_map_left_iff, List.forall₂_map_right_iff]
    exact hdeclarations.imp fun d d' hd => ⟨hd.1, hd.2.1.beq_state hd.2.2⟩
  have hcontext : (context == context) = true := by
    cases context with
    | none => rfl
    | some v => exact v.beq_self
  exact Chart.beq_iff.2 ⟨hinitial, hcontext, hstates⟩

end Alike

/-- Trees become the same node just when they are alike. Alike attributes have the same text, unless
they are the two zeros, and alike trees whose names are the same texts compile to equal charts. -/
theorem normalize_beq_iff (e f : Element) :
    ((e.normalize == f.normalize) = true ↔ e.Alike f) ∧
      (∀ a b : Attribute Element, a.Alike b → a.text? = b.text? ∨ a.OppositeZeros b) ∧
      (e.Alike f → e.names = f.names →
        ∀ context, (e.compile context == f.compile context) = true) :=
  ⟨e.beq_normalize f, fun _ _ hab => hab.text?_eq, fun h hnames => h.beq_compile hnames⟩

/-- A platform with one track, from which a train departs. Its parts are components, or tags of the
host with bookkeeping of their own, and the slope of the track is one of the two zeros. -/
def platform (host : Bool) : Element :=
  let part (name : String) := if host then (intrinsic name).withKey name else component name
  let depart := ((part "Transition").withAttribute "event" (.data (.str "DEPART")))
    |>.withAttribute "action" (.callback ⟨0, none⟩)
  let track := ((part "State").withAttribute "id" (.data (.str "track")))
    |>.withAttribute "slope" (.zero host)
  let sign := { fragment with owner := if host then some "station" else none }
  sign.withAttribute "children" (.list [.data .null, .list [.node (track.child depart)]])

/-- Both platforms become the same node and compile to equal charts, though the slopes of their
tracks may differ as texts. -/
theorem normalize_beq_platform :
    ((platform true).normalize == (platform false).normalize) = true ∧
      ((Attribute.zero true).text? = (Attribute.zero false).text? ∨
        (Attribute.zero true).OppositeZeros (.zero false)) ∧
      (platform true).names = (platform false).names ∧
      ((platform true).compile none == (platform false).compile none) = true := by
  have hnodes : ((platform true).normalize == (platform false).normalize) = true := by
    decide +kernel
  have hslope : (Attribute.zero true).Alike (.zero false) := .data (by decide)
  have hnames : (platform true).names = (platform false).names := by decide +kernel
  obtain ⟨halike, htext, hcompile⟩ := normalize_beq_iff (platform true) (platform false)
  exact ⟨hnodes, htext _ _ hslope, hnames, hcompile (halike.1 hnodes) hnames none⟩

/-- A tree with one state, which is named by a zero. -/
def zeroStation (negative : Bool) : Element :=
  fragment.child ((component "State").withAttribute "id" (.zero negative))

/-- The two trees whose state is named by a zero are alike, and they declare different states. -/
theorem zeroStation_differs : (zeroStation false).Alike (zeroStation true) ∧
    ((zeroStation false).normalize == (zeroStation true).normalize) = true ∧
    ((zeroStation false).compile none == (zeroStation true).compile none) = false := by
  decide +kernel

end Element

end FlatChart
