import FlatChart.Chart.Writing
import FlatChart.Proofs.Chart.Data
import FlatChart.Proofs.Json.Unambiguous

/-!
# What the text of a chart tells

The text of a chart shows functions by their labels and leaves out data under reserved names.
`Chart.byLabel` is the chart with just that taken away, every function replaced by one that stands
for its label, and `Chart.text_eq_iff` says that nothing else is lost: charts have the same text
just when they are the same up to this.
-/

namespace FlatChart

/-! ## Functions that stand for their labels -/

/-- The callback that stands for a label. -/
def Callback.byLabel (f : Callback) : Callback := ⟨0, some f.label⟩

/-- The guard that stands for a label. -/
def Guard.byLabel (f : Guard) : Guard := ⟨0, some f.label, fun _ => true⟩

/-- The reducer that stands for a label. -/
def Reducer.byLabel (f : Reducer) : Reducer := ⟨0, some f.label, fun v => v⟩

/-- The service that stands for a label. -/
def Service.byLabel (f : Service) : Service := ⟨0, some f.label, .ok⟩

/-- The action with its function by label. -/
def Action.byLabel : Action → Action
  | .effect f => .effect f.byLabel
  | .assign f => .assign f.byLabel

/-- The transition with its functions by label and without data under reserved names. -/
def Transition.byLabel (t : Transition) : Transition where
  target := t.target
  actions := t.actions.map Action.byLabel
  cond := t.cond.map Guard.byLabel
  extra := t.extra.filter fun key _ => key ∉ reservedKeys

/-- The invoke block with its functions by label. -/
def Invoke.byLabel (i : Invoke) : Invoke where
  src := i.src.byLabel
  onDone := i.onDone.map Transition.byLabel
  onError := i.onError.map Transition.byLabel

/-- The state with its functions by label. -/
def State.byLabel (s : State) : State where
  final := s.final
  on := s.on.map (·.map Transition.byLabel)
  entry := s.entry.map Callback.byLabel
  exit := s.exit.map Callback.byLabel
  invoke := s.invoke.map Invoke.byLabel

/-- The chart with its functions by label. -/
def Chart.byLabel (c : Chart) : Chart := { c with states := c.states.map State.byLabel }

/-! ## Parts of a document -/

section Parts

variable {α β γ : Type} {f : α → β} {g : α → γ}

/-- What is told of every value is told of a value that may be absent. -/
theorem map_eq_of_map_eq_option (h : ∀ a b, f a = f b → g a = g b) {x y : Option α}
    (hxy : x.map f = y.map f) : x.map g = y.map g := by
  cases x <;> cases y <;> simp_all
  exact h _ _ hxy

/-- What is told of every value is told of a list. -/
theorem map_eq_of_map_eq_list (h : ∀ a b, f a = f b → g a = g b) :
    ∀ {x y : List α}, x.map f = y.map f → x.map g = y.map g
  | [], [], _ => rfl
  | a :: x, b :: y, hxy => by
    obtain ⟨hab, hxy⟩ := List.cons.inj hxy
    rw [List.map_cons, List.map_cons, h a b hab, map_eq_of_map_eq_list h hxy]

/-- What is told of every value is told of the entries of a map. -/
theorem map_toList_eq_of_members_eq {write : α → Document}
    (h : ∀ a b, write a = write b → g a = g b) {m n : SortedMap α}
    (hmn : m.members write = n.members write) :
    m.toList.map (fun e => (e.1, g e.2)) = n.toList.map fun e => (e.1, g e.2) := by
  apply map_eq_of_map_eq_list _ hmn
  rintro ⟨k, a⟩ ⟨l, b⟩ hab
  obtain ⟨hkl, hab⟩ := Prod.mk.inj hab
  exact Prod.ext hkl (h a b hab)

/-- What is told of every value is told of a map. -/
theorem map_eq_of_members_eq {write : α → Document} (h : ∀ a b, write a = write b → g a = g b)
    {m n : SortedMap α} (hmn : m.members write = n.members write) : m.map g = n.map g := by
  apply SortedMap.toList_inj.1
  rw [SortedMap.toList_map, SortedMap.toList_map]
  exact map_toList_eq_of_members_eq h hmn

/-- A list as the document that is written of it, none of an empty one. -/
def arrayOf? (items : List Document) : Option Document :=
  if items.isEmpty then none else some (.arr items)

/-- A list is written under a name as one document that may be absent. -/
theorem memberOfList_eq (name : String) (items : List Document) :
    memberOfList name items = memberOf? name (arrayOf? items) := by
  cases items <;> rfl

/-- Lists that are written alike are the same. -/
theorem arrayOf?_inj {x y : List Document} (h : arrayOf? x = arrayOf? y) : x = y := by
  cases x <;> cases y <;> simp_all [arrayOf?]

/-- A member is found under its own name only. -/
theorem lookup_memberOf? (name other : String) (d : Option Document) :
    (memberOf? other d).lookup name = if name = other then d else none := by
  cases d with
  | none => simp [memberOf?]
  | some d => simp [memberOf?, SortedMap.lookup_cons_ite]

end Parts

/-! ## Written parts tell what they are written of -/

/-- Values with the same document are the same. -/
theorem Json.document_injective {v w : Json} (h : v.document = w.document) : v = w := by
  rw [← v.value_document, h, w.value_document]

/-- The two kinds of actions are written in two shapes, each with its label. -/
theorem Action.byLabel_eq_of_document_eq : ∀ {a b : Action}, a.document = b.document →
    a.byLabel = b.byLabel
  | .effect f, .effect g, h => by
    have hlabel : f.label = g.label := Document.str.inj h
    rw [byLabel, byLabel, Callback.byLabel, Callback.byLabel, hlabel]
  | .assign f, .assign g, h => by
    have hlabel : f.label = g.label := by simpa [document] using h
    rw [byLabel, byLabel, Reducer.byLabel, Reducer.byLabel, hlabel]

namespace Transition

/-- The members of a transition that are not data. -/
def schema (t : Transition) : List (String × Document) :=
  memberOf? "target" (t.target.map .str) ++
    memberOf? "actions" (arrayOf? (t.actions.map Action.document)) ++
    memberOf? "cond" (t.cond.map fun g => .str g.label)

/-- A transition is written as its fields and then its data. -/
theorem document_eq (t : Transition) :
    t.document = .obj (t.schema ++ t.freeExtra.members Json.document) := by
  rw [document, memberOfList_eq]
  rfl

/-- Data is found under unreserved names only. -/
theorem lookup_members_freeExtra (t : Transition) {name : String} (hname : name ∈ reservedKeys) :
    (t.freeExtra.members Json.document).lookup name = none := by
  -- Writing the values of entries keeps their names.
  have hnone : ∀ entries : List (String × Json), entries.lookup name = none →
      (entries.map fun e => (e.1, e.2.document)).lookup name = none := by
    intro entries
    induction entries with
    | nil => exact fun _ => rfl
    | cons e rest ih =>
      rw [List.map_cons, SortedMap.lookup_cons_ite, SortedMap.lookup_cons_ite]
      split_ifs with h
      · exact fun hsome => absurd hsome (by simp)
      · exact ih
  apply hnone
  have hget := t.get?_freeExtra name
  rw [if_pos hname] at hget
  exact hget

/-- Transitions that are written alike are the same by label. -/
theorem byLabel_eq_of_document_eq {t u : Transition} (h : t.document = u.document) :
    t.byLabel = u.byLabel := by
  rw [document_eq, document_eq] at h
  have hmembers := Document.obj.inj h
  -- Data stands under no reserved name, so what is found under one is a field.
  have hlookup : ∀ name ∈ reservedKeys, t.schema.lookup name = u.schema.lookup name := by
    intro name hname
    have hl := congrArg (List.lookup name) hmembers
    rw [List.lookup_append, List.lookup_append, lookup_members_freeExtra t hname,
      lookup_members_freeExtra u hname, Option.or_none, Option.or_none] at hl
    exact hl
  have htarget := hlookup "target" (by decide)
  have hactions := hlookup "actions" (by decide)
  have hcond := hlookup "cond" (by decide)
  simp [schema, List.lookup_append, lookup_memberOf?] at htarget hactions hcond
  -- The fields agree as they are written, and what is written after them is the data.
  have hschema : t.schema = u.schema := by
    rw [schema, schema, htarget, hactions, hcond]
  rw [hschema] at hmembers
  have hextra : t.freeExtra = u.freeExtra := by
    apply SortedMap.toList_inj.1
    have hlist := map_toList_eq_of_members_eq (fun _ _ => Json.document_injective)
      (List.append_cancel_left hmembers)
    simpa using hlist
  have htarget : t.target = u.target := by
    simpa using map_eq_of_map_eq_option (g := id) (fun _ _ => Document.str.inj) htarget
  have hactions := map_eq_of_map_eq_list (fun _ _ => Action.byLabel_eq_of_document_eq)
    (arrayOf?_inj hactions)
  have hcond : t.cond.map Guard.byLabel = u.cond.map Guard.byLabel := by
    apply map_eq_of_map_eq_option _ hcond
    intro f g hfg
    rw [Guard.byLabel, Guard.byLabel, Document.str.inj hfg]
  simp only [freeExtra_eq, strip] at hextra
  rw [byLabel, byLabel, htarget, hactions, hcond, hextra]

end Transition

/-- Invoke blocks that are written alike are the same by label. -/
theorem Invoke.byLabel_eq_of_document_eq {i j : Invoke} (h : i.document = j.document) :
    i.byLabel = j.byLabel := by
  have hlookup : ∀ name, _ := fun name => congrArg (List.lookup name) (Document.obj.inj h)
  have hsrc := hlookup "src"
  have hdone := hlookup "onDone"
  have herror := hlookup "onError"
  simp [SortedMap.lookup_cons_ite, List.lookup_append, lookup_memberOf?] at hsrc hdone herror
  have hdone := map_eq_of_map_eq_option (fun _ _ => Transition.byLabel_eq_of_document_eq) hdone
  have herror := map_eq_of_map_eq_option (fun _ _ => Transition.byLabel_eq_of_document_eq) herror
  rw [byLabel, byLabel, hdone, herror, Service.byLabel, Service.byLabel, hsrc]

/-- States that are written alike are the same by label. -/
theorem State.byLabel_eq_of_document_eq {s t : State} (h : s.document = t.document) :
    s.byLabel = t.byLabel := by
  -- Every name stands at most once, so a field is what is found under its name.
  have hlookup : ∀ name, _ := fun name => congrArg (List.lookup name) (Document.obj.inj h)
  have htype := hlookup "type"
  have hon := hlookup "on"
  have hentry := hlookup "entry"
  have hexit := hlookup "exit"
  have hinvoke := hlookup "invoke"
  simp [memberOfList_eq, List.lookup_append, lookup_memberOf?] at htype hon hentry hexit hinvoke
  have hcallback : ∀ f g : Callback, Document.str f.label = Document.str g.label →
      f.byLabel = g.byLabel := by
    intro f g hfg
    rw [Callback.byLabel, Callback.byLabel, Document.str.inj hfg]
  have hfinal : s.final = t.final := by
    revert htype
    cases s.final <;> cases t.final <;> simp
  have hon : s.on.map (·.map Transition.byLabel) = t.on.map (·.map Transition.byLabel) := by
    apply map_eq_of_map_eq_option _ hon
    intro m n hmn
    exact map_eq_of_members_eq (fun _ _ => Transition.byLabel_eq_of_document_eq)
      (Document.obj.inj hmn)
  have hentry := map_eq_of_map_eq_list hcallback (arrayOf?_inj hentry)
  have hexit := map_eq_of_map_eq_list hcallback (arrayOf?_inj hexit)
  have hinvoke := map_eq_of_map_eq_option (fun _ _ => Invoke.byLabel_eq_of_document_eq) hinvoke
  rw [byLabel, byLabel, hfinal, hon, hentry, hexit, hinvoke]

/-- Charts that are written alike are the same by label. -/
theorem Chart.byLabel_eq_of_document_eq {c d : Chart} (h : c.document = d.document) :
    c.byLabel = d.byLabel := by
  have hlookup : ∀ name, _ := fun name => congrArg (List.lookup name) (Document.obj.inj h)
  have hinitial := hlookup "initial"
  have hcontext := hlookup "context"
  have hstates := hlookup "states"
  simp [SortedMap.lookup_cons_ite, List.lookup_append, lookup_memberOf?]
    at hinitial hcontext hstates
  have hcontext : c.context = d.context := by
    simpa using map_eq_of_map_eq_option (g := id) (fun _ _ => Json.document_injective) hcontext
  have hstates := map_eq_of_members_eq (fun _ _ => State.byLabel_eq_of_document_eq) hstates
  rw [byLabel, byLabel, hinitial, hcontext, hstates]

/-! ## Labels tell what is written -/

/-- An action is written by its label. -/
theorem Action.document_byLabel (a : Action) : a.byLabel.document = a.document := by
  cases a <;> rfl

/-- A transition is written by the labels of its functions. -/
theorem Transition.document_byLabel (t : Transition) : t.byLabel.document = t.document := by
  have hextra : t.byLabel.freeExtra = t.freeExtra := t.freeExtra_strip
  have hactions : t.byLabel.actions.map Action.document = t.actions.map Action.document := by
    simp [byLabel, Action.document_byLabel]
  have hcond : (t.byLabel.cond.map fun g => Document.str g.label) =
      t.cond.map fun g => .str g.label := by
    rw [byLabel, Option.map_map]
    rfl
  rw [document, document, hextra, hactions, hcond]
  rfl

/-- An invoke block is written by the labels of its functions. -/
theorem Invoke.document_byLabel (i : Invoke) : i.byLabel.document = i.document := by
  rw [document, document]
  simp only [byLabel, Option.map_map, Function.comp_def, Transition.document_byLabel]
  rfl

/-- Maps whose values are written alike have the same members. -/
theorem SortedMap.members_map {α : Type} {write : α → Document} {f : α → α}
    (h : ∀ a, write (f a) = write a) (m : SortedMap α) :
    (m.map f).members write = m.members write := by
  rw [members, members, toList_map, List.map_map]
  exact List.map_congr_left fun e _ => congrArg (Prod.mk e.1) (h e.2)

/-- A state is written by the labels of its functions. -/
theorem State.document_byLabel (s : State) : s.byLabel.document = s.document := by
  rw [document, document]
  simp only [byLabel, Option.map_map, List.map_map, Function.comp_def, Invoke.document_byLabel,
    SortedMap.members_map Transition.document_byLabel]
  rfl

/-- A chart is written by the labels of its functions. -/
theorem Chart.document_byLabel (c : Chart) : c.byLabel.document = c.document := by
  rw [document, document, byLabel, SortedMap.members_map State.document_byLabel]

end FlatChart
