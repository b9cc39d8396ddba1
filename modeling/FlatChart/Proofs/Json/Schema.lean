import Mathlib.Data.List.Induction
import FlatChart.Proofs.Json.Acceptance

/-!
# Documents that follow a schema

A schema lists the fields of an object: the name of each one and what may stand under it. An object
follows it (`Document.follows`) when every field stands at most once and fits where it stands;
other members are not looked at. `Accepts r p a` says that `r` gives `a` when `p` holds and fails
otherwise, with whatever error. `accepts_foldlM` settles an object by one step for each member,
where what was read before is told from the members before.
-/

namespace FlatChart

variable {α β σ : Type}

/-- The result is `a` when `p` holds, and an error otherwise. -/
def Accepts (r : Except ReadError α) (p : Prop) (a : α) : Prop := ∀ x, r = .ok x ↔ p ∧ x = a

namespace Accepts

variable {r : Except ReadError α} {p q : Prop} {a b : α}

/-- A result that is always given. -/
theorem ok (a : α) : Accepts (.ok a) True a := by
  intro x
  rw [true_and, Except.ok.injEq, eq_comm]

/-- An error is no result. -/
theorem error (e : ReadError) (hp : ¬p) : Accepts (.error e) p a := by
  intro x
  simp [hp]

/-- The condition and the result may be put in another way. -/
theorem congr (h : Accepts r p a) (hpq : p ↔ q) (hab : p → a = b) : Accepts r q b := by
  intro x
  rw [h x, ← hpq]
  constructor
  · rintro ⟨hp, rfl⟩
    exact ⟨hp, hab hp⟩
  · rintro ⟨hp, rfl⟩
    exact ⟨hp, (hab hp).symm⟩

/-- A result and what is made of it must both be given. -/
theorem bind {f : α → Except ReadError β} {b : β} (hr : Accepts r p a)
    (hf : p → Accepts (f a) q b) : Accepts (r >>= f) (p ∧ q) b := by
  intro y
  cases hx : r with
  | error e =>
    have hp : ¬p := by
      intro hp
      have h := (hr a).2 ⟨hp, rfl⟩
      rw [hx] at h
      cases h
    simp [hp]
  | ok x =>
    obtain ⟨hp, rfl⟩ := (hr x).1 hx
    rw [Reader.ok_bind, hf hp y, and_iff_right hp]

/-- What is made of a result by a function is given when the result is. -/
theorem map (hr : Accepts r p a) (f : α → β) : Accepts (r >>= fun a => .ok (f a)) p (f a) :=
  (hr.bind fun _ => ok (f a)).congr (and_iff_left trivial) fun _ => rfl

/-- Nothing is made of what is never given. -/
theorem never_bind (hr : Accepts r False a) (f : α → Except ReadError β) (b : β) :
    Accepts (r >>= f) False b :=
  (hr.bind (q := True) False.elim).congr (iff_of_eq (false_and _)) fun _ => rfl

/-- What never gives anything does not do so after a result either. -/
theorem bind_of_never {f : α → Except ReadError β} {b : β} (hf : ∀ a, Accepts (f a) False b) :
    Accepts (r >>= f) False b := by
  cases r with
  | error e => exact error e id
  | ok a => exact hf a

end Accepts

/-- What is given or malformed is given or an error. -/
theorem Yields.accepts {r : Except ReadError α} {p : Prop} {a : α} (h : Yields r p a) :
    Accepts r p a := by
  intro x
  by_cases hp : p
  · rw [h.ok hp, Except.ok.injEq, and_iff_right hp, eq_comm]
  · simp [h.malformed hp, hp]

/-- Steps that are made one after the other, where what the steps so far have given is told from the
items so far, and whether they could be made is told from one more item. -/
theorem accepts_foldlM {step : σ → α → Except ReadError σ} {p : List α → Prop}
    {q : List α → α → Prop} {g : List α → σ} (hnil : p [])
    (hconcat : ∀ before a, p (before ++ [a]) ↔ p before ∧ q before a) (items : List α)
    (hstep : ∀ before, ∀ a ∈ items, Accepts (step (g before) a) (q before a) (g (before ++ [a]))) :
    Accepts (items.foldlM step (g [])) (p items) (g items) := by
  -- From the last item, as the steps before it decide what the last one starts with.
  induction items using List.reverseRecOn with
  | nil => exact (Accepts.ok _).congr (iff_of_true trivial hnil) fun _ => rfl
  | append_singleton before a ih =>
    have hbefore := ih fun before b hb => hstep before b (List.mem_append_left _ hb)
    have hlast := hstep before a (List.mem_append_right _ (List.mem_singleton.2 rfl))
    have hfold : (before ++ [a]).foldlM step (g []) =
        before.foldlM step (g []) >>= fun s => step s a >>= fun s => .ok s := by
      rw [List.foldlM_append]
      rfl
    rw [hfold]
    exact (hbefore.bind fun _ => hlast.map id).congr (hconcat before a).symm fun _ => rfl

namespace Document

/-! ## What a document holds -/

/-- The text of a document that is a text. -/
def asText : Document → String
  | .str s => s
  | _ => ""

/-- What a document other than `null` holds. -/
def unlessNull (g : Document → α) : Document → Option α
  | .null => none
  | d => some (g d)

/-- The map of what the members of an object hold; the last member of a name counts. -/
def entries (g : Document → α) : Document → SortedMap α
  | .obj members => .ofList (members.map fun m => (m.1, g m.2))
  | _ => ∅

/-- One more member is put into the map. -/
theorem entries_concat (g : Document → α) (members : List (String × Document))
    (m : String × Document) :
    entries g (.obj (members ++ [m])) = (entries g (.obj members)).insert m.1 (g m.2) := by
  rw [entries, entries, List.map_append, SortedMap.ofList, List.foldl_append]
  rfl

/-- Whether the document is a text. -/
def isText : Document → Bool
  | .str _ => true
  | _ => false

/-- Whether the document is `null` or fits. -/
def orNull (fits : Document → Bool) : Document → Bool
  | .null => true
  | d => fits d

/-- Whether the document is an object in which all that stands under any name fits. -/
def isObjectOf (fits : Document → Bool) : Document → Bool
  | .obj members => members.all fun m => fits m.2
  | _ => false

/-! ## Fields -/

/-- The documents that stand under a name, in the order in which they stand. -/
def under (name : String) (members : List (String × Document)) : List Document :=
  (members.filter (·.1 = name)).map Prod.snd

/-- The document that stands under a name. -/
def member? (name : String) (members : List (String × Document)) : Option Document :=
  (under name members).getLast?

/-- A name that an object may have once. -/
structure Field where
  /-- The name. -/
  name : String
  /-- What may stand under it. -/
  fits : Document → Bool

/-- Whether every field stands at most once, and all that stands under it fits. -/
def follows (fields : List Field) (members : List (String × Document)) : Bool :=
  fields.all fun f => (under f.name members).length ≤ 1 && (under f.name members).all f.fits

/-- The members that a document gives for some fields: those of an object, or the items of an array,
each under the field at its place. An array has no more items than there are fields. -/
def membersFor? (fields : List Field) : Document → Option (List (String × Document))
  | .obj members => some members
  | .arr items =>
    if items.length ≤ fields.length then some ((fields.map Field.name).zip items) else none
  | _ => none

/-- One more member under a name, if it has that name. -/
theorem under_concat (name : String) (members : List (String × Document)) (m : String × Document) :
    under name (members ++ [m]) = under name members ++ if m.1 = name then [m.2] else [] := by
  unfold under
  rw [List.filter_append, List.map_append]
  by_cases h : m.1 = name <;> simp [h]

/-- The member that came last stands under its name. -/
theorem member?_concat_self (members : List (String × Document)) (name : String) (d : Document) :
    member? name (members ++ [(name, d)]) = some d := by
  rw [member?, under_concat, if_pos rfl, List.getLast?_concat]

/-- A member of another name changes nothing under a name. -/
theorem member?_concat_of_ne {name : String} {members : List (String × Document)}
    {m : String × Document} (h : m.1 ≠ name) :
    member? name (members ++ [m]) = member? name members := by
  rw [member?, under_concat, if_neg h, List.append_nil, member?]

/-- Something stands under a name just when the name was met. -/
theorem isSome_member? (name : String) (members : List (String × Document)) :
    (member? name members).isSome = !(under name members).isEmpty := by
  rw [member?]
  cases under name members <;> simp

/-- One more member has the name of a field for the first time, and fits. -/
def Field.Admits (f : Field) (before : List (String × Document)) (m : String × Document) : Prop :=
  m.1 = f.name → under f.name before = [] ∧ f.fits m.2

/-- Members that follow a schema do so one after the other. -/
theorem follows_concat (fields : List Field) (before : List (String × Document))
    (m : String × Document) :
    follows fields (before ++ [m]) ↔ follows fields before ∧ ∀ f ∈ fields, f.Admits before m := by
  unfold follows Field.Admits
  rw [List.all_eq_true, List.all_eq_true, ← forall₂_and]
  refine forall₂_congr fun f _ => ?_
  rw [under_concat]
  by_cases hm : m.1 = f.name
  · rw [if_pos hm]
    cases hu : under f.name before with
    | nil => simp [hm]
    | cons d rest => simp [hm]
  · simp [hm]

/-- No members follow any schema. -/
theorem follows_nil (fields : List Field) : follows fields [] := by
  simp [follows, under]

/-- Members are decoded when they follow a schema, if each one is when it is admitted after those
before it. -/
theorem accepts_fields {fields : List Field} {step : σ → String × Document → Except ReadError σ}
    {g : List (String × Document) → σ} (members : List (String × Document))
    (hstep : ∀ before, ∀ m ∈ members,
      Accepts (step (g before) m) (∀ f ∈ fields, f.Admits before m) (g (before ++ [m]))) :
    Accepts (members.foldlM step (g [])) (follows fields members) (g members) :=
  accepts_foldlM (p := fun members => follows fields members) (follows_nil fields)
    (follows_concat fields) members hstep

/-! ## Decoders -/

/-- A refusal gives nothing. -/
theorem accepts_unexpected (expected : String) (d : Document) {p : Prop} (hp : ¬p) (a : α) :
    Accepts (d.unexpected expected) p a := by
  intro x
  rw [unexpected]
  cases d.found <;> simp [hp]

/-- A text is decoded from a document that is one. -/
theorem accepts_string (d : Document) : Accepts d.string d.isText d.asText := by
  cases d with
  | str s => exact (Accepts.ok s).congr (iff_of_true trivial rfl) fun _ => rfl
  | _ => exact accepts_unexpected _ _ (by simp [isText]) _

section Parts

variable {f : Document → Except ReadError α} {p : Document → Bool} {g : Document → α}

/-- A decoder that admits `null`. -/
theorem accepts_optional {d : Document} (h : Accepts (f d) (p d) (g d)) :
    Accepts (optional f d) (orNull p d) (unlessNull g d) := by
  cases d with
  | null => exact (Accepts.ok none).congr (iff_of_true trivial rfl) fun _ => rfl
  | _ => exact (h.map some).congr Iff.rfl fun _ => rfl

/-- A map is decoded from an object each of whose members is decoded. -/
theorem accepts_map {d : Document}
    (h : ∀ members, d = .obj members → ∀ m ∈ members, Accepts (f m.2) (p m.2) (g m.2)) :
    Accepts (map f d) (isObjectOf p d) (entries g d) := by
  cases d with
  | obj members =>
    have hstep : ∀ before, ∀ m ∈ members,
        Accepts (mapMember f (entries g (.obj before)) m) (p m.2)
          (entries g (.obj (before ++ [m]))) := by
      intro before m hm
      rw [entries_concat]
      exact (h members rfl m hm).map ((entries g (.obj before)).insert m.1)
    exact accepts_foldlM (p := fun members => isObjectOf p (.obj members)) rfl
      (by simp [isObjectOf]) members hstep
  | _ => exact accepts_unexpected _ _ (by simp [isObjectOf]) _

/-- A member that may stand once is decoded when it is the first one of its name. -/
theorem accepts_once {d : Document} {q : Prop} (h : Accepts (f d) q (g d)) (key name : String)
    (before : List (String × Document)) :
    Accepts (once key ((member? name before).map g) f d) (under name before = [] ∧ q)
      (some (g d)) := by
  unfold once
  rw [Option.isSome_map, isSome_member?]
  cases under name before with
  | nil => exact (h.map some).congr (by simp) fun _ => rfl
  | cons e rest => exact Accepts.error _ (by simp)

end Parts

/-! ## Legible documents -/

/-- Within a limit of `depth` brackets the document is read as it is: it nests no deeper, and its
floats read back. -/
structure Legible (depth : ℕ) (d : Document) : Prop where
  /-- The brackets. -/
  nesting : d.nesting ≤ depth
  /-- The floats. -/
  floats : ∀ x ∈ d.floats, x.ReadsBack

/-- What stands in an object or array is legible within one bracket less. -/
theorem Legible.of_membersFor? {depth : ℕ} {fields : List Field} {d : Document}
    {members : List (String × Document)} (h : d.Legible (depth + 1))
    (hd : d.membersFor? fields = some members) : ∀ m ∈ members, m.2.Legible depth := by
  cases d with
  | obj own =>
    obtain rfl : own = members := Option.some.inj hd
    intro m hm
    exact ⟨nestingMembers_le.1 (Nat.le_of_succ_le_succ h.nesting) m hm,
      fun x hx => h.floats x (mem_floatsOfMembers.2 ⟨m, hm, hx⟩)⟩
  | arr items =>
    rw [membersFor?] at hd
    split at hd
    · obtain rfl := Option.some.inj hd
      intro m hm
      have hitem : m.2 ∈ items := (List.of_mem_zip (a := m.1) (b := m.2) hm).2
      exact ⟨nestingItems_le.1 (Nat.le_of_succ_le_succ h.nesting) m.2 hitem,
        fun x hx => h.floats x (mem_floatsOfItems.2 ⟨m.2, hitem, hx⟩)⟩
    · cases hd
  | _ => cases hd

/-- What stands in an object is legible within one bracket less. -/
theorem Legible.of_mem {depth : ℕ} {members : List (String × Document)}
    (h : (obj members).Legible (depth + 1)) : ∀ m ∈ members, m.2.Legible depth :=
  Legible.of_membersFor? h (membersFor?.eq_1 [] members)

/-- A legible document is data. -/
theorem Legible.accepts_data {depth : ℕ} {d : Document} (h : d.Legible depth) :
    Accepts (d.data depth) True d.value := by
  have hdata := ((accept_yields depth d h.floats).accepts).map value
  exact hdata.congr (iff_of_true h.nesting trivial) fun _ => rfl

/-- A structure is decoded from its members, where the items of an array are decoded as members of
the names of the fields, and longer arrays never. -/
theorem Legible.accepts_structure {depth : ℕ} {d : Document} (h : d.Legible (depth + 1))
    (fields : List Field) (expected : String) (parts : List Document → Except ReadError α)
    (own : List (String × Document) → Except ReadError α) {p : List (String × Document) → Bool}
    {g : List (String × Document) → α} (a : α)
    (hown : ∀ members : List (String × Document), (∀ m ∈ members, m.2.Legible depth) →
      Accepts (own members) (p members) (g members))
    (hparts : ∀ items : List Document, items.length ≤ fields.length → ∀ p a,
      Accepts (own ((fields.map Field.name).zip items)) p a → Accepts (parts items) p a)
    (hlong : ∀ items : List Document, fields.length < items.length →
      ∀ a, Accepts (parts items) False a) :
    Accepts
      (match d with
        | .arr items => parts items
        | .obj members => own members
        | d => d.unexpected expected)
      ((d.membersFor? fields).any p) (((d.membersFor? fields).map g).getD a) := by
  have hmembers : ∀ members, d.membersFor? fields = some members →
      ∀ m ∈ members, m.2.Legible depth := fun _ => h.of_membersFor?
  cases d with
  | obj members => exact (hown members (hmembers _ rfl)).congr (by simp [membersFor?]) fun _ => rfl
  | arr items =>
    by_cases hlen : items.length ≤ fields.length
    · have hfor : membersFor? fields (.arr items) = some ((fields.map Field.name).zip items) :=
        if_pos hlen
      have hitems := hparts items hlen _ _ (hown _ (hmembers _ hfor))
      rw [hfor]
      exact hitems.congr (by simp) fun _ => rfl
    · have hfor : membersFor? fields (.arr items) = none := if_neg hlen
      rw [hfor]
      exact (hlong items (Nat.lt_of_not_le hlen) a).congr (by simp) False.elim
  | _ => exact accepts_unexpected _ _ (by simp [membersFor?]) _

end Document

end FlatChart
