import FlatChart.Proofs.Json.Expected

/-!
# Layouts that differ in some members

One object may be altered into another by leaving members out, by putting members in, and by putting
one value in place of another (`Altered`); which members may come and go and which values may stand
for each other are parameters. Where a reader takes nothing from the members that come and go and
the same from the values that stand for each other, it gives the same on the altered object
(`ReadsMembers.altered`), with the same error where it fails.
-/

namespace FlatChart

open Reader

/-- The name of the member is a text, and one of these. -/
def Label.IsOneOf (l : Label) (names : List String) : Prop :=
  ∃ k, spelled l.name = .ok k ∧ k ∈ names

/-- The name of the member is a text, and none of these. -/
def Label.IsNoneOf (l : Label) (names : List String) : Prop :=
  ∃ k, spelled l.name = .ok k ∧ k ∉ names

/-- The name of such a member is one of these, however it is spelled. -/
theorem Label.IsOneOf.mem {l : Label} {names : List String} (h : l.IsOneOf names) {k : String}
    (hk : spelled l.name = .ok k) : k ∈ names := by
  obtain ⟨k', hk', hmem⟩ := h
  obtain rfl : k' = k := Except.ok.inj (hk'.symm.trans hk)
  exact hmem

/-- The members of an object altered into those of another. Blanks around the parts of a member are
free. -/
inductive AlteredMembers (free : Label → Prop) (alike : Label → Layout → Layout → Prop) :
    List (Label × Layout) → List (Label × Layout) → Prop where
  | nil : AlteredMembers free alike [] []
  /-- A member that stays, with an alike value. -/
  | kept {l l' : Label} {w w' : Layout} {members members' : List (Label × Layout)}
    (name : l'.name = l.name) (value : alike l w w')
    (rest : AlteredMembers free alike members members') :
    AlteredMembers free alike ((l, w) :: members) ((l', w') :: members')
  /-- A member that is put in. -/
  | added {l : Label} (w : Layout) {members members' : List (Label × Layout)} (name : free l)
    (rest : AlteredMembers free alike members members') :
    AlteredMembers free alike members ((l, w) :: members')
  /-- A member that is left out. -/
  | removed {l : Label} (w : Layout) {members members' : List (Label × Layout)} (name : free l)
    (rest : AlteredMembers free alike members members') :
    AlteredMembers free alike ((l, w) :: members) members'

/-- A layout altered into another: objects in their members, everything else not at all. -/
inductive Altered (free : Label → Prop) (alike : Label → Layout → Layout → Prop) :
    Layout → Layout → Prop where
  | same (w : Layout) : Altered free alike w w
  | obj {members members' : List (Label × Layout)} (last last' : Gap)
    (h : AlteredMembers free alike members members') :
    Altered free alike (.obj members last) (.obj members' last')

/-- A layout is altered into one of the same kind. -/
theorem Altered.kind_eq {free : Label → Prop} {alike : Label → Layout → Layout → Prop}
    {w w' : Layout} (h : Altered free alike w w') : w.kind = w'.kind := by
  cases h <;> rfl

variable {α σ : Type} {free : Label → Prop} {alike : Label → Layout → Layout → Prop}

/-- A fold over altered members is the same when free members do nothing and alike values do the
same. -/
theorem AlteredMembers.foldlM_eq {step : σ → Label × Layout → Except ReadError σ}
    {members members' : List (Label × Layout)} (h : AlteredMembers free alike members members')
    (hfree : ∀ s l w, free l → step s (l, w) = .ok s)
    (halike : ∀ s l l' w w', l'.name = l.name → alike l w w' → step s (l, w) = step s (l', w'))
    (s : σ) : members.foldlM step s = members'.foldlM step s := by
  induction h generalizing s with
  | nil => rfl
  | kept name value _ ih =>
    rw [List.foldlM_cons, List.foldlM_cons, halike s _ _ _ _ name value]
    exact bind_congr fun s => ih s
  | added w name _ ih => rw [List.foldlM_cons, hfree s _ w name, ok_bind, ih]
  | removed w name _ ih => rw [List.foldlM_cons, hfree s _ w name, ok_bind, ih]

variable {member : σ → String → Reader σ}

/-- A member whose name is a text is read with that name. -/
theorem aloneMember_of_spelled {l : Label} {k : String} (hk : spelled l.name = .ok k) (s : σ)
    (w : Layout) : aloneMember member s (l, w) = aloneUnder member s k w := by
  rw [aloneMember, hk, ok_bind]

/-- Members whose values do the same under each name that is a text do the same. -/
theorem aloneMember_congr {l l' : Label} {w w' : Layout} (hname : l'.name = l.name) (s : σ)
    (h : ∀ k, spelled l.name = .ok k → aloneUnder member s k w = aloneUnder member s k w') :
    aloneMember member s (l, w) = aloneMember member s (l', w') := by
  rw [aloneMember, aloneMember, hname]
  cases hk : spelled l.name with
  | error e => rfl
  | ok k => exact h k hk

/-- A reader that goes through the members one by one gives the same on an altered layout when it
takes nothing from free members and the same from alike values. What follows the layouts plays no
part where they are objects. -/
theorem Reader.ReadsMembers.altered {r : Reader α} {start : σ} {finish : σ → Except ReadError α}
    (h : ReadsMembers r member start finish)
    (hfree : ∀ s l w, free l → aloneMember member s (l, w) = .ok s)
    (halike : ∀ s l w w', alike l w w' → ∀ k, spelled l.name = .ok k →
      aloneUnder member s k w = aloneUnder member s k w')
    {w w' : Layout} (hw : Altered free alike w w') : alone r w = alone r w' := by
  cases hw with
  | same => rfl
  | obj last last' hmembers =>
    have hfold := hmembers.foldlM_eq hfree
      (fun s l l' w w' hname hvalue => aloneMember_congr hname s (halike s l w w' hvalue)) start
    have halone := fun members last => alone_eq fun gap rest _ => h members last gap rest
    rw [halone, halone, hfold]

/-- What may be `null` is read alike where the reader of the rest reads alike. -/
theorem Reader.alone_readOptional_congr {r : Reader α} (hr : ∀ w, SettlesOn r w) {w w' : Layout}
    (hkind : w.kind = w'.kind) (h : alone r w = alone r w') :
    alone (readOptional r) w = alone (readOptional r) w' := by
  by_cases hw : w.kind = .null
  · rw [Layout.eq_null hw, Layout.eq_null (hkind.symm.trans hw)]
  · have hw' : w'.kind ≠ .null := fun h => hw (hkind.trans h)
    rw [alone_eq fun gap _ hrest => readOptional_chars (hr w) hw gap hrest,
      alone_eq fun gap _ hrest => readOptional_chars (hr w') hw' gap hrest, h]

/-- A map is read alike where all its values are. -/
theorem Reader.alone_readMap_congr {r : Reader α} (hr : ∀ w, SettlesOn r w)
    (halike : ∀ l w w', alike l w w' → alone r w = alone r w') {w w' : Layout}
    (h : Altered (fun _ => False) alike w w') : alone (readMap r) w = alone (readMap r) w' := by
  refine (readsMembers_readMap hr).altered (fun _ _ _ hfree => hfree.elim) ?_ h
  intro m l w w' hvalue k _
  rw [aloneUnder_eq (insertMember_chars (hr w) m k), aloneUnder_eq (insertMember_chars (hr w') m k),
    halike l w w' hvalue]

end FlatChart
