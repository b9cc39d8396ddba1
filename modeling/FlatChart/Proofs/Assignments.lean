import FlatChart.Function
import FlatChart.Proofs.Occurrence
import FlatChart.Proofs.SortedMap

/-!
# Assignments accumulate

A reducer sees the context that the reducers before it leave, so the updates of a sequence of
reducers depend on one another. `Reducer.updates` lists them as they are made, and
`Json.Accumulates` says what updates come to that are put into an object, all of them objects: a
name has the value of the last update with that name, else the value from before, and no name is
lost.

One update is put into an object at a time (`SortedMap.Accumulates.cons`), and the law for a
sequence follows by induction on it (`Reducer.accumulates_updates`). An update that is no object, or
that meets a context that is none, takes the place of the context (`Reducer.apply_eq_reduce`). The
law holds for the objects that follow each other from any point of a sequence on, so nothing is lost
but to an update that takes the place of a context (`Reducer.accumulation`).
-/

namespace FlatChart

/-! ## Objects -/

namespace SortedMap

variable {α : Type} {before after u : SortedMap α} {updates : List (SortedMap α)}

/-- What updates come to that are put into a map one after the other: a name has the value of the
last update with that name, else the value from before. -/
def Accumulates (before : SortedMap α) (updates : List (SortedMap α)) (after : SortedMap α) :
    Prop :=
  ∀ name v, after.get? name = some v ↔
    (∃ u, IsLast (fun u => name ∈ u.keys) updates u ∧ u.get? name = some v) ∨
      (∀ u ∈ updates, name ∉ u.keys) ∧ before.get? name = some v

/-- Without updates nothing changes. -/
theorem Accumulates.nil (m : SortedMap α) : m.Accumulates [] m := by
  intro name v
  simp [IsLast]

/-- A first update is put into the map that the others go on from. -/
theorem Accumulates.cons (h : (before.merge u).Accumulates updates after) :
    before.Accumulates (u :: updates) after := by
  intro name v
  rw [h name v, get?_merge]
  simp only [isLast_cons, List.forall_mem_cons]
  by_cases hlater : ∀ w ∈ updates, name ∉ w.keys
  · -- No later update has the name, so the first one decides.
    have hnone : ∀ w, ¬IsLast (fun u => name ∈ u.keys) updates w := fun w hw => by
      obtain ⟨w, hmem, hname⟩ := exists_isLast_iff.1 ⟨w, hw⟩
      exact hlater w hmem hname
    cases hu : u.get? name with
    | none => simp [hnone, hu, get?_eq_none_iff.1 hu]
    | some w => simp [hnone, hu, mem_keys_iff.2 ⟨w, hu⟩]
  · simp [hlater]

/-- No name is lost, neither of the map nor of an update, and none comes from elsewhere. -/
theorem Accumulates.mem_keys (h : before.Accumulates updates after) (name : String) :
    name ∈ after.keys ↔ name ∈ before.keys ∨ ∃ u ∈ updates, name ∈ u.keys := by
  constructor
  · intro hname
    obtain ⟨v, hv⟩ := mem_keys_iff.1 hname
    rcases (h name v).1 hv with ⟨u, hu, -⟩ | ⟨-, hv⟩
    · exact .inr (exists_isLast_iff.1 ⟨u, hu⟩)
    · exact .inl (mem_keys_iff.2 ⟨v, hv⟩)
  · intro hname
    by_cases hsome : ∃ u ∈ updates, name ∈ u.keys
    · obtain ⟨u, hu⟩ := exists_isLast_iff.2 hsome
      obtain ⟨v, hv⟩ := mem_keys_iff.1 hu.holds
      exact mem_keys_iff.2 ⟨v, (h name v).2 (.inl ⟨u, hu, hv⟩)⟩
    · have hnone : ∀ u ∈ updates, name ∉ u.keys := fun u hu hkeys => hsome ⟨u, hu, hkeys⟩
      obtain ⟨v, hv⟩ := mem_keys_iff.1 (hname.resolve_right hsome)
      exact mem_keys_iff.2 ⟨v, (h name v).2 (.inr ⟨hnone, hv⟩)⟩

end SortedMap

/-! ## Contexts -/

namespace Json

/-- Whether the value is an object. -/
def isObject : Json → Bool
  | .obj _ => true
  | _ => false

/-- An object is one. -/
theorem isObject_iff {v : Json} : v.isObject = true ↔ ∃ m, v = .obj m := by
  cases v <;> simp [isObject]

/-- What updates come to that are put into a context one after the other, where the context and all
of them are objects. The names are those of the context and of the updates. -/
def Accumulates (context : Json) (updates : List Json) (result : Json) : Prop :=
  ∃ (before : SortedMap Json) (us : List (SortedMap Json)) (after : SortedMap Json),
    context = .obj before ∧ updates = us.map .obj ∧ result = .obj after ∧
      before.Accumulates us after ∧
      ∀ name, name ∈ after.keys ↔ name ∈ before.keys ∨ ∃ u ∈ us, name ∈ u.keys

/-- An update takes the place of a value when one of them is no object. -/
theorem update_of_isObject {v w : Json} (h : (v.isObject && w.isObject) = false) :
    v.update w = w := by
  cases v with
  | obj m =>
    cases w with
    | obj n => cases h
    | _ => rfl
  | _ => rfl

end Json

namespace Reducer

/-- The context after some reducers, applied one after the other. -/
def applyAll (context : Json) (fs : List Reducer) : Json :=
  fs.foldl (fun v f => f.apply v) context

/-- The updates that some reducers make, each for the context that the ones before it leave. -/
def updates (context : Json) : List Reducer → List Json
  | [] => []
  | f :: rest => f.reduce context :: updates (f.apply context) rest

/-- Reducers that are applied after others go on from the context that these leave. -/
theorem applyAll_append (context : Json) (fs gs : List Reducer) :
    applyAll context (fs ++ gs) = applyAll (applyAll context fs) gs := List.foldl_append

/-- An update that is no object, or that meets a context that is none, is the context after it. -/
theorem apply_eq_reduce {f : Reducer} {context : Json}
    (h : (context.isObject && (f.reduce context).isObject) = false) :
    f.apply context = f.reduce context := Json.update_of_isObject h

/-- An object update is put into an object context. -/
theorem apply_obj {f : Reducer} {m u : SortedMap Json} (h : f.reduce (.obj m) = .obj u) :
    f.apply (.obj m) = .obj (m.merge u) := by
  rw [apply, h]
  rfl

/-- Object updates accumulate in an object context. -/
theorem accumulates_updates (m : SortedMap Json) (fs : List Reducer)
    (h : ∀ u ∈ updates (.obj m) fs, u.isObject = true) :
    Json.Accumulates (.obj m) (updates (.obj m) fs) (applyAll (.obj m) fs) := by
  suffices ∃ us after, updates (.obj m) fs = us.map Json.obj ∧
      applyAll (.obj m) fs = .obj after ∧ m.Accumulates us after by
    obtain ⟨us, after, hupdates, hresult, hafter⟩ := this
    exact ⟨m, us, after, rfl, hupdates, hresult, hafter, hafter.mem_keys⟩
  induction fs generalizing m with
  | nil => exact ⟨[], m, rfl, rfl, .nil m⟩
  | cons f rest ih =>
    obtain ⟨hfirst, hrest⟩ := List.forall_mem_cons.1 h
    obtain ⟨u, hu⟩ := Json.isObject_iff.1 hfirst
    have happly := apply_obj hu
    rw [happly] at hrest
    obtain ⟨us, after, hupdates, hresult, hafter⟩ := ih (m.merge u) hrest
    refine ⟨u :: us, after, ?_, ?_, hafter.cons⟩
    · rw [updates, hu, happly, hupdates, List.map_cons]
    · rw [← hresult, ← happly]
      rfl

/-- When all updates of an object context are objects, the context stays an object in which every
name has the value of the last update with that name, else its first value, and no name is ever
lost. In any context, an update that is no object, or that meets a context that is none, is the
context after it; and from any point where the context is an object, the object updates that follow
accumulate in the same way. -/
theorem accumulation :
    (∀ (m : SortedMap Json) (fs : List Reducer),
      (∀ u ∈ updates (.obj m) fs, u.isObject = true) →
        Json.Accumulates (.obj m) (updates (.obj m) fs) (applyAll (.obj m) fs)) ∧
    ∀ (context : Json) (done : List Reducer),
      (∀ f : Reducer,
        ((applyAll context done).isObject &&
          (f.reduce (applyAll context done)).isObject) = false →
        applyAll context (done ++ [f]) = f.reduce (applyAll context done)) ∧
      ∀ rest : List Reducer, (applyAll context done).isObject = true →
        (∀ u ∈ updates (applyAll context done) rest, u.isObject = true) →
        Json.Accumulates (applyAll context done) (updates (applyAll context done) rest)
          (applyAll context (done ++ rest)) := by
  refine ⟨accumulates_updates, fun context done => ⟨fun f hf => ?_, fun rest hmet hrest => ?_⟩⟩
  · rw [applyAll_append]
    exact apply_eq_reduce hf
  · obtain ⟨m, hm⟩ := Json.isObject_iff.1 hmet
    rw [applyAll_append]
    rw [hm] at hrest ⊢
    exact accumulates_updates m rest hrest

/-- A rover that moves. -/
def rover : Json :=
  .object [("name", .str "rover"), ("speed", .num (.integer 3 (by decide)))]

/-- Stops and notes how fast it was. -/
def brake : Reducer :=
  ⟨0, none, fun v => .object [("before", v.member "speed"), ("speed", .null)]⟩

/-- Notes whether it is stopped. -/
def report : Reducer := ⟨1, none, fun v => .object [("stopped", .bool (v.member "speed" == .null))]⟩

/-- Forgets everything. -/
def park : Reducer := ⟨2, none, fun _ => .str "parked"⟩

/-- Notes where it was. -/
def wake : Reducer := ⟨3, none, fun v => .object [("from", v)]⟩

/-- What the rover notes accumulates, is forgotten when it is parked, and accumulates again when it
wakes up. -/
theorem accumulation_rover :
    rover.Accumulates (updates rover [brake, report]) (applyAll rover [brake, report]) ∧
      applyAll rover [brake, park] = .str "parked" ∧
      applyAll rover [brake, park, wake] = .object [("from", .str "parked")] ∧
      (Json.object [("from", .str "parked")]).Accumulates
        [.object [("before", .null), ("speed", .null)], .object [("stopped", .bool true)]]
        (applyAll rover [brake, park, wake, brake, report]) := by
  obtain ⟨hobject, hany⟩ := accumulation
  refine ⟨hobject _ [brake, report] (by decide +kernel), ?_, ?_, ?_⟩
  · exact (hany rover [brake]).1 park rfl
  · exact (hany rover [brake, park]).1 wake rfl
  · exact (hany rover [brake, park, wake]).2 [brake, report] rfl (by decide +kernel)

end Reducer

end FlatChart
