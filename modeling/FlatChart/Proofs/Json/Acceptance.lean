import FlatChart.Chart.Writing
import FlatChart.Proofs.Chart.Data
import FlatChart.Proofs.Json.Decoding

/-!
# When a document is accepted

A decoder of what was written by rule has only one way to fail: brackets that nest too deep.
`Yields r p a` says that `r` gives `a` when `p` holds and is malformed otherwise, and it is kept by
every combination of decoders (`Yields.bind`, `yields_mapM`, `yields_foldlM`). With it
`Document.accept_yields` and `yields_data` settle data, and `yields_map` maps of what is settled
already.
-/

namespace FlatChart

variable {α β σ : Type}

/-- The result is `a` when `p` holds, and malformed otherwise. -/
structure Yields (r : Except ReadError α) (p : Prop) (a : α) : Prop where
  /-- What is given. -/
  ok : p → r = .ok a
  /-- The error. -/
  malformed : ¬p → r = .error .malformed

namespace Yields

variable {r : Except ReadError α} {p q : Prop} {a : α} {b : β}

/-- A result that is always given. -/
theorem of_eq (h : r = .ok a) : Yields r True a := ⟨fun _ => h, fun hn => absurd trivial hn⟩

/-- The condition may be put in another way. -/
theorem congr (h : Yields r p a) (hpq : p ↔ q) : Yields r q a :=
  ⟨fun hq => h.ok (hpq.2 hq), fun hn => h.malformed fun hp => hn (hpq.1 hp)⟩

/-- A result and what is made of it must both be given. -/
theorem bind {f : α → Except ReadError β} (hr : Yields r p a) (hf : Yields (f a) q b) :
    Yields (r >>= f) (p ∧ q) b := by
  constructor
  · rintro ⟨hp, hq⟩
    rw [hr.ok hp]
    exact hf.ok hq
  · intro hn
    by_cases hp : p
    · rw [hr.ok hp]
      exact hf.malformed fun hq => hn ⟨hp, hq⟩
    · rw [hr.malformed hp]
      rfl

/-- What is made of a result by a function is given when the result is. -/
theorem map (hr : Yields r p a) (f : α → β) : Yields (r >>= fun a => .ok (f a)) p (f a) := by
  have hf : Yields (Except.ok (f a)) True (f a) := of_eq rfl
  have h := hr.bind (f := fun a => .ok (f a)) hf
  exact h.congr (and_iff_left trivial)

end Yields

/-- A list of results is given when each one is. -/
theorem yields_mapM {f : α → Except ReadError β} {p : α → Prop} {g : α → β} :
    ∀ {items : List α}, (∀ a ∈ items, Yields (f a) (p a) (g a)) →
      Yields (items.mapM f) (∀ a ∈ items, p a) (items.map g)
  | [], _ => (Yields.of_eq rfl).congr (by simp)
  | a :: items, h => by
    have ha := h a (List.mem_cons_self ..)
    have ih := yields_mapM fun b hb => h b (List.mem_cons_of_mem _ hb)
    rw [List.mapM_cons]
    exact (ha.bind (ih.map (g a :: ·))).congr (by simp)

/-- Steps that do the same wherever they are made can be made one after the other. -/
theorem yields_foldlM {step : σ → α → Except ReadError σ} {p : α → Prop} {next : σ → α → σ} :
    ∀ {items : List α} (s : σ), (∀ s, ∀ a ∈ items, Yields (step s a) (p a) (next s a)) →
      Yields (items.foldlM step s) (∀ a ∈ items, p a) (items.foldl next s)
  | [], s, _ => (Yields.of_eq rfl).congr (by simp)
  | a :: items, s, h => by
    have ha := h s a (List.mem_cons_self ..)
    have ih := yields_foldlM (next s a) fun s b hb => h s b (List.mem_cons_of_mem _ hb)
    rw [List.foldlM_cons]
    exact (ha.bind ih).congr (by simp)

/-- A single step. -/
theorem Yields.foldlM_singleton {step : σ → α → Except ReadError σ} {s s' : σ} {a : α} {p : Prop}
    (h : Yields (step s a) p s') : Yields ([a].foldlM step s) p s' := by
  rw [List.foldlM_cons]
  exact h.map id

/-! ## Data -/

/-- A number whose literal stands for it is read as itself. -/
theorem Number.reread_eq {n : Number} (h : ∀ x, n = .float x → x.ReadsBack) : n.reread = .ok n := by
  have hn : n.literal.number? = some n := by
    cases n with
    | integer n fits => exact number?_literal_integer n fits
    | float x => exact h x rfl
  rw [reread, hn]

namespace Document

/-- A document whose floats read back is accepted as it is, when it does not nest too deep. -/
theorem accept_yields (depth : ℕ) :
    ∀ d : Document, (∀ x ∈ d.floats, x.ReadsBack) →
      Yields (accept depth d) (d.nesting ≤ depth) d := by
  induction depth using Nat.strongRecOn with
  | ind depth ih =>
    intro d hd
    have flat : accept depth d = .ok d → d.nesting = 0 →
        Yields (accept depth d) (d.nesting ≤ depth) d := fun h hn =>
      (Yields.of_eq h).congr (by simp [hn])
    cases d with
    | null => exact flat (by cases depth <;> rfl) rfl
    | bool b => exact flat (by cases depth <;> rfl) rfl
    | str s => exact flat (by cases depth <;> rfl) rfl
    | num n =>
      have hn : n.reread = .ok n := Number.reread_eq fun x hx => by
        subst hx
        exact hd x (List.mem_singleton.2 rfl)
      have haccept : accept depth (.num n) = n.reread >>= fun n => .ok (.num n) := by
        cases depth <;> rfl
      exact flat (by rw [haccept, hn]; rfl) rfl
    | arr items =>
      cases depth with
      | zero => exact ⟨fun h => absurd h (by simp [nesting]), fun _ => rfl⟩
      | succ depth =>
        have hitems := yields_mapM (g := id) fun d hmem =>
          ih depth (Nat.lt_succ_self _) d fun x hx => hd x (mem_floatsOfItems.2 ⟨d, hmem, hx⟩)
        have h := (hitems.map Document.arr).congr nestingItems_le.symm
        rw [List.map_id] at h
        exact h.congr Nat.succ_le_succ_iff.symm
    | obj members =>
      cases depth with
      | zero => exact ⟨fun h => absurd h (by simp [nesting]), fun _ => rfl⟩
      | succ depth =>
        have hmembers := yields_mapM (f := acceptMember depth) (g := id) fun m hmem =>
          (ih depth (Nat.lt_succ_self _) m.2 fun x hx =>
            hd x (mem_floatsOfMembers.2 ⟨m, hmem, hx⟩)).map (m.1, ·)
        have h := (hmembers.map Document.obj).congr nestingMembers_le.symm
        rw [List.map_id] at h
        exact h.congr Nat.succ_le_succ_iff.symm

/-- Data whose floats read back is read from its document, when it does not nest too deep. -/
theorem yields_data (depth : ℕ) (v : Json) (hv : v.Rereads) :
    Yields (v.document.data depth) (v.nesting ≤ depth) v := by
  have h := (accept_yields depth v.document hv).map value
  rw [Json.value_document] at h
  exact h

/-- Data that may be `null`, where `null` counts as absent. -/
theorem yields_optional_data (depth : ℕ) (v : Json) (hv : v.Rereads) :
    Yields (optional (data depth) v.document) (v.nesting ≤ depth)
      ((some v).filter fun v => !v.isNull) := by
  have h := (yields_data depth v hv).map some
  cases v with
  | null => exact (Yields.of_eq rfl).congr (iff_of_true trivial (Nat.zero_le _))
  | _ => exact h

/-! ## Maps -/

/-- A written map is read as the map of what is read of its values. -/
theorem yields_map {f : Document → Except ReadError β} {write : α → Document} {p : α → Prop}
    {g : α → β} (m : SortedMap α)
    (h : ∀ e ∈ m.toList, Yields (f (write e.2)) (p e.2) (g e.2)) :
    Yields (map f (.obj (m.members write))) (∀ e ∈ m.toList, p e.2) (m.map g) := by
  have hfold : (m.toList.foldl (fun n e => n.insert e.1 (g e.2)) ∅) = m.map g := by
    rw [← SortedMap.ofList_toList (m.map g), SortedMap.toList_map, SortedMap.ofList, List.foldl_map]
  rw [map, SortedMap.members, List.foldlM_map, ← hfold]
  apply yields_foldlM
  intro n e he
  exact (h e he).map (n.insert e.1)

end Document

end FlatChart
