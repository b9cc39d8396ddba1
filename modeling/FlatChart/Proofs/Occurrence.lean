import Mathlib.Data.List.Basic

/-!
# The first and the last item

Where a name stands several times, the first or the last item with it counts. Both are told by what
stands before and after them, and both are what a search from their end of the list finds.
-/

namespace FlatChart

variable {α : Type} {p : α → Prop} {items : List α} {a : α}

/-- An item has a property, and none before it does. -/
def IsFirst (p : α → Prop) (items : List α) (a : α) : Prop :=
  ∃ before after, items = before ++ a :: after ∧ p a ∧ ∀ b ∈ before, ¬p b

/-- An item has a property, and none after it does. -/
def IsLast (p : α → Prop) (items : List α) (a : α) : Prop :=
  ∃ before after, items = before ++ a :: after ∧ p a ∧ ∀ b ∈ after, ¬p b

/-- The last item with a property has it. -/
theorem IsLast.holds (h : IsLast p items a) : p a := by
  obtain ⟨_, _, -, ha, -⟩ := h
  exact ha

/-- The first item with a property is the one that is found. -/
theorem isFirst_iff [DecidablePred p] : IsFirst p items a ↔ items.find? (p ·) = some a := by
  rw [List.find?_eq_some_iff_append, IsFirst]
  constructor
  · rintro ⟨before, after, hitems, ha, hbefore⟩
    exact ⟨decide_eq_true ha, before, after, hitems, fun b hb => by simpa using hbefore b hb⟩
  · rintro ⟨ha, before, after, hitems, hbefore⟩
    exact ⟨before, after, hitems, of_decide_eq_true ha, fun b hb => by simpa using hbefore b hb⟩

/-- The last item is the first one from the other end. -/
theorem isLast_iff_isFirst_reverse : IsLast p items a ↔ IsFirst p items.reverse a := by
  constructor
  · rintro ⟨before, after, rfl, ha, hafter⟩
    exact ⟨after.reverse, before.reverse, by simp, ha, fun b hb => hafter b (by simpa using hb)⟩
  · rintro ⟨before, after, hitems, ha, hbefore⟩
    have hreverse : items = after.reverse ++ a :: before.reverse := by
      rw [← items.reverse_reverse, hitems]
      simp
    exact ⟨after.reverse, before.reverse, hreverse, ha, fun b hb => hbefore b (by simpa using hb)⟩

/-- The last item with a property is the one that is found from the other end. -/
theorem isLast_iff [DecidablePred p] : IsLast p items a ↔ items.reverse.find? (p ·) = some a := by
  rw [isLast_iff_isFirst_reverse, isFirst_iff]

/-- Of one more item at the front and the others, the last one with a property is among the others,
if any of them has it. -/
theorem isLast_cons {b : α} :
    IsLast p (b :: items) a ↔ IsLast p items a ∨ b = a ∧ p a ∧ ∀ c ∈ items, ¬p c := by
  constructor
  · rintro ⟨before, after, hitems, ha, hafter⟩
    rcases before with _ | ⟨c, before⟩
    · obtain ⟨rfl, rfl⟩ := List.cons.inj hitems
      exact .inr ⟨rfl, ha, hafter⟩
    · exact .inl ⟨before, after, (List.cons.inj hitems).2, ha, hafter⟩
  · rintro (⟨before, after, rfl, ha, hafter⟩ | ⟨rfl, ha, hnone⟩)
    · exact ⟨b :: before, after, rfl, ha, hafter⟩
    · exact ⟨[], items, rfl, ha, hnone⟩

/-- There is a last item with a property when there is any. -/
theorem exists_isLast_iff [DecidablePred p] : (∃ a, IsLast p items a) ↔ ∃ a ∈ items, p a := by
  simp only [isLast_iff, ← Option.isSome_iff_exists, List.find?_isSome, List.mem_reverse,
    decide_eq_true_eq]

end FlatChart
