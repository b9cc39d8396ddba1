import FlatChart.Chart.Basic
import FlatChart.Proofs.SortedMap

/-!
# Equal charts

Charts compare by their data and by the identity of their functions, part by part
(`Chart.beq_iff`, `State.beq_iff`, `Transition.beq_iff`). Data compares numbers as numbers: a value
equals itself (`Json.beq_self`), and of two numbers that are equal but not the same, one is the
float zero and the other the negative one (`Number.eq_or_zeros_of_beq`). This is the one way in
which equal data can be written differently.
-/

namespace FlatChart

/-! ## Data -/

/-- A zero is told by its sign. -/
theorem Binary64.eq_zero_of_isZero {x : Binary64} (h : x.isZero = true) : x = .zero x.negative := by
  obtain ⟨negative, significand, shift, canonical⟩ := x
  obtain rfl : significand = 0 := eq_of_beq h
  obtain rfl : shift = 0 := canonical.2.2.resolve_right (by decide)
  rfl

namespace Number

/-- A number equals itself. -/
theorem beq_self : ∀ n : Number, (n == n) = true
  | .integer n _ => beq_self_eq_true n
  | .float x => by
    have hself : (decide (x = x) || (x.isZero && x.isZero)) = true := by simp
    exact hself

/-- Equal numbers are the same, or they are the two zeros. -/
theorem eq_or_zeros_of_beq {m n : Number} (h : (m == n) = true) :
    m = n ∨ ∃ negative, m = .float (.zero negative) ∧ n = .float (.zero !negative) := by
  cases m with
  | integer a _ =>
    cases n with
    | integer b _ =>
      obtain rfl : a = b := eq_of_beq h
      exact .inl rfl
    | float y => cases h
  | float x =>
    cases n with
    | integer b _ => cases h
    | float y =>
      have hxy : (decide (x = y) || (x.isZero && y.isZero)) = true := h
      rw [Bool.or_eq_true, decide_eq_true_iff, Bool.and_eq_true] at hxy
      rcases hxy with rfl | ⟨hx, hy⟩
      · exact .inl rfl
      · rw [Binary64.eq_zero_of_isZero hx, Binary64.eq_zero_of_isZero hy]
        by_cases hsign : y.negative = x.negative
        · exact .inl (by rw [hsign])
        · exact .inr ⟨x.negative, rfl, by rw [Bool.eq_not_of_ne hsign]⟩

end Number

namespace Json

mutual
/-- A value equals itself. -/
theorem beq_self : ∀ v : Json, v.beq v = true
  | .null => rfl
  | .bool b => beq_self_eq_true b
  | .num n => n.beq_self
  | .str s => beq_self_eq_true s
  | .arr items => beqItems_self items
  | .obj ⟨keys, sorted, value⟩ => by
    rw [beq, SortedMap.agrees, dif_pos rfl, List.all_eq_true]
    exact fun i _ => (value i).beq_self

/-- A list of values equals itself. -/
theorem beqItems_self : ∀ items : List Json, beqItems items items = true
  | [] => rfl
  | v :: rest => by
    rw [beqItems, beq_self v, beqItems_self rest]
    rfl
end

end Json

/-! ## Lists and options -/

section

variable {α : Type} [BEq α]

/-- Options are equal when neither has a value or their values are equal. -/
theorem beq_iff_rel {a b : Option α} :
    (a == b) = true ↔ Option.Rel (fun v w => (v == w) = true) a b := by
  cases a <;> cases b <;> simp

/-- Lists are equal when their items are. -/
theorem beq_of_forall₂ {as bs : List α} (h : List.Forall₂ (fun a b => (a == b) = true) as bs) :
    (as == bs) = true := by
  induction h with
  | nil => rfl
  | cons hab _ ih =>
    rw [List.cons_beq_cons, hab, ih]
    rfl

end

/-! ## Charts -/

/-- Transitions are equal when all their parts are. -/
theorem Transition.beq_iff {t u : Transition} :
    (t == u) = true ↔ t.target = u.target ∧ (t.actions == u.actions) = true ∧
      (t.cond == u.cond) = true ∧ (t.extra == u.extra) = true := by
  have h : (t == u) = (t.target == u.target && (t.actions == u.actions &&
      (t.cond == u.cond && t.extra == u.extra))) := rfl
  simp [h]

/-- States are equal when all their parts are. -/
theorem State.beq_iff {s u : State} :
    (s == u) = true ↔ s.final = u.final ∧ (s.on == u.on) = true ∧ (s.entry == u.entry) = true ∧
      (s.exit == u.exit) = true ∧ (s.invoke == u.invoke) = true := by
  have h : (s == u) = (s.final == u.final && (s.on == u.on && (s.entry == u.entry &&
      (s.exit == u.exit && s.invoke == u.invoke)))) := rfl
  simp [h]

/-- Charts are equal when all their parts are. -/
theorem Chart.beq_iff {c d : Chart} :
    (c == d) = true ↔ c.initial = d.initial ∧ (c.context == d.context) = true ∧
      (c.states == d.states) = true := by
  have h : (c == d) = (c.initial == d.initial && (c.context == d.context &&
      c.states == d.states)) := rfl
  simp [h]

end FlatChart
