import LorePia.Orchestration.KnowledgeEngine

/-!
# Lexicographic comparisons

`lexLe` spells `cmp(..).then_with(..)`. On two keys it is the lexicographic order: total, transitive and
antisymmetric in the keys, so a sort by it is determined by the items when the keys are distinct.
-/

namespace LorePia

open Base

theorem lexLe_cons (order : Ordering) (orders : List Ordering) :
    lexLe (order :: orders) = (order == .lt || order == .eq && lexLe orders) := by
  cases order <;> simp [lexLe]

theorem isLE_then (first second : Ordering) :
    (first.then second).isLE = (first == .lt || first == .eq && second.isLE) := by
  cases first <;> cases second <;> rfl

/-- A comparison that can be turned round decides every pair. -/
theorem isLE_total {α : Type} (cmp : α → α → Ordering) [Std.OrientedCmp cmp] (left right : α) :
    (cmp left right).isLE ∨ (cmp right left).isLE := by
  cases h : (cmp left right).isLE with
  | true => exact .inl rfl
  | false =>
    right
    have hgt : cmp left right = .gt := Ordering.isLE_eq_false.1 h
    rw [Std.OrientedCmp.gt_iff_lt] at hgt
    rw [hgt]
    rfl

section
variable {κ κ' : Type} [LinearOrder κ] [LinearOrder κ']

theorem lexLe_compare {x x' : κ} {orders : List Ordering} :
    lexLe (compare x x' :: orders) = true ↔ x < x' ∨ x = x' ∧ lexLe orders = true := by
  rw [lexLe_cons]
  simp only [Bool.or_eq_true, Bool.and_eq_true, beq_iff_eq, compare_lt_iff_lt, compare_eq_iff_eq]

/-- The last key. -/
theorem lexLe_last {x x' : κ} : lexLe [compare x x'] = true ↔ x ≤ x' := by
  rw [lexLe_compare, le_iff_lt_or_eq]
  simp [lexLe]

theorem lexLe_pair {x x' : κ} {y y' : κ'} :
    lexLe [compare x x', compare y y'] = true ↔ x < x' ∨ x = x' ∧ y ≤ y' := by
  rw [lexLe_compare, lexLe_last]

/-- Two keys are compared as their pair. -/
theorem lexLe_pair_toLex {x x' : κ} {y y' : κ'} :
    lexLe [compare x x', compare y y'] = true ↔ toLex (x, y) ≤ toLex (x', y') := by
  rw [lexLe_pair, Prod.Lex.toLex_le_toLex]

theorem lexLe_pair_total (x x' : κ) (y y' : κ') :
    lexLe [compare x x', compare y y'] = true ∨ lexLe [compare x' x, compare y' y] = true := by
  rw [lexLe_pair_toLex, lexLe_pair_toLex]
  exact le_total _ _

theorem lexLe_pair_trans {x x' x'' : κ} {y y' y'' : κ'}
    (h : lexLe [compare x x', compare y y'] = true) (h' : lexLe [compare x' x'', compare y' y''] = true) :
    lexLe [compare x x'', compare y y''] = true := by
  rw [lexLe_pair_toLex] at h h' ⊢
  exact h.trans h'

theorem lexLe_pair_antisymm {x x' : κ} {y y' : κ'} (h : lexLe [compare x x', compare y y'] = true)
    (h' : lexLe [compare x' x, compare y' y] = true) : y = y' := by
  rw [lexLe_pair_toLex] at h h'
  exact (Prod.mk.inj (toLex_inj.1 (le_antisymm h h'))).2

end

end LorePia
