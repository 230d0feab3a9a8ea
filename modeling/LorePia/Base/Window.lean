import Mathlib.Data.List.Infix

/-!
# The longest suffix within limits

Limits are a predicate on lists that a suffix inherits. A suffix within the limits that cannot be extended by
the element in front of it contains every suffix within them (`longestSuffix_of_blocked`).
-/

namespace Base

variable {α : Type}

/-- A suffix is within the limits when the list is. -/
def TailClosed (P : List α → Prop) : Prop := ∀ a l, P (a :: l) → P l

/-- `window` is the longest suffix of `items` within the limits. -/
structure LongestSuffix (P : List α → Prop) (items window : List α) : Prop where
  suffix : window <:+ items
  within : P window
  longest : ∀ other, other <:+ items → P other → other <:+ window

theorem TailClosed.of_suffix {P : List α → Prop} (hclosed : TailClosed P) {l l' : List α} (h : l <:+ l')
    (hl : P l') : P l := by
  obtain ⟨front, rfl⟩ := h
  induction front with
  | nil => exact hl
  | cons a front ih => exact ih (hclosed a _ hl)

/-- A suffix longer than `window` reaches the element in front of it. -/
theorem suffix_of_longer {earlier window other : List α} {next : α}
    (h : other <:+ earlier ++ next :: window) (hlen : window.length < other.length) :
    next :: window <:+ other :=
  List.suffix_of_suffix_length_le (List.suffix_append earlier (next :: window)) h (by rw [List.length_cons]; omega)

/-- **A suffix blocked by the element in front of it is the longest.** -/
theorem longestSuffix_of_blocked {P : List α → Prop} (hclosed : TailClosed P) {older window : List α}
    (hwithin : P window)
    (hblocked : ∀ earlier next, older = earlier ++ [next] → ¬P (next :: window)) :
    LongestSuffix P (older ++ window) window := by
  refine ⟨List.suffix_append older window, hwithin, fun other hother hP => ?_⟩
  rcases Nat.lt_or_ge window.length other.length with hlt | hle
  · rcases List.eq_nil_or_concat older with rfl | ⟨earlier, next, rfl⟩
    · exact hother
    · rw [List.concat_eq_append, List.append_assoc, List.singleton_append] at hother
      have hnext := hclosed.of_suffix (suffix_of_longer hother hlt) hP
      exact absurd hnext (hblocked earlier next (by rw [List.concat_eq_append]))
  · exact List.suffix_of_suffix_length_le hother (List.suffix_append older window) hle

end Base
