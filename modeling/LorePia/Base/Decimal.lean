import Mathlib.Data.List.Induction
import Mathlib.Tactic.IntervalCases

/-!
# Decimal numbers without leading zeros

A list of decimal digits, its value, and the digits that print the value: the list without its leading
zeros (`toDigits_decimalValue`).
-/

namespace Base

/-- The value of some decimal digits. -/
def decimalValue (digits : List Char) : Nat :=
  digits.foldl (fun value digit => value * 10 + (digit.toNat - 48)) 0

/-- The digits without leading zeros; zero keeps one. -/
def stripZeros (digits : List Char) : List Char :=
  match digits.dropWhile (· = '0') with
  | [] => ['0']
  | rest => rest

theorem decimalValue_snoc (digits : List Char) (digit : Char) :
    decimalValue (digits ++ [digit]) = decimalValue digits * 10 + (digit.toNat - 48) := by
  simp [decimalValue]

theorem digit_bounds {digit : Char} (h : digit.isDigit = true) : 48 ≤ digit.toNat ∧ digit.toNat ≤ 57 := by
  simp only [Char.isDigit, Bool.and_eq_true, decide_eq_true_eq, ge_iff_le, UInt32.le_iff_toNat_le] at h
  exact h

theorem digitChar_of_isDigit {digit : Char} (h : digit.isDigit = true) :
    (digit.toNat - 48).digitChar = digit := by
  obtain ⟨hlow, hhigh⟩ := digit_bounds h
  obtain ⟨k, hk⟩ : ∃ k, digit.toNat = 48 + k := ⟨digit.toNat - 48, by omega⟩
  have hdigit : digit = Char.ofNat (48 + k) := by rw [← hk, Char.ofNat_toNat]
  have hlt : k < 10 := by omega
  rw [hk, Nat.add_sub_cancel_left, hdigit]
  interval_cases k <;> rfl

/-- Digits of value zero are zeros. -/
theorem decimalValue_eq_zero {digits : List Char} (hdigits : ∀ digit ∈ digits, digit.isDigit = true) :
    decimalValue digits = 0 ↔ digits.dropWhile (· = '0') = [] := by
  induction digits using List.reverseRecOn with
  | nil => simp [decimalValue]
  | append_singleton digits digit ih =>
    have hinit : ∀ digit ∈ digits, digit.isDigit = true :=
      fun digit hmem => hdigits digit (List.mem_append_left _ hmem)
    have hlast : digit.isDigit = true := hdigits digit (by simp)
    obtain ⟨hlow, -⟩ := digit_bounds hlast
    have hzero : digit.toNat - 48 = 0 ↔ digit = '0' := by
      rw [← Nat.digitChar_eq_zero, digitChar_of_isDigit hlast]
    have hten : decimalValue digits * 10 = 0 ↔ digits.dropWhile (· = '0') = [] := by
      rw [← ih hinit]
      omega
    have hone : [digit].dropWhile (· = '0') = [] ↔ digit = '0' := by
      by_cases h0 : digit = '0' <;> simp [h0]
    rw [decimalValue_snoc, Nat.add_eq_zero_iff, hzero, hten, List.dropWhile_append]
    constructor
    · rintro ⟨hnil, h0⟩
      rw [hnil]
      exact hone.2 h0
    · intro h
      split at h
      · rename_i hempty
        exact ⟨List.isEmpty_iff.1 hempty, hone.1 h⟩
      · simp at h

/-- **A value prints as its digits without leading zeros.** -/
theorem toDigits_decimalValue {digits : List Char} (hdigits : ∀ digit ∈ digits, digit.isDigit = true) :
    Nat.toDigits 10 (decimalValue digits) = stripZeros digits := by
  induction digits using List.reverseRecOn with
  | nil => rfl
  | append_singleton digits digit ih =>
    have hinit : ∀ digit ∈ digits, digit.isDigit = true :=
      fun digit hmem => hdigits digit (List.mem_append_left _ hmem)
    have hlast : digit.isDigit = true := hdigits digit (by simp)
    obtain ⟨hlow, hhigh⟩ := digit_bounds hlast
    have hdigit : Nat.toDigits 10 (digit.toNat - 48) = [digit] := by
      rw [Nat.toDigits_of_lt_base (by omega), digitChar_of_isDigit hlast]
    by_cases hzero : decimalValue digits = 0
    · have hnil := (decimalValue_eq_zero hinit).1 hzero
      rw [decimalValue_snoc, hzero, Nat.zero_mul, Nat.zero_add, hdigit, stripZeros, List.dropWhile_append,
        hnil]
      by_cases h0 : digit = '0'
      · subst h0
        rfl
      · simp [h0]
    · have hne : digits.dropWhile (· = '0') ≠ [] := fun h => hzero ((decimalValue_eq_zero hinit).2 h)
      have hstrip : stripZeros digits = digits.dropWhile (· = '0') := by
        unfold stripZeros
        split
        · rename_i hnil
          exact absurd hnil hne
        · rfl
      rw [decimalValue_snoc, Nat.mul_comm,
        ← Nat.toDigits_append_toDigits (by omega) (Nat.pos_of_ne_zero hzero) (by omega), ih hinit, hdigit,
        hstrip]
      unfold stripZeros
      rw [List.dropWhile_append, if_neg (by simpa using hne)]
      split
      · rename_i hnil
        simp at hnil
      · rfl

end Base
