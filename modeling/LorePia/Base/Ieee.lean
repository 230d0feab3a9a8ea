import Mathlib.Data.Nat.Log
import Mathlib.Tactic.Ring

/-!
# IEEE 754 binary values as scaled integers

A value of a binary interchange format is its sign, biased exponent and fraction. Every finite
value is an integer multiple of the least subnormal, so comparisons are comparisons of the integers
`scaled` (an infinity's fields give an integer above every finite one), and a product rounded to an
integer is integer arithmetic. `toMillionths` is the fixed-point conversion
`(f64::from(x) * 1_000_000.0).round()`: the product of a 24-bit significand and `15625 * 2 ^ 6` is
exact in `f64`, so only the rounding to an integer (half away from zero) is left.
-/

namespace Base

/-- The widths of a binary interchange format. -/
structure Format where
  expBits : Nat
  fracBits : Nat

/-- A value of the format `f`. -/
structure Ieee (f : Format) where
  negative : Bool
  exponent : Fin (2 ^ f.expBits)
  fraction : Fin (2 ^ f.fracBits)
deriving DecidableEq

abbrev f32 : Format := ⟨8, 23⟩
abbrev f64 : Format := ⟨11, 52⟩

abbrev F32 := Ieee f32

abbrev F64 := Ieee f64

namespace Ieee

variable {f : Format}

/-- The value with the given fields. -/
def ofFields (negative : Bool) (exponent fraction : Nat) : Ieee f :=
  ⟨negative, Fin.ofNat _ exponent, Fin.ofNat _ fraction⟩

/-- `x.is_nan()`. -/
def isNaN (x : Ieee f) : Bool := x.exponent.val + 1 = 2 ^ f.expBits && x.fraction.val ≠ 0

/-- `x.is_finite()`. -/
def isFinite (x : Ieee f) : Bool := x.exponent.val + 1 < 2 ^ f.expBits

/-- The magnitude in units of the least subnormal (infinities lie above every finite value). -/
def magnitude (x : Ieee f) : Nat :=
  if x.exponent.val = 0 then x.fraction.val
  else (2 ^ f.fracBits + x.fraction.val) * 2 ^ (x.exponent.val - 1)

/-- The value in units of the least subnormal. -/
def scaled (x : Ieee f) : Int := if x.negative then -(x.magnitude : Int) else x.magnitude

/-- The number of units in `1.0`. -/
def one (f : Format) : Nat := 2 ^ f.fracBits * 2 ^ (2 ^ (f.expBits - 1) - 2)

/-- `x < y`. -/
def lt (x y : Ieee f) : Bool := !x.isNaN && !y.isNaN && x.scaled < y.scaled

/-- `x == y`. -/
def eq (x y : Ieee f) : Bool := !x.isNaN && !y.isNaN && x.scaled = y.scaled

/-- `x < 0.0`. -/
def isNegative (x : Ieee f) : Bool := !x.isNaN && x.scaled < 0

/-- `x > 0.0`. -/
def isPositive (x : Ieee f) : Bool := !x.isNaN && 0 < x.scaled

/-- `(0.0..=n).contains(&x)` for an integer `n` of the format. -/
def inRange (n : Nat) (x : Ieee f) : Bool :=
  !x.isNaN && 0 ≤ x.scaled && x.scaled ≤ n * one f

/-- `(f64::from(x) * 1_000_000.0).round()` of a value that is not negative, as an integer. -/
def toMillionths (x : Ieee f) : Nat := (2 * x.scaled.toNat * 1000000 + one f) / (2 * one f)

theorem one_pos (f : Format) : 0 < one f := Nat.mul_pos (Nat.two_pow_pos _) (Nat.two_pow_pos _)

theorem toMillionths_le {n : Nat} {x : Ieee f} (h : x.inRange n = true) :
    x.toMillionths ≤ n * 1000000 := by
  have h1 := one_pos f
  simp only [inRange, Bool.and_eq_true, decide_eq_true_eq] at h
  have hs : x.scaled.toNat ≤ n * one f := by
    have := h.2
    omega
  unfold toMillionths
  have he : 2 * one f * (n * 1000000) = 2000000 * (n * one f) := by ring
  rw [Nat.div_le_iff_le_mul_add_pred (by omega), he]
  omega

/-! ## Equality -/

theorem magnitude_lt {x y : Ieee f} (h : x.exponent.val < y.exponent.val) :
    x.magnitude < y.magnitude := by
  have hfrac := x.fraction.isLt
  have hy : y.exponent.val ≠ 0 := by omega
  have hpos : 0 < 2 ^ (y.exponent.val - 1) := Nat.two_pow_pos _
  -- the least magnitude of the larger exponent
  have hle : 2 ^ f.fracBits * 2 ^ (y.exponent.val - 1) ≤ y.magnitude := by
    rw [magnitude, if_neg hy]
    exact Nat.mul_le_mul_right _ (Nat.le_add_right _ _)
  refine lt_of_lt_of_le ?_ hle
  unfold magnitude
  split
  · exact lt_of_lt_of_le hfrac (Nat.le_mul_of_pos_right _ hpos)
  · rename_i hx
    calc (2 ^ f.fracBits + x.fraction.val) * 2 ^ (x.exponent.val - 1)
        < (2 ^ f.fracBits * 2) * 2 ^ (x.exponent.val - 1) :=
          Nat.mul_lt_mul_of_pos_right (by omega) (Nat.two_pow_pos _)
      _ = 2 ^ f.fracBits * 2 ^ (x.exponent.val - 1 + 1) := by rw [pow_succ]; ring
      _ ≤ 2 ^ f.fracBits * 2 ^ (y.exponent.val - 1) :=
          Nat.mul_le_mul_left _ (Nat.pow_le_pow_right (by omega) (by omega))

theorem magnitude_inj {x y : Ieee f} (h : x.magnitude = y.magnitude) :
    x.exponent = y.exponent ∧ x.fraction = y.fraction := by
  have he : x.exponent.val = y.exponent.val := by
    rcases Nat.lt_trichotomy x.exponent.val y.exponent.val with hlt | heq | hlt
    · exact absurd h (magnitude_lt hlt).ne
    · exact heq
    · exact absurd h (magnitude_lt hlt).ne'
  refine ⟨Fin.ext he, Fin.ext ?_⟩
  unfold magnitude at h
  rw [he] at h
  split at h
  · exact h
  · have := Nat.eq_of_mul_eq_mul_right (Nat.two_pow_pos _) h
    omega

theorem eq_symm {x y : Ieee f} (h : x.eq y = true) : y.eq x = true := by
  simp only [eq, Bool.and_eq_true, Bool.not_eq_true', decide_eq_true_eq] at h ⊢
  exact ⟨⟨h.1.2, h.1.1⟩, h.2.symm⟩

theorem eq_trans {x y z : Ieee f} (h : x.eq y = true) (h' : y.eq z = true) : x.eq z = true := by
  simp only [eq, Bool.and_eq_true, Bool.not_eq_true', decide_eq_true_eq] at h h' ⊢
  exact ⟨⟨h.1.1, h'.1.2⟩, h.2.trans h'.2⟩

/-- **`==` identifies two values only when they are the same or both a zero.** -/
theorem eq_or_zero {x y : Ieee f} (h : x.eq y = true) :
    x = y ∨ x.magnitude = 0 ∧ y.magnitude = 0 := by
  simp only [eq, Bool.and_eq_true, decide_eq_true_eq] at h
  have hs := h.2
  unfold scaled at hs
  by_cases hz : x.magnitude = 0
  · right
    refine ⟨hz, ?_⟩
    split at hs <;> split at hs <;> omega
  · left
    have hm : x.magnitude = y.magnitude ∧ x.negative = y.negative := by
      cases hx : x.negative <;> cases hy : y.negative <;> simp only [hx, hy] at hs ⊢ <;>
        simp at hs ⊢ <;> omega
    obtain ⟨he, hf⟩ := magnitude_inj hm.1
    cases x
    cases y
    simp only [mk.injEq]
    exact ⟨hm.2, he, hf⟩

theorem isNaN_of_zero {x : Ieee f} (h : x.magnitude = 0) : x.isNaN = false := by
  have hfrac : x.fraction.val = 0 := by
    unfold magnitude at h
    split at h
    · exact h
    · have hpos : 0 < (2 ^ f.fracBits + x.fraction.val) * 2 ^ (x.exponent.val - 1) :=
        Nat.mul_pos (Nat.add_pos_left (Nat.two_pow_pos _) _) (Nat.two_pow_pos _)
      omega
  simp [isNaN, hfrac]

theorem isNaN_of_isFinite {x : Ieee f} (h : x.isFinite = true) : x.isNaN = false := by
  simp only [isFinite, decide_eq_true_eq] at h
  simp only [isNaN, Bool.and_eq_false_iff, decide_eq_false_iff_not]
  exact .inl (by omega)

/-- A number equals itself, and the zeros equal one another. -/
theorem eq_of_same {x y : Ieee f} (hx : x.isNaN = false)
    (h : x = y ∨ x.magnitude = 0 ∧ y.magnitude = 0) : x.eq y = true := by
  rcases h with rfl | ⟨hzx, hzy⟩
  · simp [eq, hx]
  · simp [eq, isNaN_of_zero hzx, isNaN_of_zero hzy, scaled, hzx, hzy]

end Ieee

/-! ## Integers as `f64` -/

/-- The `f64` nearest to the natural number `n < 2 ^ 64`, ties to even. -/
def f64OfNat (negative : Bool) (n : Nat) : F64 :=
  if n = 0 then ⟨negative, 0, 0⟩
  else
    let e := Nat.log 2 n
    -- 53 significant bits: shift left when they fit, else round the discarded bits to even
    let q :=
      if e ≤ 52 then n * 2 ^ (52 - e)
      else
        let unit := 2 ^ (e - 52)
        let r := n % unit
        if 2 * r > unit || (2 * r = unit && n / unit % 2 = 1) then n / unit + 1 else n / unit
    if q = 2 ^ 53 then ⟨negative, Fin.ofNat _ (1024 + e), 0⟩
    else ⟨negative, Fin.ofNat _ (1023 + e), Fin.ofNat _ (q - 2 ^ 52)⟩

/-- `value as f64` of an `i64`. -/
def f64OfInt (value : Int) : F64 := f64OfNat (decide (value < 0)) value.natAbs

end Base
