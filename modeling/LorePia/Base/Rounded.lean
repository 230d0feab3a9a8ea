import LorePia.Base.Ieee

/-!
# IEEE 754 arithmetic

An operation computes the exact result in units of the least subnormal, as a quotient of two natural numbers,
and rounds once: to the nearest value, ties to even.
-/

namespace Base

namespace Ieee

variable {f : Format}

/-! ## Rounding -/

/-- `p / q` to the nearest integer, ties to even. -/
def roundEven (p q : Nat) : Nat :=
  if 2 * (p % q) > q || (2 * (p % q) = q && p / q % 2 = 1) then p / q + 1 else p / q

/-- An infinity. -/
def infinite (negative : Bool) : Ieee f := ofFields negative (2 ^ f.expBits - 1) 0

/-- A quiet NaN. -/
def nan : Ieee f := ofFields false (2 ^ f.expBits - 1) (2 ^ (f.fracBits - 1))

/-- The bits by which a magnitude exceeds the significand. -/
def excess (f : Format) (units : Nat) : Nat := Nat.log2 units - f.fracBits

/-- The value of a magnitude that the format has, or an infinity. -/
def ofMagnitude (negative : Bool) (units : Nat) : Ieee f :=
  if units < 2 ^ f.fracBits then ofFields negative 0 units
  else if excess f units + 2 < 2 ^ f.expBits then
    ofFields negative (excess f units + 1) (units / 2 ^ excess f units - 2 ^ f.fracBits)
  else infinite negative

/-- The value nearest to `p / q` units. -/
def rounded (negative : Bool) (p q : Nat) : Ieee f :=
  ofMagnitude negative (roundEven p (q * 2 ^ excess f (p / q)) * 2 ^ excess f (p / q))

/-! ## Operations -/

/-- `x - y`. -/
def sub (x y : Ieee f) : Ieee f :=
  if x.isNaN || y.isNaN then nan
  else if !x.isFinite then (if !y.isFinite && x.negative = y.negative then nan else x)
  else if !y.isFinite then infinite (!y.negative)
  else if x.scaled = y.scaled then ofFields (x.negative && !y.negative) 0 0
  else rounded (x.scaled < y.scaled) (x.scaled - y.scaled).natAbs 1

/-- `x * y`. -/
def mul (x y : Ieee f) : Ieee f :=
  if x.isNaN || y.isNaN then nan
  else if !x.isFinite || !y.isFinite then
    (if x.magnitude = 0 || y.magnitude = 0 then nan else infinite (x.negative != y.negative))
  else rounded (x.negative != y.negative) (x.magnitude * y.magnitude) (one f)

/-- `x / y`. -/
def div (x y : Ieee f) : Ieee f :=
  if x.isNaN || y.isNaN then nan
  else if !x.isFinite then (if !y.isFinite then nan else infinite (x.negative != y.negative))
  else if !y.isFinite then ofFields (x.negative != y.negative) 0 0
  else if y.magnitude = 0 then
    (if x.magnitude = 0 then nan else infinite (x.negative != y.negative))
  else rounded (x.negative != y.negative) (x.magnitude * one f) y.magnitude

/-- `x.abs()`. -/
def abs (x : Ieee f) : Ieee f := { x with negative := false }

/-- `x.max(y)`. -/
def maximum (x y : Ieee f) : Ieee f :=
  if x.isNaN then y else if y.isNaN then x else if x.lt y then y else x

/-- `x.round()`: half away from zero. -/
def round (x : Ieee f) : Ieee f :=
  if !x.isFinite then x
  else ofMagnitude x.negative ((2 * x.magnitude + one f) / (2 * one f) * one f)

/-- `(0.75 - 0.25) / 0.125` -/
example : div (sub (ofFields false 1022 (2 ^ 51)) (ofFields false 1021 0)) (ofFields false 1020 0) =
    (ofFields false 1025 0 : F64) := by decide +kernel

end Ieee

end Base
