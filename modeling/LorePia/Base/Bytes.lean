import LorePia.Base.Result
import Mathlib.Algebra.Ring.Nat

/-!
# Numbers in bytes

`leNat` and `beNat` are the values of `from_le_bytes` and `from_be_bytes`, below `256 ^ n` for `n` bytes;
`beBytes` is the inverse of the second (`beNat_beBytes`, `beBytes_beNat`). `slice` takes bytes at an offset; slices of slices and of concatenations are slices
(`slice_slice`, `slice_append_right`).
-/

namespace Base

/-- The little-endian value. -/
def leNat : List UInt8 → Nat
  | [] => 0
  | byte :: bytes => byte.toNat + 256 * leNat bytes

/-- The big-endian value. -/
def beNat (bytes : List UInt8) : Nat := bytes.foldl (fun n byte => n * 256 + byte.toNat) 0

theorem leNat_lt : ∀ bytes : List UInt8, leNat bytes < 256 ^ bytes.length
  | [] => by simp [leNat]
  | byte :: bytes => by
    have hbyte := byte.toNat_lt
    have hrest := leNat_lt bytes
    rw [leNat, List.length_cons, Nat.pow_succ]
    omega

theorem beNat_concat (bytes : List UInt8) (byte : UInt8) :
    beNat (bytes ++ [byte]) = beNat bytes * 256 + byte.toNat := by
  rw [beNat, List.foldl_append, ← beNat, List.foldl_cons, List.foldl_nil]

/-- The big-endian bytes of a number. -/
def beBytes : Nat → Nat → List UInt8
  | 0, _ => []
  | width + 1, n => beBytes width (n / 256) ++ [UInt8.ofNat n]

@[simp] theorem length_beBytes : ∀ width n : Nat, (beBytes width n).length = width
  | 0, _ => rfl
  | width + 1, n => by rw [beBytes, List.length_append, length_beBytes width, List.length_singleton]

theorem beNat_beBytes : ∀ {width n : Nat}, n < 256 ^ width → beNat (beBytes width n) = n
  | 0, n, h => by
    rw [Nat.pow_zero, Nat.lt_one_iff] at h
    rw [h]
    rfl
  | width + 1, n, h => by
    rw [Nat.pow_succ] at h
    rw [beBytes, beNat_concat, beNat_beBytes (Nat.div_lt_of_lt_mul (by omega)), UInt8.toNat_ofNat']
    omega

theorem beNat_lt : ∀ {width : Nat} {bytes : List UInt8}, bytes.length = width → beNat bytes < 256 ^ width
  | 0, bytes, h => by
    cases List.length_eq_zero_iff.1 h
    exact Nat.one_pos
  | width + 1, bytes, h => by
    obtain rfl | ⟨front, byte, rfl⟩ := bytes.eq_nil_or_concat
    · cases h
    · rw [List.concat_eq_append, List.length_append, List.length_singleton] at h
      have hfront := beNat_lt (Nat.succ.inj h)
      have hbyte := byte.toNat_lt
      rw [List.concat_eq_append, beNat_concat, Nat.pow_succ]
      omega

theorem beBytes_beNat : ∀ {width : Nat} {bytes : List UInt8}, bytes.length = width →
    beBytes width (beNat bytes) = bytes
  | 0, bytes, h => by
    cases List.length_eq_zero_iff.1 h
    rfl
  | width + 1, bytes, h => by
    obtain rfl | ⟨front, byte, rfl⟩ := bytes.eq_nil_or_concat
    · cases h
    · rw [List.concat_eq_append, List.length_append, List.length_singleton] at h
      have hbyte := byte.toNat_lt
      rw [List.concat_eq_append, beNat_concat, beBytes, show (beNat front * 256 + byte.toNat) / 256 =
        beNat front by omega, beBytes_beNat (Nat.succ.inj h)]
      congr 2
      apply UInt8.toNat_inj.1
      rw [UInt8.toNat_ofNat']
      omega

/-- The bytes at an offset. -/
def slice (bytes : List UInt8) (offset size : Nat) : List UInt8 := (bytes.drop offset).take size

theorem length_slice {bytes : List UInt8} {offset size : Nat} (h : offset + size ≤ bytes.length) :
    (slice bytes offset size).length = size := by
  rw [slice, List.length_take, List.length_drop]
  omega

theorem length_slice_le (bytes : List UInt8) (offset size : Nat) :
    (slice bytes offset size).length ≤ size := by
  rw [slice, List.length_take]
  omega

/-- A slice after a prefix. -/
theorem slice_append_right (a b : List UInt8) (offset size : Nat) :
    slice (a ++ b) (a.length + offset) size = slice b offset size := by
  rw [slice, slice, ← List.drop_drop, List.drop_left]

/-- Bytes cut out at an offset, with what stands before and after. -/
theorem slice_split (bytes : List UInt8) (offset size : Nat) :
    bytes = bytes.take offset ++ slice bytes offset size ++ bytes.drop (offset + size) := by
  rw [slice, ← List.drop_drop, List.append_assoc, List.take_append_drop, List.take_append_drop]

/-- A slice of a slice. -/
theorem slice_slice {bytes : List UInt8} {offset size i k : Nat} (h : i + k ≤ size) :
    slice (slice bytes offset size) i k = slice bytes (offset + i) k := by
  rw [slice, slice, slice, List.drop_take, List.take_take, List.drop_drop, Nat.min_eq_left (by omega)]

/-- Neighbouring slices. -/
theorem slice_add (bytes : List UInt8) (offset size size' : Nat) :
    slice bytes offset (size + size') = slice bytes offset size ++ slice bytes (offset + size) size' := by
  rw [slice, slice, slice, List.take_add, List.drop_drop]

end Base
