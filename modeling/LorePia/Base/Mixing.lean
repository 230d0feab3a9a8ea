import Mathlib.Algebra.Ring.Nat
import Mathlib.Data.Finset.Card
import Mathlib.Logic.Function.Iterate
import Mathlib.Order.Interval.Finset.Nat

/-!
# Bijections of 64-bit words

An xor-shift and a multiplication by an odd constant are injective, and adding an odd constant over and over
gives every word before one comes again. A sequence of words without a repetition leaves the words from a limit
on after as many draws as there are (`exists_draw_lt`).
-/

namespace Base

/-- An xor-shift loses nothing: a difference of two words would be its own shift. -/
theorem xorShift_injective {shift : UInt64} (h : 0 < shift.toNat % 64) :
    Function.Injective fun v : UInt64 => v ^^^ v >>> shift := by
  intro v w hvw
  have hvw : v ^^^ v >>> shift = w ^^^ w >>> shift := hvw
  have hdiff : v ^^^ w = (v ^^^ w) >>> shift := by
    rw [UInt64.shiftRight_xor]
    have hflip : (v ^^^ w) ^^^ (v >>> shift ^^^ w >>> shift) = 0 :=
      calc (v ^^^ w) ^^^ (v >>> shift ^^^ w >>> shift)
          = (v ^^^ v >>> shift) ^^^ (w ^^^ w >>> shift) := by
            rw [UInt64.xor_assoc, UInt64.xor_assoc, ← UInt64.xor_assoc w, UInt64.xor_comm w,
              UInt64.xor_assoc (v >>> shift)]
        _ = 0 := by rw [hvw, UInt64.xor_self]
    exact UInt64.xor_eq_zero_iff.1 hflip
  have hnat : (v ^^^ w).toNat = (v ^^^ w).toNat / 2 ^ (shift.toNat % 64) := by
    rw [← Nat.shiftRight_eq_div_pow, ← UInt64.toNat_shiftRight, ← hdiff]
  have hzero : (v ^^^ w).toNat = 0 := by
    by_contra hne
    have hlt : (v ^^^ w).toNat / 2 ^ (shift.toNat % 64) < (v ^^^ w).toNat :=
      Nat.div_lt_self (Nat.pos_of_ne_zero hne) (Nat.one_lt_two_pow (Nat.pos_iff_ne_zero.1 h))
    omega
  exact UInt64.xor_eq_zero_iff.1 (UInt64.toNat_inj.1 hzero)

/-- A multiplication by a constant with an inverse loses nothing. -/
theorem mul_injective {c c' : UInt64} (h : c * c' = 1) : Function.Injective fun v : UInt64 => v * c := by
  intro v w hvw
  have hvw : v * c = w * c := hvw
  calc v = v * c * c' := by rw [UInt64.mul_assoc, h, UInt64.mul_one]
    _ = w * c * c' := by rw [hvw]
    _ = w := by rw [UInt64.mul_assoc, h, UInt64.mul_one]

theorem iterate_add (step s : UInt64) : ∀ n : Nat, (fun v => v + step)^[n] s = s + UInt64.ofNat n * step
  | 0 => by
    have hzero : UInt64.ofNat 0 * step = 0 := UInt64.zero_mul
    rw [hzero, UInt64.add_zero]
    rfl
  | n + 1 => by
    have hone : UInt64.ofNat 1 * step = step := UInt64.one_mul step
    rw [Function.iterate_succ_apply', iterate_add step s n, UInt64.ofNat_add, UInt64.add_mul, hone, UInt64.add_assoc]

/-- Adding an odd constant has the full period. -/
theorem iterate_add_inj {step step' s : UInt64} (h : step * step' = 1) {i j : Nat} (hi : i < 2 ^ 64)
    (hj : j < 2 ^ 64) (heq : (fun v => v + step)^[i] s = (fun v => v + step)^[j] s) : i = j := by
  rw [iterate_add, iterate_add, UInt64.add_right_inj] at heq
  have hnat := congrArg UInt64.toNat (mul_injective h heq)
  rwa [UInt64.toNat_ofNat_of_lt' hi, UInt64.toNat_ofNat_of_lt' hj] at hnat

/-- **A sequence without a repetition soon leaves the words from a limit on.** -/
theorem exists_draw_lt {draw : Nat → UInt64}
    (hinj : ∀ i j, i < 2 ^ 64 → j < 2 ^ 64 → draw i = draw j → i = j) {limit : UInt64} (hlimit : 0 < limit.toNat) :
    ∃ k ≤ 2 ^ 64 - limit.toNat, draw k < limit := by
  by_contra hnone
  have hge : ∀ k ≤ 2 ^ 64 - limit.toNat, limit.toNat ≤ (draw k).toNat := by
    intro k hk
    by_contra hlt
    exact hnone ⟨k, hk, UInt64.lt_iff_toNat_lt.2 (Nat.lt_of_not_le hlt)⟩
  have hmaps : ∀ k ∈ Finset.range (2 ^ 64 - limit.toNat + 1),
      (draw k).toNat ∈ Finset.Ico limit.toNat (2 ^ 64) := by
    intro k hk
    have hle := Finset.mem_range.1 hk
    exact Finset.mem_Ico.2 ⟨hge k (by omega), (draw k).toNat_lt⟩
  have hcard : (Finset.Ico limit.toNat (2 ^ 64)).card < (Finset.range (2 ^ 64 - limit.toNat + 1)).card := by
    rw [Nat.card_Ico, Finset.card_range]
    exact Nat.lt_succ_self _
  obtain ⟨i, hi, j, hj, hne, heq⟩ := Finset.exists_ne_map_eq_of_card_lt_of_maps_to hcard hmaps
  have hile := Finset.mem_range.1 hi
  have hjle := Finset.mem_range.1 hj
  exact hne (hinj i j (by omega) (by omega) (UInt64.toNat_inj.1 heq))

end Base
