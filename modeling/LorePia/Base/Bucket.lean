import Mathlib.Algebra.Order.Ring.Nat
import Mathlib.Order.MinMax

/-!
# Token buckets

A bucket holds a level of at most `cap` that grows by `rate` with each tick of a clock. `take` refills it up to a
time and removes a cost that it can bear. The clock of a bucket does not go back. Refilling in two steps is
refilling in one (`refill_refill`), so two buckets that agree from some time on stay alike (`Agree`), and what is
taken comes from the level and the ticks (`take_conserves`).
-/

namespace Base

/-- A level with the time up to which it was refilled. -/
structure Bucket where
  level : Nat
  time : Nat

namespace Bucket

section
variable (cap rate : Nat)

/-- The bucket at a time. -/
def refill (now : Nat) (b : Bucket) : Bucket :=
  ⟨min (b.level + (max now b.time - b.time) * rate) cap, max now b.time⟩

/-- Whether a cost could be removed at a time, and the bucket after that. -/
def take (cost now : Nat) (b : Bucket) : Bool × Bucket :=
  if cost ≤ (refill cap rate now b).level then
    (true, ⟨(refill cap rate now b).level - cost, (refill cap rate now b).time⟩)
  else (false, refill cap rate now b)

/-- Two buckets that are alike from a time on. -/
def Agree (since : Nat) (b b' : Bucket) : Prop := ∀ now, since ≤ now → refill cap rate now b = refill cap rate now b'

end

variable {cap rate : Nat}

/-- **Refilling in two steps is refilling in one.** -/
theorem refill_refill {now later : Nat} (h : now ≤ later) (b : Bucket) :
    refill cap rate later (refill cap rate now b) = refill cap rate later b := by
  have htime : max later (max now b.time) = max later b.time := by omega
  have hticks : (max later b.time - b.time) * rate =
      (max now b.time - b.time) * rate + (max later b.time - max now b.time) * rate := by
    rw [← Nat.add_mul]
    congr 1
    omega
  simp only [refill, htime, hticks]
  congr 1
  omega

theorem level_refill_le (now : Nat) (b : Bucket) : (refill cap rate now b).level ≤ cap := Nat.min_le_right _ _

theorem take_of_le {cost now : Nat} {b : Bucket} (h : cost ≤ (refill cap rate now b).level) :
    take cap rate cost now b =
      (true, ⟨(refill cap rate now b).level - cost, (refill cap rate now b).time⟩) := if_pos h

theorem take_of_lt {cost now : Nat} {b : Bucket} (h : ¬cost ≤ (refill cap rate now b).level) :
    take cap rate cost now b = (false, refill cap rate now b) := if_neg h

theorem level_take_le (cap rate cost now : Nat) (b : Bucket) : (take cap rate cost now b).2.level ≤ cap := by
  have hle : (refill cap rate now b).level ≤ cap := level_refill_le now b
  by_cases h : cost ≤ (refill cap rate now b).level
  · rw [take_of_le h]
    exact (Nat.sub_le _ _).trans hle
  · rw [take_of_lt h]
    exact hle

theorem time_take (cap rate cost now : Nat) (b : Bucket) : (take cap rate cost now b).2.time = max now b.time := by
  by_cases h : cost ≤ (refill cap rate now b).level
  · rw [take_of_le h, refill]
  · rw [take_of_lt h, refill]

/-- **What is taken comes from the level and the ticks.** -/
theorem take_conserves (cap rate cost now : Nat) (b : Bucket) :
    (take cap rate cost now b).2.level + (if (take cap rate cost now b).1 = true then cost else 0) ≤
      b.level + ((take cap rate cost now b).2.time - b.time) * rate := by
  rw [time_take]
  have hle : (refill cap rate now b).level ≤ b.level + (max now b.time - b.time) * rate := Nat.min_le_left _ _
  by_cases h : cost ≤ (refill cap rate now b).level
  · rw [take_of_le h, if_pos rfl, Nat.sub_add_cancel h]
    exact hle
  · rw [take_of_lt h, if_neg Bool.false_ne_true, Nat.add_zero]
    exact hle

theorem Agree.refl (since : Nat) (b : Bucket) : Agree cap rate since b b := fun _ _ => rfl

theorem Agree.mono {since later : Nat} {b b' : Bucket} (h : Agree cap rate since b b') (hle : since ≤ later) :
    Agree cap rate later b b' := fun now hnow => h now (hle.trans hnow)

/-- A request that one of the buckets rejects leaves them alike. -/
theorem Agree.rejected {since now cost : Nat} {b b' : Bucket} (h : Agree cap rate since b b') (hle : since ≤ now)
    (hreject : (Bucket.take cap rate cost now b).1 = false) :
    Agree cap rate now (Bucket.take cap rate cost now b).2 b' := by
  intro later hlater
  by_cases hcost : cost ≤ (refill cap rate now b).level
  · rw [take_of_le hcost] at hreject
    cases hreject
  · rw [take_of_lt hcost, refill_refill hlater]
    exact h later (hle.trans hlater)

end Bucket

end Base
