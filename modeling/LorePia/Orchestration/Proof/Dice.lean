import LorePia.Base.Loop
import LorePia.Base.Mixing
import LorePia.Orchestration.InteractionEngine

/-!
# Dice

`SplitMix64` gives every word before one comes again, so the loop of `next_bounded` rejects at most as many draws
as there are words from the rejection limit on (`nextBounded_draws`). The total of an accepted expression does not
overflow: it is between the modifier and the maximum that `validate_dice` checks (`rollLoop_spec`).
-/

namespace LorePia

open Base

/-! ## Draws -/

/-- The state after a number of draws. -/
def drawState (state : UInt64) (n : Nat) : UInt64 := (fun s => s + splitMixStep)^[n] state

/-- The word that a draw gives, counted from 0. -/
def draw (state : UInt64) (n : Nat) : UInt64 := splitMix (drawState state (n + 1))

theorem splitMix_injective : Function.Injective splitMix := by
  have hfirst : (0xbf58476d1ce4e5b9 : UInt64) * 0x96de1b173f119089 = 1 := by decide
  have hsecond : (0x94d049bb133111eb : UInt64) * 0x319642b2d24d8ec3 = 1 := by decide
  have hshift30 : 0 < (30 : UInt64).toNat % 64 := by decide
  have hshift27 : 0 < (27 : UInt64).toNat % 64 := by decide
  have hshift31 : 0 < (31 : UInt64).toNat % 64 := by decide
  exact (xorShift_injective hshift31).comp ((mul_injective hsecond).comp
    ((xorShift_injective hshift27).comp ((mul_injective hfirst).comp (xorShift_injective hshift30))))

theorem draw_zero (state : UInt64) : draw state 0 = splitMix (state + splitMixStep) := by
  rw [draw, drawState, Function.iterate_succ_apply, Function.iterate_zero_apply]

theorem drawState_succ (state : UInt64) (n : Nat) :
    drawState state (n + 1) = drawState (state + splitMixStep) n := by
  rw [drawState, drawState, Function.iterate_succ_apply]

theorem draw_succ (state : UInt64) (n : Nat) : draw state (n + 1) = draw (state + splitMixStep) n := by
  rw [draw, draw, drawState_succ]

/-- **No word is drawn twice within a period.** -/
theorem draw_inj (state : UInt64) (i j : Nat) (hi : i < 2 ^ 64) (hj : j < 2 ^ 64)
    (h : draw state i = draw state j) : i = j := by
  have hstep : splitMixStep * 0xf1de83e19937733d = 1 := by decide
  have hstate : drawState state (i + 1) = drawState state (j + 1) := splitMix_injective h
  rw [drawState, drawState, Function.iterate_succ_apply, Function.iterate_succ_apply] at hstate
  exact iterate_add_inj hstep hi hj hstate

/-! ## Rejections -/

theorem toNat_rejectionLimit (upper : UInt64) :
    (rejectionLimit upper).toNat = 2 ^ 64 - 1 - (2 ^ 64 - 1) % upper.toNat := by
  have hmax : (UInt64.ofNat usizeMax).toNat = 2 ^ 64 - 1 := by decide
  have hmod : (UInt64.ofNat usizeMax % upper).toNat = (2 ^ 64 - 1) % upper.toNat := by
    rw [UInt64.toNat_mod, hmax]
  have hle : UInt64.ofNat usizeMax % upper ≤ UInt64.ofNat usizeMax := by
    rw [UInt64.le_iff_toNat_le, hmod, hmax]
    exact Nat.mod_le _ _
  rw [rejectionLimit, UInt64.toNat_sub_of_le _ _ hle, hmod, hmax]

/-- At most `upper` words are rejected. -/
theorem rejected_le {upper : UInt32} (h : 1 ≤ upper.toNat) :
    0 < (rejectionLimit upper.toUInt64).toNat ∧
      2 ^ 64 - (rejectionLimit upper.toUInt64).toNat ≤ upper.toNat := by
  have hlt : upper.toNat < 2 ^ 32 := upper.toNat_lt
  have hmod : (2 ^ 64 - 1) % upper.toNat < upper.toNat := Nat.mod_lt _ h
  rw [toNat_rejectionLimit, UInt32.toNat_toUInt64]
  omega

/-- A turn of the loop of `SplitMix64::next_bounded`. -/
def boundedTurn (upperExclusive : UInt32) (state : UInt64) : UInt64 ⊕ (UInt32 × UInt64) :=
  let state := state + splitMixStep
  let value := splitMix state
  if value < rejectionLimit upperExclusive.toUInt64 then
    .inr (UInt32.ofNat (value.toNat % upperExclusive.toNat), state)
  else .inl state

theorem boundedTurn_accept {upper : UInt32} {state : UInt64}
    (h : draw state 0 < rejectionLimit upper.toUInt64) :
    boundedTurn upper state =
      .inr (UInt32.ofNat ((draw state 0).toNat % upper.toNat), state + splitMixStep) := by
  rw [draw_zero] at h ⊢
  unfold boundedTurn
  rw [if_pos h]

theorem boundedTurn_reject {upper : UInt32} {state : UInt64}
    (h : ¬draw state 0 < rejectionLimit upper.toUInt64) :
    boundedTurn upper state = .inl (state + splitMixStep) := by
  rw [draw_zero] at h
  unfold boundedTurn
  rw [if_neg h]

theorem nextBoundedLoop_accept {upper : UInt32} {state : UInt64} (fuel : Nat)
    (h : draw state 0 < rejectionLimit upper.toUInt64) :
    nextBoundedLoop upper (fuel + 1) state =
      (UInt32.ofNat ((draw state 0).toNat % upper.toNat), state + splitMixStep) := by
  rw [draw_zero] at h ⊢
  rw [nextBoundedLoop, if_pos h]

theorem nextBoundedLoop_reject {upper : UInt32} {state : UInt64} (fuel : Nat)
    (h : ¬draw state 0 < rejectionLimit upper.toUInt64) :
    nextBoundedLoop upper (fuel + 1) state = nextBoundedLoop upper fuel (state + splitMixStep) := by
  rw [draw_zero] at h
  rw [nextBoundedLoop, if_neg h]

/-- The loop ends at its first accepted draw. -/
theorem nextBoundedLoop_halts {upper : UInt32} {k fuel : Nat} {state : UInt64} (hfuel : k < fuel)
    (hreject : ∀ i < k, ¬draw state i < rejectionLimit upper.toUInt64)
    (haccept : draw state k < rejectionLimit upper.toUInt64) :
    Halts (boundedTurn upper) state (nextBoundedLoop upper fuel state) ∧
      nextBoundedLoop upper fuel state =
        (UInt32.ofNat ((draw state k).toNat % upper.toNat), drawState state (k + 1)) := by
  obtain ⟨fuel, rfl⟩ := Nat.exists_eq_add_of_lt hfuel
  induction k generalizing state with
  | zero =>
    rw [nextBoundedLoop_accept _ haccept, drawState_succ]
    exact ⟨.stop (boundedTurn_accept haccept), rfl⟩
  | succ k ih =>
    have hfirst := hreject 0 (Nat.succ_pos k)
    have hrest : ∀ i < k, ¬draw (state + splitMixStep) i < rejectionLimit upper.toUInt64 := by
      intro i hi
      rw [← draw_succ]
      exact hreject (i + 1) (Nat.succ_lt_succ hi)
    rw [draw_succ] at haccept
    obtain ⟨hhalts, hvalue⟩ := ih hrest haccept (by omega)
    have hfuel : k + 1 + fuel + 1 = k + fuel + 1 + 1 := by omega
    rw [hfuel, nextBoundedLoop_reject _ hfirst, drawState_succ, draw_succ]
    exact ⟨.again (boundedTurn_reject hfirst) hhalts, hvalue⟩

/-- **`next_bounded` rejects at most `upper` draws** and gives the next one below the bound. -/
theorem nextBounded_draws {upper : UInt32} (h : 1 ≤ upper.toNat) (state : UInt64) :
    ∃ k ≤ upper.toNat, (∀ i < k, ¬draw state i < rejectionLimit upper.toUInt64) ∧
      draw state k < rejectionLimit upper.toUInt64 ∧ Halts (boundedTurn upper) state (nextBounded upper state) ∧
      nextBounded upper state = (UInt32.ofNat ((draw state k).toNat % upper.toNat), drawState state (k + 1)) := by
  classical
  obtain ⟨hpos, hle⟩ := rejected_le h
  have hexists : ∃ k, draw state k < rejectionLimit upper.toUInt64 := by
    obtain ⟨k, -, hk⟩ := exists_draw_lt (draw_inj state) hpos
    exact ⟨k, hk⟩
  have hbound : Nat.find hexists ≤ upper.toNat := by
    obtain ⟨k, hk, haccept⟩ := exists_draw_lt (draw_inj state) hpos
    exact (Nat.find_min' hexists haccept).trans (hk.trans hle)
  have hlt : upper.toNat < 2 ^ 32 := upper.toNat_lt
  have hfuel : Nat.find hexists < 2 ^ 64 := by omega
  obtain ⟨hhalts, hvalue⟩ := nextBoundedLoop_halts hfuel (fun i hi => Nat.find_min hexists hi) (Nat.find_spec hexists)
  exact ⟨Nat.find hexists, hbound, fun i hi => Nat.find_min hexists hi, Nat.find_spec hexists, hhalts, hvalue⟩

theorem nextBounded_lt {upper : UInt32} (h : 1 ≤ upper.toNat) (state : UInt64) :
    (nextBounded upper state).1.toNat < upper.toNat := by
  obtain ⟨k, -, -, -, -, hvalue⟩ := nextBounded_draws h state
  have hmod : (draw state k).toNat % upper.toNat < upper.toNat := Nat.mod_lt _ h
  rw [hvalue, UInt32.toNat_ofNat_of_lt' (hmod.trans upper.toNat_lt)]
  exact hmod

/-! ## Rolls -/

/-- The sum of the rolls. -/
def rollSum (rolls : List UInt32) : Int := ((rolls.map UInt32.toNat).sum : Nat)

theorem rollSum_cons (roll : UInt32) (rolls : List UInt32) :
    rollSum (roll :: rolls) = roll.toNat + rollSum rolls := by
  rw [rollSum, rollSum, List.map_cons, List.sum_cons, Nat.cast_add]

theorem checkedAddI64_of_range {a b : Int} (hlow : i64Min ≤ a + b) (hhigh : a + b ≤ i64Max) :
    checkedAddI64 a b = some (a + b) := if_pos ⟨hlow, hhigh⟩

theorem range_of_checkedAddI64 {a b c : Int} (h : checkedAddI64 a b = some c) :
    c = a + b ∧ i64Min ≤ a + b ∧ a + b ≤ i64Max := by
  unfold checkedAddI64 i64TryFrom at h
  split at h
  · rename_i hrange
    exact ⟨(Option.some.inj h).symm, hrange⟩
  · cases h

theorem range_of_checkedMulI64 {a b c : Int} (h : checkedMulI64 a b = some c) : c = a * b := by
  unfold checkedMulI64 at h
  exact i64TryFrom_eq_some h

/-- A roll of a die. -/
theorem roll_bounds {sides : UInt32} (hsides : 2 ≤ sides.toNat) (state : UInt64) :
    ((nextBounded sides state).1 + 1).toNat = (nextBounded sides state).1.toNat + 1 ∧
      (nextBounded sides state).1.toNat + 1 ≤ sides.toNat := by
  have hlt := nextBounded_lt (by omega : 1 ≤ sides.toNat) state
  have hbound : sides.toNat < 2 ^ 32 := sides.toNat_lt
  refine ⟨?_, hlt⟩
  rw [UInt32.toNat_add, UInt32.toNat_one]
  exact Nat.mod_eq_of_lt (by omega)

/-- **The loop of `roll_dice`** does not overflow while its highest total is in range. -/
theorem rollLoop_spec {sides : UInt32} (hsides : 2 ≤ sides.toNat) : ∀ (count : Nat) (state : UInt64)
    (rolls : List UInt32) (total : Int), i64Min ≤ total → total + count * sides.toNat ≤ i64Max →
    ∃ new, rollLoop sides count state rolls total = .ok (rolls ++ new, total + rollSum new) ∧
      new.length = count ∧ ∀ roll ∈ new, 1 ≤ roll.toNat ∧ roll.toNat ≤ sides.toNat
  | 0, state, rolls, total, _, _ => by
    refine ⟨[], ?_, rfl, ?_⟩
    · rw [rollLoop, List.append_nil]
      simp [rollSum]
    · intro roll hroll
      cases hroll
  | count + 1, state, rolls, total, hlow, hhigh => by
    obtain ⟨hroll, hle⟩ := roll_bounds hsides state
    have hmul : ((count + 1 : Nat) : Int) * sides.toNat = count * sides.toNat + sides.toNat := by
      rw [Nat.cast_succ, Int.add_mul, Int.one_mul]
    have hrest : (0 : Int) ≤ count * sides.toNat := Int.mul_nonneg (Int.natCast_nonneg _) (Int.natCast_nonneg _)
    have hadd : checkedAddI64 total ((nextBounded sides state).1 + 1).toNat =
        some (total + ((nextBounded sides state).1 + 1).toNat) := by
      refine checkedAddI64_of_range ?_ ?_
      · omega
      · omega
    obtain ⟨new, hrun, hlength, hnew⟩ := rollLoop_spec hsides count (nextBounded sides state).2
      (rolls ++ [(nextBounded sides state).1 + 1]) (total + ((nextBounded sides state).1 + 1).toNat)
      (by omega) (by omega)
    refine ⟨((nextBounded sides state).1 + 1) :: new, ?_, ?_, ?_⟩
    · rw [rollLoop, hadd, okOr, ok_bind, hrun, List.append_assoc, List.singleton_append]
      rw [rollSum_cons, Int.add_assoc]
    · rw [List.length_cons, hlength]
    · intro roll hmem
      rcases List.mem_cons.1 hmem with rfl | hmem
      · omega
      · exact hnew roll hmem

/-- What `validate_dice` accepts has its highest total in range. -/
theorem validateDice_eq_ok {expression : DiceExpression} {limits : InteractionLimits}
    (h : validateDice expression limits = .ok ()) :
    2 ≤ expression.sides.toNat ∧
      expression.modifier + expression.count.toNat * expression.sides.toNat ≤ i64Max := by
  obtain ⟨hlimits, htotals⟩ := seq_eq_ok.1 h
  rw [rejectIf_eq_ok] at hlimits htotals
  refine ⟨?_, ?_⟩
  · have hsides : ¬expression.sides < 2 := fun hlt => hlimits (.inr (.inr (.inl hlt)))
    exact UInt32.le_iff_toNat_le.1 (UInt32.not_lt.1 hsides)
  · have hmaximum : ((checkedMulI64 expression.count.toNat expression.sides.toNat).bind fun value =>
        checkedAddI64 value expression.modifier).isSome = true := by
      rw [Option.isSome_iff_ne_none]
      intro hnone
      exact htotals (.inl (by rw [hnone]; rfl))
    obtain ⟨maximum, hmaximum⟩ := Option.isSome_iff_exists.1 hmaximum
    obtain ⟨value, hvalue, hmaximum⟩ := Option.bind_eq_some_iff.1 hmaximum
    obtain ⟨-, -, hhigh⟩ := range_of_checkedAddI64 hmaximum
    rw [range_of_checkedMulI64 hvalue] at hhigh
    omega

/-- **Dice**: draws do not repeat, so `next_bounded` ends below its bound after at most `upper` rejections, and an
accepted expression rolls all its dice within their sides without an overflow. -/
theorem rollDice_total (expression : DiceExpression) (limits : InteractionLimits)
    (hmodifier : i64Min ≤ expression.modifier ∧ expression.modifier ≤ i64Max)
    (hvalid : validateDice expression limits = .ok ()) :
    (∀ (state : UInt64) (upper : UInt32), 1 ≤ upper.toNat →
      (∀ i j, i < 2 ^ 64 → j < 2 ^ 64 → draw state i = draw state j → i = j) ∧
      (∃ rejections ≤ upper.toNat, (∀ i < rejections, ¬draw state i < rejectionLimit upper.toUInt64) ∧
        draw state rejections < rejectionLimit upper.toUInt64 ∧
        Halts (boundedTurn upper) state (nextBounded upper state) ∧
        nextBounded upper state =
          (UInt32.ofNat ((draw state rejections).toNat % upper.toNat), drawState state (rejections + 1))) ∧
      (nextBounded upper state).1.toNat < upper.toNat) ∧
    ∀ seed : UInt64, ∃ rolls,
      rollDice expression seed = .ok (rolls, expression.modifier + rollSum rolls) ∧
        rolls.length = expression.count.toNat ∧
        ∀ roll ∈ rolls, 1 ≤ roll.toNat ∧ roll.toNat ≤ expression.sides.toNat := by
  obtain ⟨hsides, hhigh⟩ := validateDice_eq_ok hvalid
  refine ⟨fun state upper hupper => ⟨draw_inj state, nextBounded_draws hupper state, nextBounded_lt hupper state⟩, ?_⟩
  intro seed
  exact rollLoop_spec hsides expression.count.toNat seed [] expression.modifier hmodifier.1 hhigh

theorem rollDice_total_pair : ∃ rolls,
    rollDice ⟨2, 6, 3⟩ 7 = .ok (rolls, 3 + rollSum rolls) ∧ rolls.length = 2 ∧
      ∀ roll ∈ rolls, 1 ≤ roll.toNat ∧ roll.toNat ≤ 6 :=
  (rollDice_total ⟨2, 6, 3⟩ defaultInteractionLimits (by decide) (by decide)).2 7

end LorePia
