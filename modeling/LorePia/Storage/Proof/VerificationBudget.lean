import LorePia.Storage.VerificationBudget

/-!
# The verification budget as a token bucket

`admit` is `Bucket.take` on byte-nanoseconds (`admit_timed`): the cap is below `u128::MAX`, so no saturation shows.
A size above the burst is rejected before the clock is read and changes nothing. Charges over a stretch of calls are
bounded by what the bucket holds and gains (`charged_le`), and rejected calls can be left out (`admitLog_thinned`).
-/

namespace LorePia

open Base

/-! ## The bucket -/

/-- The cap of the credit. -/
def burstNanos : Nat := burstBytes * nanosPerSecond

theorem burstNanos_le : burstNanos ≤ u128Max := by decide

/-- The credit with its time. -/
def VerificationBudget.bucket (budget : VerificationBudget) : Bucket := ⟨budget.byteNanos, budget.updatedAt⟩

/-- The budget of a bucket. -/
def budgetOf (b : Bucket) : VerificationBudget := ⟨b.level, b.time⟩

@[simp] theorem byteNanos_budgetOf (b : Bucket) : (budgetOf b).byteNanos = b.level := rfl

@[simp] theorem updatedAt_budgetOf (b : Bucket) : (budgetOf b).updatedAt = b.time := rfl

@[simp] theorem bucket_budgetOf (b : Bucket) : (budgetOf b).bucket = b := rfl

/-- The saturating operations refill the bucket exactly. -/
theorem replenish_eq (budget : VerificationBudget) (now : Nat) :
    budget.replenish now = budgetOf (Bucket.refill burstNanos bytesPerSecond now budget.bucket) := by
  have hcap := burstNanos_le
  have hmin : min (satAddU128 budget.byteNanos
      (satMulU128 (max now budget.updatedAt - budget.updatedAt) bytesPerSecond)) burstNanos =
      min (budget.byteNanos + (max now budget.updatedAt - budget.updatedAt) * bytesPerSecond) burstNanos := by
    unfold satAddU128 satMulU128
    omega
  unfold VerificationBudget.replenish
  rw [← burstNanos]
  exact congrArg (fun level => VerificationBudget.mk level _) hmin

/-- A size above the burst. -/
def Oversize (sizeBytes : UInt64) : Prop := burstBytes < sizeBytes.toNat

instance (sizeBytes : UInt64) : Decidable (Oversize sizeBytes) := inferInstanceAs (Decidable (_ < _))

/-- The byte-nanoseconds of a charge. -/
def chargeNanos (sizeBytes : UInt64) : Nat := chargeBytes sizeBytes * nanosPerSecond

/-- The request of a call that reads the clock. -/
def request (sizeBytes : UInt64) (now : Nat) (budget : VerificationBudget) : Bool × Bucket :=
  Bucket.take burstNanos bytesPerSecond (chargeNanos sizeBytes) now budget.bucket

theorem time_request (sizeBytes : UInt64) (now : Nat) (budget : VerificationBudget) :
    (request sizeBytes now budget).2.time = max now budget.updatedAt :=
  Bucket.time_take burstNanos bytesPerSecond (chargeNanos sizeBytes) now budget.bucket

theorem level_request_le (sizeBytes : UInt64) (now : Nat) (budget : VerificationBudget) :
    (request sizeBytes now budget).2.level ≤ burstNanos :=
  Bucket.level_take_le burstNanos bytesPerSecond (chargeNanos sizeBytes) now budget.bucket

theorem request_conserves (sizeBytes : UInt64) (now : Nat) (budget : VerificationBudget) :
    (request sizeBytes now budget).2.level +
        (if (request sizeBytes now budget).1 = true then chargeNanos sizeBytes else 0) ≤
      budget.byteNanos + ((request sizeBytes now budget).2.time - budget.updatedAt) * bytesPerSecond :=
  Bucket.take_conserves burstNanos bytesPerSecond (chargeNanos sizeBytes) now budget.bucket

theorem admit_oversize {sizeBytes : UInt64} (h : Oversize sizeBytes) (now : Nat) (budget : VerificationBudget) :
    (admitSize sizeBytes now).run budget =
      (.error ⟨.invalidInput, "asset exceeds the bounded verification size"⟩, budget) := if_pos h

theorem admit_exhausted {sizeBytes : UInt64} (h : ¬Oversize sizeBytes) {now : Nat} {budget : VerificationBudget}
    (hcost : (budget.replenish now).byteNanos < chargeNanos sizeBytes) :
    (admitSize sizeBytes now).run budget =
      (.error ⟨.wouldBlock, "verified asset hash budget is temporarily exhausted"⟩, budget.replenish now) :=
  (if_neg h).trans (if_pos hcost)

theorem admit_within {sizeBytes : UInt64} (h : ¬Oversize sizeBytes) {now : Nat} {budget : VerificationBudget}
    (hcost : chargeNanos sizeBytes ≤ (budget.replenish now).byteNanos) :
    (admitSize sizeBytes now).run budget =
      (.ok (), ⟨(budget.replenish now).byteNanos - chargeNanos sizeBytes, (budget.replenish now).updatedAt⟩) :=
  (if_neg h).trans (if_neg (Nat.not_lt.2 hcost))

/-- **A call that reads the clock takes its charge from the bucket.** -/
theorem admit_timed {sizeBytes : UInt64} (h : ¬Oversize sizeBytes) (now : Nat) (budget : VerificationBudget) :
    ((admitSize sizeBytes now).run budget).1.isOk = (request sizeBytes now budget).1 ∧
      ((admitSize sizeBytes now).run budget).2 = budgetOf (request sizeBytes now budget).2 := by
  have hreplenish := replenish_eq budget now
  unfold request
  by_cases hcost : chargeNanos sizeBytes ≤ (Bucket.refill burstNanos bytesPerSecond now budget.bucket).level
  · have hwithin : chargeNanos sizeBytes ≤ (budget.replenish now).byteNanos := by
      rw [hreplenish]
      exact hcost
    rw [admit_within h hwithin, Bucket.take_of_le hcost, hreplenish]
    exact ⟨rfl, rfl⟩
  · have hexhausted : (budget.replenish now).byteNanos < chargeNanos sizeBytes := by
      rw [hreplenish]
      exact Nat.lt_of_not_le hcost
    rw [admit_exhausted h hexhausted, Bucket.take_of_lt hcost, hreplenish]
    exact ⟨rfl, rfl⟩

/-! ## Calls -/

/-- A call of `admit`. -/
structure AdmitCall where
  sizeBytes : UInt64
  now : Nat
deriving DecidableEq

/-- The budget after a call. -/
def afterCall (budget : VerificationBudget) (call : AdmitCall) : VerificationBudget :=
  ((admitSize call.sizeBytes call.now).run budget).2

/-- The budget after calls. -/
def afterCalls (budget : VerificationBudget) (calls : List AdmitCall) : VerificationBudget :=
  calls.foldl afterCall budget

/-- The verdict of a call. -/
abbrev Verdict := Except AdmitError Unit

/-- The calls with their verdicts. -/
def admitLog : VerificationBudget → List AdmitCall → List (AdmitCall × Verdict)
  | _, [] => []
  | budget, call :: calls =>
    (call, ((admitSize call.sizeBytes call.now).run budget).1) :: admitLog (afterCall budget call) calls

/-- The bytes that the admitted calls are charged. -/
def chargedBytes (log : List (AdmitCall × Verdict)) : Nat :=
  (log.map fun entry => if entry.2.isOk = true then chargeBytes entry.1.sizeBytes else 0).sum

/-- The largest clock value of the calls. -/
def latestSeen (start : Nat) (calls : List AdmitCall) : Nat := calls.foldl (fun time call => max call.now time) start

/-- The largest clock value of the calls that read the clock. -/
def latestTimed (start : Nat) (calls : List AdmitCall) : Nat :=
  calls.foldl (fun time call => if Oversize call.sizeBytes then time else max call.now time) start

/-- **The clock that an oversized call brings does not count**: after it, the charges may exceed the burst although
no call has a later clock. -/
theorem charged_exceeds_seen : ¬∀ (start : Nat) (before stretch : List AdmitCall),
    chargedBytes (admitLog (afterCalls (.new start) before) stretch) * nanosPerSecond ≤ burstBytes * nanosPerSecond +
      (latestSeen start (before ++ stretch) - latestSeen start before) * bytesPerSecond := by
  intro h
  have hbound := h 0 [⟨100000000, 100 * nanosPerSecond⟩]
    [⟨100000000, 100 * nanosPerSecond⟩, ⟨67108864, 0⟩, ⟨67108864, 8 * nanosPerSecond⟩]
  exact absurd hbound (by decide +kernel)

/-! ## Charges -/

theorem afterCall_oversize {call : AdmitCall} (h : Oversize call.sizeBytes) (budget : VerificationBudget) :
    afterCall budget call = budget := by
  rw [afterCall, admit_oversize h]

theorem afterCall_timed {call : AdmitCall} (h : ¬Oversize call.sizeBytes) (budget : VerificationBudget) :
    afterCall budget call = budgetOf (request call.sizeBytes call.now budget).2 :=
  (admit_timed h call.now budget).2

theorem updatedAt_afterCall (budget : VerificationBudget) (call : AdmitCall) :
    (afterCall budget call).updatedAt =
      if Oversize call.sizeBytes then budget.updatedAt else max call.now budget.updatedAt := by
  by_cases h : Oversize call.sizeBytes
  · rw [afterCall_oversize h, if_pos h]
  · rw [afterCall_timed h, if_neg h, updatedAt_budgetOf, time_request]

theorem updatedAt_afterCalls (calls : List AdmitCall) (budget : VerificationBudget) :
    (afterCalls budget calls).updatedAt = latestTimed budget.updatedAt calls := by
  induction calls generalizing budget with
  | nil => rfl
  | cons call calls ih =>
    have hfirst := updatedAt_afterCall budget call
    rw [afterCalls, List.foldl_cons, ← afterCalls, ih, hfirst]
    rfl

/-- **The credit never exceeds the burst.** -/
theorem byteNanos_afterCalls_le (calls : List AdmitCall) {budget : VerificationBudget}
    (h : budget.byteNanos ≤ burstNanos) : (afterCalls budget calls).byteNanos ≤ burstNanos := by
  induction calls generalizing budget with
  | nil => exact h
  | cons call calls ih =>
    apply ih
    by_cases hover : Oversize call.sizeBytes
    · rw [afterCall_oversize hover]
      exact h
    · rw [afterCall_timed hover, byteNanos_budgetOf]
      exact level_request_le call.sizeBytes call.now budget

/-- What a call is charged comes from the credit and the time. -/
theorem charged_call (budget : VerificationBudget) (call : AdmitCall) :
    (afterCall budget call).byteNanos +
        (if ((admitSize call.sizeBytes call.now).run budget).1.isOk = true then chargeBytes call.sizeBytes else 0) *
          nanosPerSecond ≤
      budget.byteNanos + ((afterCall budget call).updatedAt - budget.updatedAt) * bytesPerSecond ∧
      budget.updatedAt ≤ (afterCall budget call).updatedAt := by
  by_cases hover : Oversize call.sizeBytes
  · have hrejected : ((admitSize call.sizeBytes call.now).run budget).1.isOk = false := by
      rw [admit_oversize hover]
      rfl
    rw [afterCall_oversize hover, hrejected, if_neg Bool.false_ne_true]
    simp
  · obtain ⟨hok, -⟩ := admit_timed hover call.now budget
    have hconserves := request_conserves call.sizeBytes call.now budget
    rw [afterCall_timed hover, hok, ite_mul, Nat.zero_mul, ← chargeNanos, byteNanos_budgetOf, updatedAt_budgetOf]
    refine ⟨hconserves, ?_⟩
    rw [time_request]
    exact Nat.le_max_right _ _

/-- **The charges of a stretch of calls.** -/
theorem charged_le : ∀ (calls : List AdmitCall) (budget : VerificationBudget),
    (afterCalls budget calls).byteNanos + chargedBytes (admitLog budget calls) * nanosPerSecond ≤
      budget.byteNanos + ((afterCalls budget calls).updatedAt - budget.updatedAt) * bytesPerSecond ∧
      budget.updatedAt ≤ (afterCalls budget calls).updatedAt
  | [], budget => by simp [afterCalls, admitLog, chargedBytes]
  | call :: calls, budget => by
    obtain ⟨hfirst, hle⟩ := charged_call budget call
    obtain ⟨hrest, hle'⟩ := charged_le calls (afterCall budget call)
    have hafter : afterCalls budget (call :: calls) = afterCalls (afterCall budget call) calls := rfl
    have hcharged : chargedBytes (admitLog budget (call :: calls)) =
        (if ((admitSize call.sizeBytes call.now).run budget).1.isOk = true then chargeBytes call.sizeBytes else 0) +
          chargedBytes (admitLog (afterCall budget call) calls) := List.sum_cons
    have hticks : ((afterCalls (afterCall budget call) calls).updatedAt - budget.updatedAt) * bytesPerSecond =
        ((afterCalls (afterCall budget call) calls).updatedAt - (afterCall budget call).updatedAt) * bytesPerSecond +
          ((afterCall budget call).updatedAt - budget.updatedAt) * bytesPerSecond := by
      rw [← Nat.add_mul]
      congr 1
      omega
    rw [hafter, hcharged, Nat.add_mul, hticks]
    exact ⟨by omega, hle.trans hle'⟩

/-! ## Rejected calls -/

/-- A log without some of its rejected calls. -/
inductive Thinned : List (AdmitCall × Verdict) → List (AdmitCall × Verdict) → Prop
  | nil : Thinned [] []
  | keep {entry : AdmitCall × Verdict} {log kept : List (AdmitCall × Verdict)} :
    Thinned log kept → Thinned (entry :: log) (entry :: kept)
  | drop {entry : AdmitCall × Verdict} {log kept : List (AdmitCall × Verdict)} :
    entry.2.isOk = false → Thinned log kept → Thinned (entry :: log) kept

/-- Two budgets that are alike from a time on. -/
def AgreeSince (since : Nat) (budget budget' : VerificationBudget) : Prop :=
  Bucket.Agree burstNanos bytesPerSecond since budget.bucket budget'.bucket

/-- The same call ends alike on both budgets. -/
theorem AgreeSince.same {since : Nat} {budget budget' : VerificationBudget} (h : AgreeSince since budget budget')
    {call : AdmitCall} (hle : since ≤ call.now) :
    ((admitSize call.sizeBytes call.now).run budget).1 = ((admitSize call.sizeBytes call.now).run budget').1 ∧
      AgreeSince call.now (afterCall budget call) (afterCall budget' call) := by
  by_cases hover : Oversize call.sizeBytes
  · rw [admit_oversize hover, admit_oversize hover, afterCall_oversize hover, afterCall_oversize hover]
    exact ⟨rfl, h.mono hle⟩
  · have hreplenish : budget.replenish call.now = budget'.replenish call.now := by
      rw [replenish_eq, replenish_eq, h call.now hle]
    have hrun : (admitSize call.sizeBytes call.now).run budget = (admitSize call.sizeBytes call.now).run budget' := by
      rcases Nat.lt_or_ge (budget.replenish call.now).byteNanos (chargeNanos call.sizeBytes) with hcost | hcost
      · have hcost' := hreplenish ▸ hcost
        rw [admit_exhausted hover hcost, admit_exhausted hover hcost', hreplenish]
      · have hcost' := hreplenish ▸ hcost
        rw [admit_within hover hcost, admit_within hover hcost', hreplenish]
    rw [afterCall, afterCall, hrun]
    exact ⟨rfl, Bucket.Agree.refl _ _⟩

/-- A call that one of the budgets rejects leaves them alike. -/
theorem AgreeSince.rejected {since : Nat} {budget budget' : VerificationBudget} (h : AgreeSince since budget budget')
    {call : AdmitCall} (hle : since ≤ call.now)
    (hreject : ((admitSize call.sizeBytes call.now).run budget).1.isOk = false) :
    AgreeSince call.now (afterCall budget call) budget' := by
  by_cases hover : Oversize call.sizeBytes
  · rw [afterCall_oversize hover]
    exact h.mono hle
  · rw [(admit_timed hover call.now budget).1, request] at hreject
    rw [afterCall_timed hover, AgreeSince, bucket_budgetOf, request]
    exact Bucket.Agree.rejected h hle hreject

/-- **Rejected calls can be left out** where the clock does not go back. -/
theorem admitLog_thinned : ∀ {calls : List AdmitCall} {since : Nat} {budget budget' : VerificationBudget}
    {kept : List (AdmitCall × Verdict)}, AgreeSince since budget budget' → (∀ call ∈ calls, since ≤ call.now) →
    calls.Pairwise (fun a b => a.now ≤ b.now) → Thinned (admitLog budget calls) kept →
    admitLog budget' (kept.map (·.1)) = kept
  | [], since, budget, budget', kept, _, _, _, hthinned => by
    cases hthinned with
    | nil => rfl
  | call :: calls, since, budget, budget', kept, hagree, hsince, hordered, hthinned => by
    have hle := hsince call List.mem_cons_self
    have hrest : ∀ later ∈ calls, call.now ≤ later.now := fun later hlater => List.rel_of_pairwise_cons hordered hlater
    cases hthinned with
    | keep hthinned =>
      obtain ⟨hverdict, hnext⟩ := hagree.same hle
      rw [List.map_cons, admitLog, hverdict, admitLog_thinned hnext hrest hordered.of_cons hthinned]
    | drop hreject hthinned =>
      exact admitLog_thinned (hagree.rejected hle hreject) hrest hordered.of_cons hthinned

/-- **The budget is a token bucket.** The credit stays within the burst and bears every charge; the charges of a
stretch of calls are at most the burst and what the clock of the calls that read it gained; with a clock that does
not go back, the calls that stay end as before when rejected ones are left out. -/
theorem admit_tokenBucket (start : Nat) :
    (∀ calls, (afterCalls (.new start) calls).byteNanos ≤ burstBytes * nanosPerSecond) ∧
    (∀ calls (call : AdmitCall),
      ((admitSize call.sizeBytes call.now).run (afterCalls (.new start) calls)).1.isOk = true →
      (afterCall (afterCalls (.new start) calls) call).byteNanos + chargeBytes call.sizeBytes * nanosPerSecond =
        ((afterCalls (.new start) calls).replenish call.now).byteNanos) ∧
    (∀ before stretch : List AdmitCall,
      chargedBytes (admitLog (afterCalls (.new start) before) stretch) * nanosPerSecond ≤
        burstBytes * nanosPerSecond +
          (latestTimed start (before ++ stretch) - latestTimed start before) * bytesPerSecond) ∧
    ∀ calls : List AdmitCall, calls.Pairwise (fun a b => a.now ≤ b.now) →
      ∀ kept, Thinned (admitLog (.new start) calls) kept → admitLog (.new start) (kept.map (·.1)) = kept := by
  have hnew : (VerificationBudget.new start).byteNanos ≤ burstNanos := Nat.le_refl _
  refine ⟨fun calls => byteNanos_afterCalls_le calls hnew, ?_, ?_, ?_⟩
  · intro calls call hok
    have hover : ¬Oversize call.sizeBytes := by
      intro hover
      rw [admit_oversize hover] at hok
      cases hok
    rw [(admit_timed hover _ _).1, request] at hok
    rw [afterCall_timed hover, request, replenish_eq, byteNanos_budgetOf, byteNanos_budgetOf, ← chargeNanos]
    by_cases hcost : chargeNanos call.sizeBytes ≤
        (Bucket.refill burstNanos bytesPerSecond call.now (afterCalls (.new start) calls).bucket).level
    · rw [Bucket.take_of_le hcost]
      exact Nat.sub_add_cancel hcost
    · rw [Bucket.take_of_lt hcost] at hok
      cases hok
  · intro before stretch
    obtain ⟨hcharged, -⟩ := charged_le stretch (afterCalls (.new start) before)
    have hcredit := byteNanos_afterCalls_le before hnew
    have hbefore : (afterCalls (.new start) before).updatedAt = latestTimed start before := updatedAt_afterCalls _ _
    have hafter : (afterCalls (afterCalls (.new start) before) stretch).updatedAt =
        latestTimed start (before ++ stretch) := by
      rw [updatedAt_afterCalls, hbefore, latestTimed, latestTimed, latestTimed, List.foldl_append]
    rw [hbefore, hafter] at hcharged
    rw [burstNanos] at hcredit
    omega
  · intro calls hordered kept hthinned
    exact admitLog_thinned (Bucket.Agree.refl 0 _) (fun _ _ => Nat.zero_le _) hordered hthinned

end LorePia
