import LorePia.Orchestration.Proof.ModuleResolve

/-!
# The verification memo

`VerifiedValue.check` is the verification of a value without the memo: the same checks, on the value and
on every value inside it (`VerifiedValue.parts`). As long as equality tells the remembered values and the
parts of the verified value apart (`Apart`), the memo only holds values that pass the check,
and `verify` answers as the check does (`verify_eq_check`). Equality of decimals identifies the two zeros,
which serialize differently: a value with the other zero and the same stored hash is accepted by the memo.
-/

namespace LorePia

open Base

variable {lib : ModuleExternals}

/-! ## Verification without the memo -/

/-- `ApprovedModuleActivationPlan::verify_uncached` with nothing remembered. -/
def ApprovedModuleActivationPlan.check (lib : ModuleExternals) (approval : ApprovedModuleActivationPlan) :
    Merging Unit := do
  approval.plan.verifyUncached lib
  approval.checkApproval lib

/-- `module_merge_resolution_set_from_plan` with nothing remembered. -/
def checkedResolutionSet (lib : ModuleExternals) (review : ModuleMergeReview) (plan : ResolvedModulePlan) :
    Merging ModuleMergeResolutionSet := do
  review.verifyUncached lib
  plan.verifyUncached lib
  resolutionSetOfPlan review plan

/-- `resolve_module_merge` with nothing remembered. -/
def checkedResolve (lib : ModuleExternals) (review : ModuleMergeReview)
    (resolutionSet : ModuleMergeResolutionSet) : Merging ResolvedModulePlan := do
  review.verifyUncached lib
  resolveReviewed lib review resolutionSet

/-- `AppliedModuleRuntimePlan::verify_uncached` with nothing remembered. -/
def AppliedModuleRuntimePlan.check (lib : ModuleExternals) (applied : AppliedModuleRuntimePlan) :
    Merging Unit := do
  applied.sourceApproval.check lib
  applied.review.verifyUncached lib
  applied.plan.verifyUncached lib
  applied.checkReview
  let resolutions ← checkedResolutionSet lib applied.review applied.plan
  let reconstructed ← checkedResolve lib applied.review resolutions
  applied.checkReconstructed lib reconstructed

/-- `verify_uncached` with nothing remembered. -/
def VerifiedValue.check (lib : ModuleExternals) : VerifiedValue → Merging Unit
  | .review value => value.verifyUncached lib
  | .plan value => value.verifyUncached lib
  | .approval value => value.check lib
  | .applied value => value.check lib

/-- The values that the verification of a value verifies, the value itself included. -/
def VerifiedValue.parts : VerifiedValue → List VerifiedValue
  | .review value => [.review value]
  | .plan value => [.plan value]
  | .approval value => [.plan value.plan, .approval value]
  | .applied value =>
    [.plan value.sourceApproval.plan, .approval value.sourceApproval, .review value.review,
      .plan value.plan, .applied value]

/-! ## Memos that tell values apart -/

/-- The remembered values pass the check, and none compares equal to another of `parts`. -/
def MemoFor (lib : ModuleExternals) (parts : List VerifiedValue) (memo : Memo) : Prop :=
  ∀ entry ∈ memo.entries, entry.value.check lib = .ok () ∧
    ∀ part ∈ parts, entry.value.eq part = true → entry.value = part

/-- No value that passes the check compares equal to another one. -/
def Apart (lib : ModuleExternals) (known parts : List VerifiedValue) : Prop :=
  ∀ value ∈ known, value.check lib = .ok () → ∀ part ∈ parts, value.eq part = true → value = part

section
variable {parts : List VerifiedValue} {memo : Memo}

theorem mem_evict {size : Nat} {entry : MemoEntry} : ∀ {entries : List MemoEntry} {bytes : Nat},
    entry ∈ evict size entries bytes → entry ∈ entries
  | [], _, h => h
  | first :: rest, bytes, h => by
    unfold evict at h
    split at h
    · exact List.mem_cons_of_mem _ (mem_evict h)
    · exact h

/-- The remembered values after a value was stored are it and earlier ones. -/
theorem mem_store {value : VerifiedValue} {entry : MemoEntry}
    (h : entry ∈ (memo.store lib value).entries) : entry ∈ memo.entries ∨ entry.value = value := by
  unfold Memo.store at h
  split at h
  · split at h
    · obtain h | h := List.mem_append.1 h
      · exact .inl (mem_evict h)
      · rw [List.mem_singleton.1 h]
        exact .inr rfl
    · exact .inl h
  · exact .inl h

theorem mem_touch {index : Nat} {hindex : index < memo.entries.length} {entry : MemoEntry}
    (h : entry ∈ (memo.touch index hindex).entries) : entry ∈ memo.entries := by
  obtain h | h := List.mem_append.1 h
  · exact List.mem_of_mem_eraseIdx h
  · rw [List.mem_singleton.1 h]
    exact List.getElem_mem hindex

/-- A memoized check of a part answers as the check itself. -/
theorem refines_memoize (hparts : Apart lib parts parts) {value : VerifiedValue} (hvalue : value ∈ parts)
    {compute : Verifying Unit}
    (hcompute : compute.Refines (MemoFor lib parts) (value.check lib)) :
    (memoize lib value compute).Refines (MemoFor lib parts) (value.check lib) := by
  intro memo hmemo
  unfold Stateful.run memoize
  split
  · -- A hit: the remembered value is the value, which passed the check.
    rename_i hindex
    obtain ⟨hcheck, happart⟩ := hmemo _ (List.getElem_mem hindex)
    have hhit := List.findIdx_getElem (w := hindex)
    rw [happart value hvalue hhit] at hcheck
    exact ⟨hcheck.symm, fun entry hentry => hmemo entry (mem_touch hentry)⟩
  · obtain ⟨hresult, hmemo'⟩ := hcompute memo hmemo
    cases hrun : compute.run memo with
    | mk result memo' =>
      rw [hrun] at hresult hmemo'
      cases result with
      | error error => exact ⟨hresult, hmemo'⟩
      | ok done =>
        refine ⟨hresult, fun entry hentry => ?_⟩
        obtain hentry | hentry := mem_store hentry
        · exact hmemo' entry hentry
        · rw [hentry]
          exact ⟨hresult.symm, hparts value hvalue hresult.symm⟩

/-! ## The memo refines the check -/

theorem refines_review (hparts : Apart lib parts parts) {review : ModuleMergeReview}
    (hreview : .review review ∈ parts) :
    (review.verify lib).Refines (MemoFor lib parts) (review.verifyUncached lib) :=
  refines_memoize hparts hreview (Stateful.refines_lift _)

theorem refines_plan (hparts : Apart lib parts parts) {plan : ResolvedModulePlan}
    (hplan : .plan plan ∈ parts) :
    (plan.verify lib).Refines (MemoFor lib parts) (plan.verifyUncached lib) :=
  refines_memoize hparts hplan (Stateful.refines_lift _)

theorem refines_approval (hparts : Apart lib parts parts) {approval : ApprovedModuleActivationPlan}
    (happroval : .approval approval ∈ parts) (hplan : .plan approval.plan ∈ parts) :
    (approval.verify lib).Refines (MemoFor lib parts) (approval.check lib) := by
  refine refines_memoize hparts happroval ?_
  exact (refines_plan hparts hplan).bind fun _ _ => Stateful.refines_lift _

theorem refines_applied (hparts : Apart lib parts parts) {applied : AppliedModuleRuntimePlan}
    (hmem : ∀ part ∈ (VerifiedValue.applied applied).parts, part ∈ parts) :
    (applied.verify lib).Refines (MemoFor lib parts) (applied.check lib) := by
  have hreview := refines_review hparts (hmem (.review applied.review) (by simp [VerifiedValue.parts]))
  have hplan := refines_plan hparts (hmem (.plan applied.plan) (by simp [VerifiedValue.parts]))
  have happroval := refines_approval hparts
    (hmem (.approval applied.sourceApproval) (by simp [VerifiedValue.parts]))
    (hmem (.plan applied.sourceApproval.plan) (by simp [VerifiedValue.parts]))
  refine refines_memoize hparts (hmem (.applied applied) (by simp [VerifiedValue.parts])) ?_
  refine happroval.bind fun _ _ => hreview.bind fun _ _ => hplan.bind fun _ _ =>
    (Stateful.refines_lift _).bind fun _ _ => Stateful.Refines.bind ?_ fun resolutions _ =>
      Stateful.Refines.bind ?_ fun reconstructed _ => Stateful.refines_lift _
  · exact hreview.bind fun _ _ => hplan.bind fun _ _ => Stateful.refines_lift _
  · exact hreview.bind fun _ _ => Stateful.refines_lift _

theorem refines_value (hparts : Apart lib parts parts) {value : VerifiedValue}
    (hmem : ∀ part ∈ value.parts, part ∈ parts) :
    (value.verify lib).Refines (MemoFor lib parts) (value.check lib) := by
  cases value with
  | review value => exact refines_review hparts (hmem _ (by simp [VerifiedValue.parts]))
  | plan value => exact refines_plan hparts (hmem _ (by simp [VerifiedValue.parts]))
  | approval value =>
    exact refines_approval hparts (hmem _ (by simp [VerifiedValue.parts]))
      (hmem _ (by simp [VerifiedValue.parts]))
  | applied value => exact refines_applied hparts hmem

end

/-! ## Runs -/

/-- The results of a sequence of `verify` calls. -/
def verifyAll (lib : ModuleExternals) : List VerifiedValue → Memo → List (Merging Unit)
  | [], _ => []
  | value :: rest, memo =>
    ((value.verify lib).run memo).1 :: verifyAll lib rest ((value.verify lib).run memo).2

/-- In every call, no remembered value that passes the check, and no part of the value that does, compares
equal to another part of the value. -/
def ApartAlong (lib : ModuleExternals) : List VerifiedValue → Memo → Prop
  | [], _ => True
  | value :: rest, memo =>
    Apart lib (memo.entries.map (·.value) ++ value.parts) value.parts ∧
      ApartAlong lib rest ((value.verify lib).run memo).2

/-- The remembered values pass the check. -/
def Remembered (lib : ModuleExternals) (memo : Memo) : Prop :=
  ∀ entry ∈ memo.entries, entry.value.check lib = .ok ()

/-- One call answers as the check does and remembers only values that pass it. -/
theorem verify_step {memo : Memo} {value : VerifiedValue} (hmemo : Remembered lib memo)
    (h : Apart lib (memo.entries.map (·.value) ++ value.parts) value.parts) :
    ((value.verify lib).run memo).1 = value.check lib ∧
      Remembered lib ((value.verify lib).run memo).2 := by
  have hparts : Apart lib value.parts value.parts :=
    fun part hpart => h part (List.mem_append_right _ hpart)
  have hentries : MemoFor lib value.parts memo := by
    intro entry hentry
    refine ⟨hmemo entry hentry, h entry.value ?_ (hmemo entry hentry)⟩
    exact List.mem_append_left _ (List.mem_map_of_mem hentry)
  obtain ⟨hresult, hmemo'⟩ := refines_value hparts (fun _ hpart => hpart) memo hentries
  exact ⟨hresult, fun entry hentry => (hmemo' entry hentry).1⟩

theorem verifyAll_of_remembered : ∀ {values : List VerifiedValue} {memo : Memo}, Remembered lib memo →
    ApartAlong lib values memo → verifyAll lib values memo = values.map (·.check lib)
  | [], _, _, _ => rfl
  | value :: rest, memo, hmemo, h => by
    obtain ⟨hresult, hmemo'⟩ := verify_step hmemo h.1
    unfold verifyAll
    rw [hresult, verifyAll_of_remembered hmemo' h.2, List.map_cons]

/-- **The memo is transparent while equality tells values apart**: in every sequence of calls where no
remembered value compares equal to a different value, each call answers as the check does. -/
theorem verify_eq_check (lib : ModuleExternals) (values : List VerifiedValue)
    (h : ApartAlong lib values .empty) :
    verifyAll lib values .empty = values.map (·.check lib) :=
  verifyAll_of_remembered (fun _ hentry => absurd hentry List.not_mem_nil) h

/-- A review with a decimal override of a zero. Its hash is the one of the positive zero. -/
def zeroReview (negative : Bool) : ModuleMergeReview where
  reviewSha256 := ⟨"0101" ++ String.ofList (List.replicate 60 '0'), by decide +kernel⟩
  stateRevision := 0
  context := harborContext
  activationBindingIds := []
  orderedBindings := []
  ignoredBindings := []
  components := []
  conflicts := []
  importApprovals := []
  effectiveVariableOverrides := ⟨[lampOverride (.decimal (.ofFields negative 0 0))]⟩

/-- The same review twice: the second call is answered by the memo. -/
theorem verify_eq_check_zero :
    verifyAll sampleModuleExternals [.review (zeroReview false), .review (zeroReview false)] .empty =
      [.ok (), .ok ()] := by
  rw [verify_eq_check sampleModuleExternals _ ?_]
  · decide +kernel
  · refine ⟨?_, ?_, trivial⟩
    · unfold Apart
      decide +kernel
    · unfold Apart
      decide +kernel

/-- The memo accepts the review of the negative zero once it has seen the one of the positive zero. -/
theorem verifyAll_negative_zero :
    verifyAll sampleModuleExternals [.review (zeroReview false), .review (zeroReview true)] .empty =
        [.ok (), .ok ()] ∧
      (VerifiedValue.review (zeroReview true)).check sampleModuleExternals =
        .error .reviewHashMismatch := by
  decide +kernel

end LorePia
