import LorePia.Base.Stateful
import LorePia.Orchestration.Module

/-!
# Verified module plans (`modules/verification.rs`, `modules/verification_cache.rs`, `modules.rs`)

Reviews, plans, approvals and applied plans carry a hash that `verify` recomputes. A process-wide memo
remembers the last values that verified, so every function here reads and changes the memo: `Memo` is
the state of `Verifying`, and a failed call keeps the changes it made to it. Values are compared with
the derived `PartialEq`. The memo counts its bytes, so evicting everything always makes room.
-/

namespace LorePia

open Base

/-! ## Equality of values -/

/-- The derived `PartialEq`. -/
def ModuleMergeReview.eq (left right : ModuleMergeReview) : Bool :=
  listEq ModuleBinding.eq left.orderedBindings right.orderedBindings &&
    left.effectiveVariableOverrides.eq right.effectiveVariableOverrides &&
    { left with
      orderedBindings := right.orderedBindings
      effectiveVariableOverrides := right.effectiveVariableOverrides } = right

/-- The derived `PartialEq`. -/
def ResolvedModulePlan.eq (left right : ResolvedModulePlan) : Bool :=
  left.effectiveVariableOverrides.eq right.effectiveVariableOverrides &&
    { left with effectiveVariableOverrides := right.effectiveVariableOverrides } = right

/-- The derived `PartialEq`. -/
def ApprovedModuleActivationPlan.eq (left right : ApprovedModuleActivationPlan) : Bool :=
  left.plan.eq right.plan && { left with plan := right.plan } = right

/-- The derived `PartialEq`. -/
def AppliedModuleRuntimePlan.eq (left right : AppliedModuleRuntimePlan) : Bool :=
  left.sourceApproval.eq right.sourceApproval && left.review.eq right.review &&
    left.plan.eq right.plan &&
    { left with
      sourceApproval := right.sourceApproval
      review := right.review
      plan := right.plan } = right

/-- A value that is verified (`dyn Any`). -/
inductive VerifiedValue
  | review (value : ModuleMergeReview)
  | plan (value : ResolvedModulePlan)
  | approval (value : ApprovedModuleActivationPlan)
  | applied (value : AppliedModuleRuntimePlan)
deriving DecidableEq

/-- `entry.value.downcast_ref::<T>() == Some(value)`. -/
def VerifiedValue.eq : VerifiedValue → VerifiedValue → Bool
  | .review left, .review right => left.eq right
  | .plan left, .plan right => left.eq right
  | .approval left, .approval right => left.eq right
  | .applied left, .applied right => left.eq right
  | _, _ => false

/-- What is serialized of a value. -/
def VerifiedValue.document : VerifiedValue → ModuleDocument
  | .review value => .review value
  | .plan value => .plan value
  | .approval value => .approval value
  | .applied value => .applied value

/-! ## The memo -/

/-- `MAX_ENTRIES`. -/
def maxMemoEntries : Nat := 12

/-- `MAX_SERIALIZED_BYTES`. -/
def maxMemoBytes : Nat := 64 * 1024 * 1024

structure MemoEntry where
  value : VerifiedValue
  bytes : Nat

/-- `Cache`: the bytes are those of the entries. -/
structure Memo where
  entries : List MemoEntry
  bytes : Nat
  counted : bytes = (entries.map (·.bytes)).sum

/-- The memo of a new process. -/
def Memo.empty : Memo := ⟨[], 0, rfl⟩

/-- The entries that stay when `size` bytes are to be added. -/
def evict (size : Nat) : List MemoEntry → Nat → List MemoEntry
  | [], _ => []
  | entry :: rest, bytes =>
    if rest.length + 1 ≥ maxMemoEntries ∨ bytes + size > maxMemoBytes then
      evict size rest (bytes - entry.bytes)
    else entry :: rest

/-- The bytes that stay. -/
def evictBytes (size : Nat) : List MemoEntry → Nat → Nat
  | [], bytes => bytes
  | entry :: rest, bytes =>
    if rest.length + 1 ≥ maxMemoEntries ∨ bytes + size > maxMemoBytes then
      evictBytes size rest (bytes - entry.bytes)
    else bytes

theorem evictBytes_counted (size : Nat) : ∀ (entries : List MemoEntry) (bytes : Nat),
    bytes = (entries.map (·.bytes)).sum →
      evictBytes size entries bytes = ((evict size entries bytes).map (·.bytes)).sum
  | [], bytes, h => h
  | entry :: rest, bytes, h => by
    unfold evictBytes evict
    split
    · apply evictBytes_counted
      rw [h, List.map_cons, List.sum_cons, Nat.add_sub_cancel_left]
    · exact h

/-- `push_back` after the eviction. -/
def Memo.push (memo : Memo) (value : VerifiedValue) (size : Nat) : Memo where
  entries := evict size memo.entries memo.bytes ++ [⟨value, size⟩]
  bytes := evictBytes size memo.entries memo.bytes + size
  counted := by simp [evictBytes_counted size memo.entries memo.bytes memo.counted]

/-- The value is remembered if it serializes to at most `MAX_SERIALIZED_BYTES`. -/
def Memo.store (lib : ModuleExternals) (memo : Memo) (value : VerifiedValue) : Memo :=
  match lib.toVec value.document with
  | .ok bytes => if bytes.length ≤ maxMemoBytes then memo.push value bytes.length else memo
  | .error _ => memo

/-- A hit moves its entry to the back. -/
def Memo.touch (memo : Memo) (index : Nat) (h : index < memo.entries.length) : Memo where
  entries := memo.entries.eraseIdx index ++ [memo.entries[index]]
  bytes := memo.bytes
  counted := by
    have hperm : (memo.entries.eraseIdx index ++ [memo.entries[index]]).Perm memo.entries :=
      (List.perm_append_singleton _ _).trans (List.getElem_cons_eraseIdx_perm h)
    rw [memo.counted]
    exact (hperm.map _).sum_nat.symm

/-- A computation that reads and changes the memo. -/
abbrev Verifying := Stateful Memo ModuleMergeError

/-- `verification_cache::verify`. -/
def memoize (lib : ModuleExternals) (value : VerifiedValue) (compute : Verifying Unit) : Verifying Unit :=
  fun memo =>
    if h : memo.entries.findIdx (fun entry => entry.value.eq value) < memo.entries.length then
      (.ok (), memo.touch _ h)
    else
      match compute.run memo with
      | (.error error, memo') => (.error error, memo')
      | (.ok (), memo') => (.ok (), memo'.store lib value)

/-! ## Verification -/

def ModuleMergeReview.verifyUncached (lib : ModuleExternals) (review : ModuleMergeReview) :
    Merging Unit := do
  let expected ← moduleMergeReviewSha256 lib review
  rejectIf (expected ≠ review.reviewSha256) .reviewHashMismatch

def ModuleMergeReview.verify (lib : ModuleExternals) (review : ModuleMergeReview) : Verifying Unit :=
  memoize lib (.review review) (.lift (review.verifyUncached lib))

def ResolvedModulePlan.verifyUncached (lib : ModuleExternals) (plan : ResolvedModulePlan) :
    Merging Unit := do
  let expected ← resolvedModulePlanSha256 lib plan
  rejectIf (expected ≠ plan.planSha256) .planHashMismatch

def ResolvedModulePlan.verify (lib : ModuleExternals) (plan : ResolvedModulePlan) : Verifying Unit :=
  memoize lib (.plan plan) (.lift (plan.verifyUncached lib))

/-- `ApprovedModuleActivationPlan::verify_uncached` after its plan is verified. -/
def ApprovedModuleActivationPlan.checkApproval (lib : ModuleExternals)
    (approval : ApprovedModuleActivationPlan) : Merging Unit := do
  validateActivationApprovalId approval.approvalId
  rejectIf (approval.plan.activationBindingIds.length ≠ 1) .activationPlanRequired
  let expected ← moduleActivationApprovalSha256 lib approval.approvalId approval.plan
  rejectIf (expected ≠ approval.approvalSha256) .activationApprovalHashMismatch

def ApprovedModuleActivationPlan.verify (lib : ModuleExternals)
    (approval : ApprovedModuleActivationPlan) : Verifying Unit :=
  memoize lib (.approval approval) do
    approval.plan.verify lib
    .lift (approval.checkApproval lib)

def resolveModuleMerge (lib : ModuleExternals) (review : ModuleMergeReview)
    (resolutionSet : ModuleMergeResolutionSet) : Verifying ResolvedModulePlan := do
  review.verify lib
  .lift (resolveReviewed lib review resolutionSet)

/-- `module_merge_resolution_set_from_plan` after the review and the plan are verified. -/
def resolutionSetOfPlan (review : ModuleMergeReview) (plan : ResolvedModulePlan) :
    Merging ModuleMergeResolutionSet := do
  rejectIf (plan.reviewSha256 ≠ review.reviewSha256 ∨
      plan.expectedStateRevision ≠ review.stateRevision)
    (.invalidRuntimeMaterialization "resolved plan does not belong to its review")
  moduleMergeResolutionSetForSelection review plan

def moduleMergeResolutionSetFromPlan (lib : ModuleExternals) (review : ModuleMergeReview)
    (plan : ResolvedModulePlan) : Verifying ModuleMergeResolutionSet := do
  review.verify lib
  plan.verify lib
  .lift (resolutionSetOfPlan review plan)

/-- The applied plan resolves one review without a pending binding. -/
def AppliedModuleRuntimePlan.checkReview (applied : AppliedModuleRuntimePlan) : Merging Unit :=
  rejectIf (applied.review.activationBindingIds ≠ [] ∨ applied.plan.activationBindingIds ≠ [] ∨
      applied.plan.reviewSha256 ≠ applied.review.reviewSha256 ∨
      applied.plan.expectedStateRevision ≠ applied.review.stateRevision)
    (.invalidRuntimeMaterialization "runtime plans must resolve one no-pending-binding review")

/-- The plan resolved again is the plan, and the hash is its hash. -/
def AppliedModuleRuntimePlan.checkReconstructed (lib : ModuleExternals)
    (applied : AppliedModuleRuntimePlan) (reconstructed : ResolvedModulePlan) : Merging Unit := do
  rejectIf (reconstructed.eq applied.plan = false)
    (.invalidRuntimeMaterialization "runtime plan differs from its reviewed resolution")
  let expected ← appliedModuleRuntimePlanSha256 lib applied.sourceApproval
    applied.derivedFromPlanSha256 applied.review applied.plan
  rejectIf (expected ≠ applied.appliedPlanSha256) .runtimePlanHashMismatch

def AppliedModuleRuntimePlan.verify (lib : ModuleExternals) (applied : AppliedModuleRuntimePlan) :
    Verifying Unit :=
  memoize lib (.applied applied) do
    applied.sourceApproval.verify lib
    applied.review.verify lib
    applied.plan.verify lib
    .lift applied.checkReview
    let resolutions ← moduleMergeResolutionSetFromPlan lib applied.review applied.plan
    let reconstructed ← resolveModuleMerge lib applied.review resolutions
    .lift (applied.checkReconstructed lib reconstructed)

/-- The `verify` of a value. -/
def VerifiedValue.verify (lib : ModuleExternals) : VerifiedValue → Verifying Unit
  | .review value => value.verify lib
  | .plan value => value.verify lib
  | .approval value => value.verify lib
  | .applied value => value.verify lib

/-! ## Approval and runtime plans -/

def approveModuleActivationPlan (lib : ModuleExternals) (plan : ResolvedModulePlan)
    (approval : ModuleActivationApproval) : Verifying ApprovedModuleActivationPlan := do
  plan.verify lib
  .lift do
    validateActivationApprovalId approval.approvalId
    rejectIf (plan.activationBindingIds.length ≠ 1) .activationPlanRequired
    rejectIf (approval.expectedReviewSha256 ≠ plan.reviewSha256 ∨
      approval.expectedPlanSha256 ≠ plan.planSha256) .staleActivationApproval
    let approvalSha256 ← moduleActivationApprovalSha256 lib approval.approvalId plan
    pure ⟨approvalSha256, approval.approvalId, plan⟩

def buildAppliedModuleRuntimePlan (lib : ModuleExternals) (sourceApproval : ApprovedModuleActivationPlan)
    (derivedFromPlanSha256 : Option Sha256Digest) (review : ModuleMergeReview)
    (plan : ResolvedModulePlan) : Verifying AppliedModuleRuntimePlan := do
  let appliedPlanSha256 ← .lift
    (appliedModuleRuntimePlanSha256 lib sourceApproval derivedFromPlanSha256 review plan)
  let applied : AppliedModuleRuntimePlan :=
    ⟨appliedPlanSha256, sourceApproval, derivedFromPlanSha256, review, plan⟩
  applied.verify lib
  pure applied

/-- The selection of `selection`, resolved again against `review`. -/
def resolveSelection (lib : ModuleExternals) (review : ModuleMergeReview)
    (selection : ResolvedModulePlan) : Verifying ResolvedModulePlan := do
  let resolutions ← .lift (moduleMergeResolutionSetForSelection review selection)
  let plan ← resolveModuleMerge lib review resolutions
  .lift (rejectIf (sameRuntimePlanSelection plan selection = false) .runtimeDerivationChanged)
  pure plan

def materializeApprovedModuleRuntimePlan (lib : ModuleExternals)
    (sourceApproval : ApprovedModuleActivationPlan) (runtimeReview : ModuleMergeReview) :
    Verifying AppliedModuleRuntimePlan := do
  sourceApproval.verify lib
  runtimeReview.verify lib
  .lift (rejectIf (runtimeReview.activationBindingIds ≠ []) (.invalidRuntimeMaterialization
    "runtime review contains a pending activation"))
  let plan ← resolveSelection lib runtimeReview sourceApproval.plan
  buildAppliedModuleRuntimePlan lib sourceApproval none runtimeReview plan

/-- The reviewed inputs of two reviews differ. -/
def reviewedInputsDiffer (source target : ModuleMergeReview) : Bool :=
  source.stateRevision ≠ target.stateRevision ||
    !listEq ModuleBinding.eq source.orderedBindings target.orderedBindings ||
    source.ignoredBindings ≠ target.ignoredBindings || source.components ≠ target.components ||
    source.conflicts ≠ target.conflicts || source.importApprovals ≠ target.importApprovals ||
    !source.effectiveVariableOverrides.eq target.effectiveVariableOverrides

/-- The checks of a derivation. -/
def checkDerivation (source : AppliedModuleRuntimePlan) (targetReview : ModuleMergeReview) :
    Merging Unit := do
  rejectIf (targetReview.activationBindingIds ≠ []) (.invalidRuntimeMaterialization
    "derived runtime review contains a pending activation")
  validateRuntimeDerivationContext source.review.context targetReview.context
  rejectIf (∃ binding ∈ targetReview.orderedBindings,
      binding.scope = .branch ∧ binding.targetId = targetReview.context.branchId)
    .runtimeTargetBranchOverride
  rejectIf (reviewedInputsDiffer source.review targetReview = true) .runtimeDerivationChanged

def deriveAppliedModuleRuntimePlan (lib : ModuleExternals) (source : AppliedModuleRuntimePlan)
    (targetReview : ModuleMergeReview) : Verifying AppliedModuleRuntimePlan := do
  source.verify lib
  targetReview.verify lib
  .lift (checkDerivation source targetReview)
  let plan ← resolveSelection lib targetReview source.plan
  buildAppliedModuleRuntimePlan lib source.sourceApproval (some source.appliedPlanSha256) targetReview
    plan

end LorePia
