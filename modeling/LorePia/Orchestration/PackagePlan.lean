import LorePia.Orchestration.Package

/-!
# Package import plans (`crates/orchestration/src/package.rs`)

`build_selective_import_plan` turns a selection of a reviewed package into a plan whose components are
disabled, `approve_selective_import_plan` enables the approved ones, and both results are checked again
by `verify` before they are used. The loop of `dependency_closure` runs on a fuel that it does not use up
(`dependencyClosureFrom_closed`).
-/

namespace LorePia

open Base

/-! ## Data -/

structure PackageSelectionRequest where
  expectedReviewSha256 : Sha256Digest
  componentIds : List String
  standaloneAssetIds : List AssetId

structure SelectiveImportPlan where
  planSha256 : Sha256Digest
  reviewSha256 : Sha256Digest
  sourceSha256 : Sha256Digest
  packageId : PackageId
  state : ImportPlanState
  components : List PlannedPackageComponent
  assets : List AssetDescriptor
  requiredCapabilities : List ContentCapability
  redistributionStatus : RedistributionStatus
deriving DecidableEq

structure PackageImportApproval where
  approvalId : String
  expectedReviewSha256 : Sha256Digest
  expectedPlanSha256 : Sha256Digest
  targetReviewSha256 : Sha256Digest
  updateTargetConfirmationsSha256 : Sha256Digest
  enableComponentIds : List String

structure ApprovedPackageImportPlan where
  approvalSha256 : Sha256Digest
  planSha256 : Sha256Digest
  reviewSha256 : Sha256Digest
  sourceSha256 : Sha256Digest
  packageId : PackageId
  state : ImportPlanState
  approvalId : String
  targetReviewSha256 : Sha256Digest
  updateTargetConfirmationsSha256 : Sha256Digest
  components : List PlannedPackageComponent
  assets : List AssetDescriptor
  requiredCapabilities : List ContentCapability
  redistributionStatus : RedistributionStatus
deriving DecidableEq

/-! ## The payload of a plan -/

/-- `ensure_unique_strings`, `ensure_unique_assets` and `ensure_unique_approval_decisions`. -/
def ensureUnique (duplicate : String → PackageValidationError) (values : List String) :
    Packaging (List String) :=
  values.foldlM (fun seen value => do
    rejectIf (value ∈ seen) (duplicate value)
    pure (seen ++ [value])) []

/-- The two ids in order. -/
def conflictPair (id conflict : String) : String × String :=
  if id < conflict then (id, conflict) else (conflict, id)

/-- One component of the first loop of `validate_selected_payload`. -/
def checkPlanned (approved : Bool) (ids : List String) (component : PlannedPackageComponent) :
    Packaging (List String) := do
  rejectIf (component.component.id ∈ ids) (.duplicateSelection component.component.id)
  rejectIf (component.component.disposition ≠ .importable)
    (.componentNotImportable component.component.id)
  rejectIf (approved = false ∧ component.enabled = true) .invalidPlanState
  pure (ids ++ [component.component.id])

/-- One component of the second loop. -/
def checkPlannedReferences (ids : List String) (component : PlannedPackageComponent) :
    Packaging Unit := do
  let missing := component.component.dependencies.filter (· ∉ ids)
  rejectIf (missing ≠ []) (.dependencyConfirmationRequired missing)
  component.component.conflictsWith.forM fun conflict =>
    rejectIf (conflict ∈ ids) (.selectedComponentsConflict
      (conflictPair component.component.id conflict).1 (conflictPair component.component.id conflict).2)

/-- One asset: the ids and the bytes so far. -/
def checkPlannedAsset (sourceSha256 : Sha256Digest) (state : List AssetId × Nat)
    (asset : AssetDescriptor) : Packaging (List AssetId × Nat) := do
  let total ← okOr (checkedAdd state.2 asset.sizeBytes.toNat) .importBlocked
  rejectIf (total > maxPackageTotalAssetBytes.toNat) .importBlocked
  rejectIf (asset.id ∈ state.1) (.duplicateSelection asset.id)
  rejectIf (isHighRiskMediaType asset.mediaType = true ∨ asset.source.kind ≠ .lorepiaPackage ∨
      asset.source.sourceSha256 ≠ some sourceSha256) (.assetNotImportable asset.id)
  pure (state.1 ++ [asset.id], total)

def validateSelectedPayload (components : List PlannedPackageComponent) (assets : List AssetDescriptor)
    (sourceSha256 : Sha256Digest) (requiredCapabilities : List ContentCapability) (approved : Bool) :
    Packaging Unit := do
  rejectIf (components = [] ∧ assets = []) .emptySelection
  rejectIf (components.length > maxPackageComponents ∨ assets.length > maxPackageAssets) .importBlocked
  let dependencyCount ← okOr (components.foldlM
    (fun total component => checkedAdd total component.component.dependencies.length) 0) .importBlocked
  rejectIf (dependencyCount > maxPackageDependencies) .importBlocked
  let componentIds ← components.foldlM (checkPlanned approved) []
  components.forM (checkPlannedReferences componentIds)
  rejectIf (sortDedup (components.flatMap (·.component.requiredCapabilities)) ≠ requiredCapabilities)
    .invalidPlanCapabilities
  let assetState ← assets.foldlM (checkPlannedAsset sourceSha256) ([], 0)
  components.forM fun component =>
    forSome (component.component.assetIds.find? (· ∉ assetState.1)) fun missing =>
      .error (.unknownAsset missing)

def SelectiveImportPlan.verify (lib : PackageExternals) (plan : SelectiveImportPlan) :
    Packaging Unit := do
  validateSelectedPayload plan.components plan.assets plan.sourceSha256 plan.requiredCapabilities false
  rejectIf (plan.state ≠ .awaitingApproval) .invalidPlanState
  let expected ← packageSha256 lib (.plan plan.reviewSha256 plan.sourceSha256 plan.packageId plan.state
    plan.components plan.assets plan.requiredCapabilities plan.redistributionStatus)
  rejectIf (expected ≠ plan.planSha256) .planHashMismatch

/-! ## Building a plan -/

/-- The loop of `dependency_closure`; the top of the stack comes first. -/
def dependencyClosureFrom (components : OrdMap String PackageComponentDescriptor) :
    Nat → List String → List String → List String
  | 0, _, closure => closure
  | _ + 1, [], closure => closure
  | fuel + 1, id :: pending, closure =>
    if id ∈ closure then dependencyClosureFrom components fuel pending closure
    else
      match components.get? id with
      | some component =>
        dependencyClosureFrom components fuel (component.dependencies.reverse ++ pending) (id :: closure)
      | none => dependencyClosureFrom components fuel pending (id :: closure)

/-- The pushes that the loop can make: a bound of its turns. -/
def closureFuel (roots : List String) (components : OrdMap String PackageComponentDescriptor) : Nat :=
  roots.length + (components.values.map (·.dependencies.length)).sum + 1

def dependencyClosure (roots : List String) (components : OrdMap String PackageComponentDescriptor) :
    List String :=
  dependencyClosureFrom components (closureFuel roots components) roots.reverse []

def componentMap (components : List PackageComponentDescriptor) :
    OrdMap String PackageComponentDescriptor :=
  .ofList (components.map fun component => (component.id, component))

def assetMap (assets : List ReviewedPackageAsset) : OrdMap AssetId ReviewedPackageAsset :=
  .ofList (assets.map fun asset => (asset.descriptor.id, asset))

/-- The requested components. -/
def requestedComponents (review : PackageReview) (ids : List String) :
    Packaging (List PackageComponentDescriptor) := do
  let requested ← ids.mapM fun id =>
    okOr ((componentMap review.components).get? id) (.unknownComponent id)
  requested.forM fun component =>
    rejectIf (component.disposition ≠ .importable) (.componentNotImportable component.id)
  pure requested

/-- The selection holds its dependencies and no conflict. -/
def checkSelection (review : PackageReview) (ids : List String)
    (requested : List PackageComponentDescriptor) : Packaging Unit := do
  let closure := sortedSet (dependencyClosure ids (componentMap review.components))
  let missing := closure.filter (· ∉ ids)
  rejectIf (missing ≠ []) (.dependencyConfirmationRequired missing)
  let selectedConflicts : List (String ×ₗ String) := sortedSet (requested.flatMap fun component =>
    (component.conflictsWith.filter (· ∈ ids)).map fun conflict =>
      toLex (conflictPair component.id conflict))
  forSome selectedConflicts.head? fun pair =>
    .error (.selectedComponentsConflict (ofLex pair).1 (ofLex pair).2)

/-- One selected asset. -/
def selectAsset (review : PackageReview) (id : AssetId) : Packaging AssetDescriptor := do
  let asset ← okOr ((assetMap review.assets).get? id) (.unknownAsset id)
  rejectIf (asset.disposition ≠ .importable) (.assetNotImportable id)
  pure asset.descriptor

/-- The ids of the selected assets, in order. -/
def selectedAssetIds (request : PackageSelectionRequest)
    (requested : List PackageComponentDescriptor) : List AssetId :=
  sortedSet (request.standaloneAssetIds ++ requested.flatMap (·.assetIds))

def buildSelectiveImportPlan (lib : PackageExternals) (review : PackageReview)
    (request : PackageSelectionRequest) : Packaging SelectiveImportPlan := do
  review.verify lib
  rejectIf (request.expectedReviewSha256 ≠ review.reviewSha256) .staleReview
  rejectIf (review.localImportAllowed = false) .importBlocked
  rejectIf (request.componentIds = [] ∧ request.standaloneAssetIds = []) .emptySelection
  let _ ← ensureUnique .duplicateSelection request.componentIds
  let _ ← ensureUnique .duplicateSelection request.standaloneAssetIds
  let requested ← requestedComponents review request.componentIds
  checkSelection review request.componentIds requested
  let selected ← (selectedAssetIds request requested).mapM (selectAsset review)
  let assets := stableSort (fun left right => left.id ≤ right.id) selected
  let components := stableSort (fun left right => componentKey left.component ≤ componentKey right.component)
    (requested.map fun component => (⟨component, false⟩ : PlannedPackageComponent))
  let requiredCapabilities := canonicalCapabilities
    (components.flatMap (·.component.requiredCapabilities))
  let planSha256 ← packageSha256 lib (.plan review.reviewSha256 review.sourceSha256
    review.manifest.packageId .awaitingApproval components assets requiredCapabilities
    review.redistributionStatus)
  pure ⟨planSha256, review.reviewSha256, review.sourceSha256, review.manifest.packageId,
    .awaitingApproval, components, assets, requiredCapabilities, review.redistributionStatus⟩

/-! ## Approval -/

/-- An approval id that is refused. -/
def isInvalidApprovalId (approvalId : String) : Bool :=
  isBlank approvalId || approvalId.utf8ByteSize > maxLabelBytes || hasControl approvalId

/-- The plan before its approval. -/
def ApprovedPackageImportPlan.originalPlan (approved : ApprovedPackageImportPlan) :
    SelectiveImportPlan where
  planSha256 := approved.planSha256
  reviewSha256 := approved.reviewSha256
  sourceSha256 := approved.sourceSha256
  packageId := approved.packageId
  state := .awaitingApproval
  components := approved.components.map fun component => { component with enabled := false }
  assets := approved.assets
  requiredCapabilities := approved.requiredCapabilities
  redistributionStatus := approved.redistributionStatus

def ApprovedPackageImportPlan.verify (lib : PackageExternals) (approved : ApprovedPackageImportPlan) :
    Packaging Unit := do
  rejectIf (approved.state ≠ .approved) .invalidPlanState
  rejectIf (isInvalidApprovalId approved.approvalId = true) .missingApprovalId
  validateSelectedPayload approved.components approved.assets approved.sourceSha256
    approved.requiredCapabilities true
  approved.originalPlan.verify lib
  let expected ← packageSha256 lib (.approval approved.planSha256 approved.reviewSha256
    approved.sourceSha256 approved.packageId approved.state approved.approvalId
    approved.targetReviewSha256 approved.updateTargetConfirmationsSha256 approved.components
    approved.assets approved.requiredCapabilities approved.redistributionStatus)
  rejectIf (expected ≠ approved.approvalSha256) .approvalHashMismatch

def approveSelectiveImportPlan (lib : PackageExternals) (plan : SelectiveImportPlan)
    (approval : PackageImportApproval) : Packaging ApprovedPackageImportPlan := do
  plan.verify lib
  rejectIf (isInvalidApprovalId approval.approvalId = true) .missingApprovalId
  rejectIf (approval.expectedReviewSha256 ≠ plan.reviewSha256) .staleReview
  rejectIf (approval.expectedPlanSha256 ≠ plan.planSha256) .stalePlan
  let _ ← ensureUnique .duplicateApprovalDecision approval.enableComponentIds
  approval.enableComponentIds.forM fun id =>
    rejectIf (id ∉ plan.components.map (·.component.id)) (.unknownApprovedComponent id)
  let components := plan.components.map fun component =>
    { component with enabled := approval.enableComponentIds.contains component.component.id }
  let approvalSha256 ← packageSha256 lib (.approval plan.planSha256 plan.reviewSha256
    plan.sourceSha256 plan.packageId .approved approval.approvalId approval.targetReviewSha256
    approval.updateTargetConfirmationsSha256 components plan.assets plan.requiredCapabilities
    plan.redistributionStatus)
  pure ⟨approvalSha256, plan.planSha256, plan.reviewSha256, plan.sourceSha256, plan.packageId, .approved,
    approval.approvalId, approval.targetReviewSha256, approval.updateTargetConfirmationsSha256,
    components, plan.assets, plan.requiredCapabilities, plan.redistributionStatus⟩

end LorePia
