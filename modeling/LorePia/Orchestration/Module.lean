import LorePia.Domain.Module

/-!
# Module composition (`crates/orchestration/src/modules.rs`)

Reviews and resolutions of content modules: `review_module_merge_internal` collects the candidates of
every component that the applicable bindings bring in, `resolve_module_merge` chooses among them. A
`BTreeMap` is an `OrdMap`, a `BTreeSet` the list of its items, and a comparator that chains `then_with`
is the lexicographic order of a key. The serializer and the hash are parameters (`ModuleExternals`).
-/

namespace LorePia

open Base

def maxModuleBindingsPerResolution : Nat := 4096
def maxModuleRevisionsPerResolution : Nat := 4096
def maxModuleActivationApprovalIdBytes : Nat := 256

/-! ## Data -/

structure ModuleResolutionContext where
  localUserId : LocalUserId
  personaId : Option PersonaId
  characterId : Option String
  conversationId : Option String
  branchId : Option String
  supportedCapabilities : List ContentCapability
deriving DecidableEq

structure ModuleImportComponentAuthority where
  component : ModuleComponentRef
  componentSha256 : Sha256Digest
  packageComponentId : String
  packageComponentSha256 : Sha256Digest
  committedTargetObjectId : String
  committedTargetRevisionId : String
  committedResultSha256 : Sha256Digest
  committedContentSha256 : Option Sha256Digest
deriving DecidableEq

structure ModuleImportApprovalEvidence where
  approvalId : String
  approvalSha256 : Sha256Digest
  importId : String
  importRevision : UInt64
  packageId : PackageId
  packageSourceSha256 : Sha256Digest
  selectionSha256 : Sha256Digest
  capabilityReviewSha256 : Sha256Digest
  moduleId : ContentModuleId
  moduleRevisionId : ModuleRevisionId
  moduleRevisionSourceSha256 : Sha256Digest
  modulePackageComponentId : String
  modulePackageComponentSha256 : Sha256Digest
  moduleCommitResultSha256 : Sha256Digest
  selectedPackageComponentIds : List String
  authorizedCapabilities : List ContentCapability
  componentAuthorities : List ModuleImportComponentAuthority
deriving DecidableEq

structure ModuleRevisionSnapshot where
  module : ContentModule
  revision : ContentModuleRevision
  importApproval : Option ModuleImportApprovalEvidence

structure ReviewedModuleImportApproval where
  bindingId : ModuleBindingId
  evidence : ModuleImportApprovalEvidence
deriving DecidableEq

inductive IgnoredModuleBindingReason
  | disabled | awaitingApproval | differentTarget
deriving DecidableEq

/-- The declaration order. -/
def IgnoredModuleBindingReason.rank : IgnoredModuleBindingReason → Nat
  | .disabled => 0 | .awaitingApproval => 1 | .differentTarget => 2

structure IgnoredModuleBinding where
  bindingId : ModuleBindingId
  reason : IgnoredModuleBindingReason
deriving DecidableEq

structure ModuleCandidateSource where
  bindingId : ModuleBindingId
  moduleId : ContentModuleId
  revisionId : ModuleRevisionId
  revisionSourceSha256 : Sha256Digest
  scope : ModuleScope
  targetId : Option String
  conversationId : Option String
  priority : Int
  moduleOrdinal : UInt32
  runtimeEnabledIntent : Bool
deriving DecidableEq

structure ReviewedModuleCandidate where
  /-- The representative of every source with this hash. -/
  candidate : ModuleConflictCandidate
  sources : List ModuleCandidateSource
deriving DecidableEq

structure ReviewedModuleComponent where
  component : ModuleComponentRef
  /-- One candidate per distinct component hash. -/
  candidates : List ReviewedModuleCandidate
deriving DecidableEq

structure ModuleMergeReview where
  reviewSha256 : Sha256Digest
  stateRevision : UInt64
  context : ModuleResolutionContext
  activationBindingIds : List ModuleBindingId
  orderedBindings : List ModuleBinding
  ignoredBindings : List IgnoredModuleBinding
  components : List ReviewedModuleComponent
  conflicts : List ModuleConflict
  importApprovals : List ReviewedModuleImportApproval
  effectiveVariableOverrides : VariableMap
deriving DecidableEq

structure ModuleMergeResolutionSet where
  expectedReviewSha256 : Sha256Digest
  resolutions : List ModuleConflictResolution
deriving DecidableEq

structure ResolvedModuleComponent where
  component : ModuleComponentRef
  sha256 : Sha256Digest
  selectedSource : ModuleCandidateSource
  coalescedSources : List ModuleCandidateSource
  runtimeEnabled : Bool
deriving DecidableEq

structure ResolvedModulePlan where
  planSha256 : Sha256Digest
  reviewSha256 : Sha256Digest
  expectedStateRevision : UInt64
  activationBindingIds : List ModuleBindingId
  orderedBindingIds : List ModuleBindingId
  components : List ResolvedModuleComponent
  omittedComponents : List ModuleComponentRef
  importApprovals : List ReviewedModuleImportApproval
  effectiveVariableOverrides : VariableMap
deriving DecidableEq

structure ModuleActivationApproval where
  approvalId : String
  expectedReviewSha256 : Sha256Digest
  expectedPlanSha256 : Sha256Digest

structure ApprovedModuleActivationPlan where
  approvalSha256 : Sha256Digest
  approvalId : String
  plan : ResolvedModulePlan
deriving DecidableEq

structure AppliedModuleRuntimePlan where
  appliedPlanSha256 : Sha256Digest
  sourceApproval : ApprovedModuleActivationPlan
  derivedFromPlanSha256 : Option Sha256Digest
  review : ModuleMergeReview
  plan : ResolvedModulePlan
deriving DecidableEq

inductive ModuleComponentChangeKind
  | added | modified | removed
deriving DecidableEq

structure ModuleComponentChange where
  component : ModuleComponentRef
  kind : ModuleComponentChangeKind
  previousSha256 : Option Sha256Digest
  nextSha256 : Option Sha256Digest
deriving DecidableEq

structure ModuleCapabilityDiff where
  added : List ContentCapability
  removed : List ContentCapability
deriving DecidableEq

structure ModuleRevisionDiff where
  diffSha256 : Sha256Digest
  moduleId : ContentModuleId
  fromRevisionId : ModuleRevisionId
  toRevisionId : ModuleRevisionId
  fromSourceSha256 : Sha256Digest
  toSourceSha256 : Sha256Digest
  componentChanges : List ModuleComponentChange
  capabilityChanges : ModuleCapabilityDiff
  metadataChangedFields : List String
deriving DecidableEq

structure ModuleRollbackPolicy where
  stateRevision : UInt64
  maximumModuleSchemaVersion : UInt32
  scopeTargetExists : Bool
  availableAssetIds : List AssetId
  supportedCapabilities : List ContentCapability
  quarantinedRevisionIds : List ModuleRevisionId
  unresolvedComponents : List ModuleComponentRef

inductive ModuleRollbackBlocker
  | bindingDisabled
  | bindingAwaitingApproval
  | staleBinding
  | differentModule
  | targetAlreadyActive
  | targetNotAncestor
  | corruptRevisionLineage
  | corruptSnapshot
  | unsupportedSchemaVersion (schemaVersion : UInt32)
  | scopeTargetMissing
  | missingAsset (assetId : AssetId)
  | unsupportedCapability (capability : ContentCapability)
  | quarantinedTarget
  | unresolvedConflict (component : ModuleComponentRef)
deriving DecidableEq

structure ModuleRollbackReview where
  reviewSha256 : Sha256Digest
  expectedStateRevision : UInt64
  bindingId : ModuleBindingId
  currentRevisionId : ModuleRevisionId
  currentSourceSha256 : Sha256Digest
  targetRevisionId : ModuleRevisionId
  targetSourceSha256 : Sha256Digest
  diff : Option ModuleRevisionDiff
  blockers : List ModuleRollbackBlocker
  eligible : Bool
deriving DecidableEq

/-- The errors of the modelled functions. -/
inductive ModuleMergeError
  | limitExceeded (kind : String)
  | invalidContext (message : String)
  | invalidBindingTarget (bindingId : String)
  | invalidBinding (bindingId message : String)
  | duplicateBinding (bindingId : String)
  | duplicateRevision (revisionId : String)
  | missingRevision (revisionId : String)
  | bindingRevisionMismatch (bindingId : String)
  | invalidSnapshot (message : String)
  | missingImportApproval (bindingId : String)
  | invalidImportApproval (bindingId message : String)
  | unsupportedCapability (capability : ContentCapability)
  | canonicalEncoding (message : String)
  | reviewHashMismatch
  | invalidReview (message : String)
  | staleReview
  | unresolvedConflict (component : ModuleComponentRef)
  | duplicateResolution (component : ModuleComponentRef)
  | unknownResolution (component : ModuleComponentRef)
  | staleConflictCandidates (component : ModuleComponentRef)
  | unknownConflictCandidate (component : ModuleComponentRef)
  | planHashMismatch
  | invalidActivationDraft (message : String)
  | activationPlanRequired
  | invalidActivationApprovalId
  | staleActivationApproval
  | activationApprovalHashMismatch
  | invalidRuntimeMaterialization (message : String)
  | runtimePlanHashMismatch
  | runtimeDerivationChanged
  | runtimeTargetBranchOverride
  | differentModules
  | corruptRevisionIdentity
deriving DecidableEq

abbrev Merging := Except ModuleMergeError

/-! ## Hashes -/

structure ModuleActivationApprovalDigest where
  approvalId : String
  reviewSha256 : Sha256Digest
  planSha256 : Sha256Digest
  expectedStateRevision : UInt64
  activationBindingIds : List ModuleBindingId

structure AppliedModuleRuntimePlanDigest where
  sourceApprovalId : String
  sourceApprovalSha256 : Sha256Digest
  sourceActivationPlanSha256 : Sha256Digest
  derivedFromPlanSha256 : Option Sha256Digest
  runtimeReviewSha256 : Sha256Digest
  runtimePlanSha256 : Sha256Digest

/-- What is serialized: the digests (a `ModuleMergeReviewDigest`, a `ResolvedModulePlanDigest`, a
`ModuleRevisionDiffDigest` and a `ModuleRollbackReviewDigest` hold every field of the document but its
hash) and whole documents. -/
inductive ModuleDocument
  | reviewDigest (stateRevision : UInt64) (context : ModuleResolutionContext)
      (activationBindingIds : List ModuleBindingId) (orderedBindings : List ModuleBinding)
      (ignoredBindings : List IgnoredModuleBinding) (components : List ReviewedModuleComponent)
      (conflicts : List ModuleConflict) (importApprovals : List ReviewedModuleImportApproval)
      (effectiveVariableOverrides : VariableMap)
  | planDigest (reviewSha256 : Sha256Digest) (expectedStateRevision : UInt64)
      (activationBindingIds orderedBindingIds : List ModuleBindingId)
      (components : List ResolvedModuleComponent) (omittedComponents : List ModuleComponentRef)
      (importApprovals : List ReviewedModuleImportApproval) (effectiveVariableOverrides : VariableMap)
  | approvalDigest (digest : ModuleActivationApprovalDigest)
  | appliedDigest (digest : AppliedModuleRuntimePlanDigest)
  | diffDigest (moduleId : ContentModuleId) (fromRevisionId toRevisionId : ModuleRevisionId)
      (fromSourceSha256 toSourceSha256 : Sha256Digest) (componentChanges : List ModuleComponentChange)
      (capabilityChanges : ModuleCapabilityDiff) (metadataChangedFields : List String)
  | rollbackDigest (expectedStateRevision : UInt64) (bindingId : ModuleBindingId)
      (currentRevisionId : ModuleRevisionId) (currentSourceSha256 : Sha256Digest)
      (targetRevisionId : ModuleRevisionId) (targetSourceSha256 : Sha256Digest)
      (diff : Option ModuleRevisionDiff) (blockers : List ModuleRollbackBlocker) (eligible : Bool)
  | review (review : ModuleMergeReview)
  | plan (plan : ResolvedModulePlan)
  | approval (approval : ApprovedModuleActivationPlan)
  | applied (applied : AppliedModuleRuntimePlan)

/-- The external functions of the module code. -/
structure ModuleExternals extends Externals where
  /-- `serde_json::to_vec`. -/
  toVec : ModuleDocument → Except String (List UInt8)

def canonicalSha256 (lib : ModuleExternals) (document : ModuleDocument) : Merging Sha256Digest := do
  let bytes ← mapErr .canonicalEncoding (lib.toVec document)
  mapErr .canonicalEncoding (Sha256Digest.parse (hexEncode (lib.sha256 bytes).toList))

/-! ## Checks -/

/-- `value.trim().is_empty() || value.chars().any(char::is_control)`. -/
def isInvalidName (value : String) : Bool := isBlank value || hasControl value

def validateResolutionContext (context : ModuleResolutionContext) : Merging Unit := do
  [("local_user_id", some context.localUserId), ("persona_id", context.personaId),
    ("character_id", context.characterId), ("conversation_id", context.conversationId),
    ("branch_id", context.branchId)].forM fun entry =>
      rejectIf (entry.2.any isInvalidName) (.invalidContext
        s!"{entry.1} must be non-empty and free of control characters")
  rejectIf (context.branchId.isSome ∧ context.conversationId = none)
    (.invalidContext "a branch context requires a conversation")

/-- The target fits the scope. -/
def bindingTargetValid (binding : ModuleBinding) : Bool :=
  match binding.scope with
  | .app | .user => binding.targetId.isNone && binding.conversationId.isNone
  | .persona | .character | .conversation =>
    binding.conversationId.isNone && binding.targetId.any fun target => !isInvalidName target
  | .branch =>
    binding.conversationId.isSome && binding.targetId.any fun target => !isInvalidName target

def validateBindingTarget (binding : ModuleBinding) : Merging Unit :=
  rejectIf (bindingTargetValid binding = false) (.invalidBindingTarget binding.id)

def bindingApplies (binding : ModuleBinding) (context : ModuleResolutionContext) : Bool :=
  match binding.scope with
  | .app | .user => true
  | .persona => binding.targetId = context.personaId
  | .character => binding.targetId = context.characterId
  | .conversation => binding.targetId = context.conversationId
  | .branch => binding.targetId = context.branchId && binding.conversationId = context.conversationId

/-! ## Orders -/

def scopeRank : ModuleScope → Nat
  | .app => 0 | .user => 1 | .persona => 2 | .character => 3 | .conversation => 4 | .branch => 5

/-- What `binding_order` compares in turn. -/
def bindingKey (b : ModuleBinding) :
    ℕ ×ₗ WithBot String ×ₗ WithBot String ×ₗ ℤ ×ₗ String ×ₗ String ×ₗ String :=
  toLex (scopeRank b.scope, toLex (b.targetId, toLex (b.conversationId, toLex (b.priority,
    toLex (b.id, toLex (b.moduleId, b.revisionId))))))

def bindingOrder (left right : ModuleBinding) : Bool := bindingKey left ≤ bindingKey right

/-- What `candidate_source_order` compares in turn. -/
def candidateSourceKey (s : ModuleCandidateSource) :
    ℕ ×ₗ WithBot String ×ₗ WithBot String ×ₗ ℤ ×ₗ String ×ₗ ℕ ×ₗ String ×ₗ String :=
  toLex (scopeRank s.scope, toLex (s.targetId, toLex (s.conversationId, toLex (s.priority,
    toLex (s.bindingId, toLex (s.moduleOrdinal.toNat, toLex (s.moduleId, s.revisionId)))))))

def candidateSourceOrder (left right : ModuleCandidateSource) : Bool :=
  candidateSourceKey left ≤ candidateSourceKey right

def resolvedComponentOrder (left right : ResolvedModuleComponent) : Bool :=
  toLex (candidateSourceKey left.selectedSource, left.component) ≤
    toLex (candidateSourceKey right.selectedSource, right.component)

/-- The derived `Ord` of `ModuleImportComponentAuthority`. -/
def authorityKey (a : ModuleImportComponentAuthority) :
    ModuleComponentRef ×ₗ Sha256Digest ×ₗ String ×ₗ Sha256Digest ×ₗ String ×ₗ String ×ₗ Sha256Digest ×ₗ
      WithBot Sha256Digest :=
  toLex (a.component, toLex (a.componentSha256, toLex (a.packageComponentId,
    toLex (a.packageComponentSha256, toLex (a.committedTargetObjectId, toLex (a.committedTargetRevisionId,
      toLex (a.committedResultSha256, a.committedContentSha256)))))))

/-! ## Revisions -/

def moduleComponents (m : ContentModule) : Merging (List ModuleComponentRef) :=
  let components := m.promptFragments.map (fun block => ModuleComponentRef.promptBlock block.id) ++
    m.controlSpecs.map (fun control => ModuleComponentRef.control control.id) ++
    m.knowledgeBookIds.map .knowledgeBook ++ m.transformSetIds.map .transformSet ++
    m.interactionRuleSetIds.map .interactionRuleSet ++ m.assetIds.map .asset
  if (sortedSet components).length ≠ components.length then
    .error (.invalidSnapshot "module component identifiers must be unique within each kind")
  else .ok components

def moduleComponentOrdinals (m : ContentModule) : Merging (OrdMap ModuleComponentRef UInt32) := do
  let components ← moduleComponents m
  let ordinals ← mapIdx (fun ordinal component => do
    let ordinal ← okOr (u32TryFrom ordinal) (.limitExceeded "module component")
    pure (component, ordinal)) components
  pure (.ofList ordinals)

def canonicalComponentHashes (snapshot : ModuleRevisionSnapshot) : Merging (List ComponentHash) :=
  let hashes := stableSort (fun left right => left.component ≤ right.component)
    snapshot.revision.componentHashes
  if adjacentEq (hashes.map (·.component)) then
    .error (.invalidSnapshot "revision component hashes contain a duplicate component")
  else .ok hashes

def validateRevisionSnapshot (lib : ModuleExternals) (snapshot : ModuleRevisionSnapshot) :
    Merging Unit := do
  mapErr (fun error => .invalidSnapshot s!"{error.path}: {error.reason}")
    (snapshot.module.validate lib.toExternals)
  rejectIf (snapshot.module.id ≠ snapshot.revision.moduleId ∨
      snapshot.module.version ≠ snapshot.revision.version)
    (.invalidSnapshot "module identity or version does not match its immutable revision")
  rejectIf (snapshot.revision.previousRevisionId = some snapshot.revision.id)
    (.invalidSnapshot "revision cannot name itself as its predecessor")
  let declared ← moduleComponents snapshot.module
  let hashed ← canonicalComponentHashes snapshot
  rejectIf (declared.insertionSort (· ≤ ·) ≠ hashed.map (·.component))
    (.invalidSnapshot "revision hashes do not exactly cover the module components")

/-- One snapshot of `validated_revision_map`. -/
def insertRevision (lib : ModuleExternals) (map : OrdMap ModuleRevisionId ModuleRevisionSnapshot)
    (snapshot : ModuleRevisionSnapshot) : Merging (OrdMap ModuleRevisionId ModuleRevisionSnapshot) := do
  validateRevisionSnapshot lib snapshot
  rejectIf (map.contains snapshot.revision.id = true) (.duplicateRevision snapshot.revision.id)
  pure (map.insert snapshot.revision.id snapshot)

def validatedRevisionMap (lib : ModuleExternals) (revisions : List ModuleRevisionSnapshot) :
    Merging (OrdMap ModuleRevisionId ModuleRevisionSnapshot) :=
  revisions.foldlM (insertRevision lib) .empty

/-! ## Import approvals -/

/-- The capability a component needs. -/
def requiredComponentCapability : ModuleComponentRef → Option ContentCapability
  | .promptBlock _ => some .promptFragments
  | .control _ => some .variables
  | .knowledgeBook _ => some .knowledge
  | .transformSet _ => some .transforms
  | .interactionRuleSet _ => some .declarativeInteractions
  | .asset _ => none

/-- The authority of an asset names the asset itself. -/
def assetAuthorityIsExact (evidence : ModuleImportApprovalEvidence)
    (authority : ModuleImportComponentAuthority) (component : ComponentHash) : Bool :=
  match component.component with
  | .asset id =>
    authority.packageComponentId = evidence.modulePackageComponentId &&
      authority.packageComponentSha256 = evidence.modulePackageComponentSha256 &&
      authority.committedTargetObjectId = id &&
      authority.committedTargetRevisionId = component.sha256.value &&
      authority.committedResultSha256 = component.sha256 &&
      authority.committedContentSha256.isSome
  | _ => authority.committedContentSha256.isNone

/-- The authority of one component of an imported module. -/
def validateComponentAuthority (invalid : String → ModuleMergeError)
    (evidence : ModuleImportApprovalEvidence) (component : ComponentHash) : Merging Unit := do
  let authority ← okOr
    (evidence.componentAuthorities.find? fun authority => authority.component = component.component)
    (invalid "module component has no completed package authority")
  rejectIf (authority.componentSha256 ≠ component.sha256 ∨
      authority.packageComponentId ∉ evidence.selectedPackageComponentIds ∨
      isBlank authority.packageComponentId ∨ isBlank authority.committedTargetObjectId ∨
      isBlank authority.committedTargetRevisionId ∨
      assetAuthorityIsExact evidence authority component = false)
    (invalid "module component authority differs from its exact committed revision")

/-- The evidence identifies the revision. -/
def evidenceNamesOther (snapshot : ModuleRevisionSnapshot) (evidence : ModuleImportApprovalEvidence) :
    Bool :=
  evidence.importRevision = 0 || evidence.moduleId ≠ snapshot.module.id ||
    evidence.moduleId ≠ snapshot.revision.moduleId ||
    evidence.moduleRevisionId ≠ snapshot.revision.id ||
    evidence.moduleRevisionSourceSha256 ≠ snapshot.revision.sourceHash ||
    snapshot.module.metadata.provenance.sourceId ≠ some evidence.packageId ||
    snapshot.module.metadata.provenance.sourceHash ≠ some evidence.packageSourceSha256.value

/-- The completed package authority of an imported module. -/
def validateImportEvidence (invalid : String → ModuleMergeError) (binding : ModuleBinding)
    (snapshot : ModuleRevisionSnapshot) (evidence : ModuleImportApprovalEvidence) : Merging Unit := do
  rejectIf (binding.packageImportApprovalId ≠ some evidence.approvalId)
    (invalid "binding approval id does not match completed package authority")
  [evidence.approvalId, evidence.importId, evidence.modulePackageComponentId].forM fun value =>
    rejectIf (isInvalidName value = true) (invalid "package authority contains an invalid identifier")
  rejectIf (evidenceNamesOther snapshot evidence = true)
    (invalid "package authority does not identify the exact imported module revision")
  let selected := evidence.selectedPackageComponentIds.insertionSort (· ≤ ·)
  rejectIf (selected ≠ evidence.selectedPackageComponentIds ∨ adjacentEq selected = true ∨
      evidence.modulePackageComponentId ∉ selected)
    (invalid "selected package component identifiers are not canonical or omit the module")
  let authorized := sortedSet evidence.authorizedCapabilities
  rejectIf (authorized ≠ evidence.authorizedCapabilities ∨
      ∃ capability ∈ snapshot.module.requiredCapabilities, capability ∉ authorized)
    (invalid "completed package authority does not cover required module capabilities")
  snapshot.revision.componentHashes.forM fun component =>
    rejectIf (∃ capability ∈ requiredComponentCapability component.component, capability ∉ authorized)
      (invalid "completed package authority lacks a component capability")
  let authorities := stableSort (fun left right => authorityKey left ≤ authorityKey right)
    evidence.componentAuthorities
  rejectIf (authorities ≠ evidence.componentAuthorities ∨
      adjacentEq (authorities.map (·.component)) = true ∨
      authorities.length ≠ snapshot.revision.componentHashes.length)
    (invalid "component package authorities are not canonical and exact")
  snapshot.revision.componentHashes.forM (validateComponentAuthority invalid evidence)

def validateModuleImportApproval (binding : ModuleBinding) (snapshot : ModuleRevisionSnapshot) :
    Merging (Option ModuleImportApprovalEvidence) :=
  if snapshot.module.metadata.provenance.sourceKind ≠ .importedPackage then
    if snapshot.importApproval.isSome ∨ binding.packageImportApprovalId.isSome then
      .error (.invalidImportApproval binding.id
        "non-package modules must not carry package approval authority")
    else .ok none
  else do
    let evidence ← okOr snapshot.importApproval (.missingImportApproval binding.id)
    validateImportEvidence (.invalidImportApproval binding.id) binding snapshot evidence
    pure (some evidence)

/-! ## The review -/

/-- One binding of the first loop. -/
def checkBinding (seen : List ModuleBindingId) (binding : ModuleBinding) :
    Merging (List ModuleBindingId) := do
  rejectIf (binding.id ∈ seen) (.duplicateBinding binding.id)
  validateBindingTarget binding
  mapErr (fun error => .invalidBinding binding.id error.display) binding.validate
  pure (seen ++ [binding.id])

/-- Why a binding is ignored. -/
def ignoredReason (context : ModuleResolutionContext) (activation : List ModuleBindingId)
    (binding : ModuleBinding) : Option IgnoredModuleBindingReason :=
  if !binding.enabled && !activation.contains binding.id then some .disabled
  else if !binding.approved && !activation.contains binding.id then some .awaitingApproval
  else if !bindingApplies binding context then some .differentTarget
  else none

/-- What the second loop pushes for a binding. -/
inductive BindingVerdict
  | ignored (binding : IgnoredModuleBinding)
  | applied (binding : ModuleBinding) (approval : Option ReviewedModuleImportApproval)

def BindingVerdict.ignored? : BindingVerdict → Option IgnoredModuleBinding
  | .ignored binding => some binding
  | .applied _ _ => none

def BindingVerdict.binding? : BindingVerdict → Option ModuleBinding
  | .ignored _ => none
  | .applied binding _ => some binding

def BindingVerdict.approval? : BindingVerdict → Option ReviewedModuleImportApproval
  | .ignored _ => none
  | .applied _ approval => approval

/-- A binding that applies, with the evidence of its import. -/
def applyBinding (revisionMap : OrdMap ModuleRevisionId ModuleRevisionSnapshot)
    (context : ModuleResolutionContext) (binding : ModuleBinding) : Merging BindingVerdict := do
  let snapshot ← okOr (revisionMap.get? binding.revisionId) (.missingRevision binding.revisionId)
  rejectIf (snapshot.module.id ≠ binding.moduleId ∨ snapshot.revision.moduleId ≠ binding.moduleId)
    (.bindingRevisionMismatch binding.id)
  snapshot.module.requiredCapabilities.forM fun capability =>
    rejectIf (capability ∉ context.supportedCapabilities) (.unsupportedCapability capability)
  let evidence ← validateModuleImportApproval binding snapshot
  pure (.applied binding (evidence.map fun evidence => ⟨binding.id, evidence⟩))

/-- One binding of the second loop. -/
def reviewBinding (revisionMap : OrdMap ModuleRevisionId ModuleRevisionSnapshot)
    (context : ModuleResolutionContext) (activation : List ModuleBindingId) (binding : ModuleBinding) :
    Merging BindingVerdict :=
  match ignoredReason context activation binding with
  | some reason => .ok (.ignored ⟨binding.id, reason⟩)
  | none => applyBinding revisionMap context binding

abbrev GroupedCandidates := OrdMap ModuleComponentRef (OrdMap Sha256Digest (List ModuleCandidateSource))

/-- `grouped.entry(component).or_default().entry(sha256).or_default().push(source)`. -/
def pushSource (grouped : GroupedCandidates) (component : ModuleComponentRef) (sha256 : Sha256Digest)
    (source : ModuleCandidateSource) : GroupedCandidates :=
  let hashes := (grouped.get? component).getD .empty
  grouped.insert component (hashes.insert sha256 ((hashes.get? sha256).getD [] ++ [source]))

/-- `matches!(component, TransformSet { .. } | InteractionRuleSet { .. })`. -/
def hasRuntimeIntent : ModuleComponentRef → Bool
  | .transformSet _ | .interactionRuleSet _ => true
  | _ => false

/-- The source of a component in a binding's revision. -/
def candidateSource (binding : ModuleBinding) (snapshot : ModuleRevisionSnapshot)
    (component : ModuleComponentRef) (ordinal : UInt32) : ModuleCandidateSource where
  bindingId := binding.id
  moduleId := binding.moduleId
  revisionId := binding.revisionId
  revisionSourceSha256 := snapshot.revision.sourceHash
  scope := binding.scope
  targetId := binding.targetId
  conversationId := binding.conversationId
  priority := binding.priority
  moduleOrdinal := ordinal
  runtimeEnabledIntent := snapshot.module.importedComponentsEnabled && hasRuntimeIntent component

/-- One component of a binding's revision. -/
def groupComponent (binding : ModuleBinding) (snapshot : ModuleRevisionSnapshot)
    (ordinals : OrdMap ModuleComponentRef UInt32) (grouped : GroupedCandidates)
    (component : ComponentHash) : Merging GroupedCandidates := do
  let ordinal ← okOr (ordinals.get? component.component)
    (.invalidSnapshot "revision hash has no declared module component")
  pure (pushSource grouped component.component component.sha256
    (candidateSource binding snapshot component.component ordinal))

/-- The components of one binding. -/
def groupBinding (revisionMap : OrdMap ModuleRevisionId ModuleRevisionSnapshot)
    (grouped : GroupedCandidates) (binding : ModuleBinding) : Merging GroupedCandidates := do
  let snapshot ← okOr (revisionMap.get? binding.revisionId) (.missingRevision binding.revisionId)
  let ordinals ← moduleComponentOrdinals snapshot.module
  let hashes ← canonicalComponentHashes snapshot
  hashes.foldlM (groupComponent binding snapshot ordinals) grouped

/-- The candidate of one hash. -/
def reviewCandidate (entry : Sha256Digest × List ModuleCandidateSource) :
    Merging ReviewedModuleCandidate := do
  let sources := stableSort candidateSourceOrder entry.2
  let representative ← okOr sources.getLast?
    (.invalidSnapshot "component candidate has no binding source")
  pure ⟨⟨representative.moduleId, representative.revisionId, entry.1⟩, sources⟩

/-- One component with its candidates. -/
def reviewComponent
    (entry : ModuleComponentRef × OrdMap Sha256Digest (List ModuleCandidateSource)) :
    Merging ReviewedModuleComponent := do
  let candidates ← entry.2.entries.mapM reviewCandidate
  pure ⟨entry.1, stableSort (fun left right => left.candidate ≤ right.candidate) candidates⟩

/-- The conflict of a component with several candidates. -/
def componentConflict (reviewed : ReviewedModuleComponent) : Option ModuleConflict :=
  if reviewed.candidates.length > 1 then
    some ⟨reviewed.component, reviewed.candidates.map (·.candidate),
      "same component identifier has distinct immutable hashes"⟩
  else none

def composeVariableOverrides (bindings : List ModuleBinding) : VariableMap :=
  bindings.foldl (fun effective binding => binding.variableOverrides.values.foldl
    (fun effective override => effective.insert override.var override.value) effective) ⟨[]⟩

/-- `module_merge_review_sha256` of a review. -/
def moduleMergeReviewSha256 (lib : ModuleExternals) (review : ModuleMergeReview) :
    Merging Sha256Digest :=
  canonicalSha256 lib (.reviewDigest review.stateRevision review.context review.activationBindingIds
    review.orderedBindings review.ignoredBindings review.components review.conflicts
    review.importApprovals review.effectiveVariableOverrides)

/-- The review of sorted bindings. -/
def reviewOrdered (lib : ModuleExternals) (stateRevision : UInt64) (context : ModuleResolutionContext)
    (activation : List ModuleBindingId)
    (revisionMap : OrdMap ModuleRevisionId ModuleRevisionSnapshot) (orderedBindings : List ModuleBinding)
    (importApprovals : List ReviewedModuleImportApproval) (ignoredBindings : List IgnoredModuleBinding) :
    Merging ModuleMergeReview := do
  let grouped ← orderedBindings.foldlM (groupBinding revisionMap) .empty
  let components ← grouped.entries.mapM reviewComponent
  let conflicts := components.filterMap componentConflict
  let components := stableSort (fun left right => left.component ≤ right.component) components
  let conflicts := stableSort (fun left right => left.component ≤ right.component) conflicts
  let canonicalContext :=
    { context with supportedCapabilities := sortedSet context.supportedCapabilities }
  let overrides := composeVariableOverrides orderedBindings
  let reviewSha256 ← canonicalSha256 lib (.reviewDigest stateRevision canonicalContext activation
    orderedBindings ignoredBindings components conflicts importApprovals overrides)
  pure ⟨reviewSha256, stateRevision, canonicalContext, activation, orderedBindings, ignoredBindings,
    components, conflicts, importApprovals, overrides⟩

def reviewModuleMergeInternal (lib : ModuleExternals) (stateRevision : UInt64)
    (context : ModuleResolutionContext) (bindings : List ModuleBinding)
    (revisions : List ModuleRevisionSnapshot) (activationBindingIds : List ModuleBindingId) :
    Merging ModuleMergeReview := do
  validateResolutionContext context
  rejectIf (bindings.length > maxModuleBindingsPerResolution) (.limitExceeded "binding")
  rejectIf (revisions.length > maxModuleRevisionsPerResolution) (.limitExceeded "revision")
  let activation := sortedSet activationBindingIds
  rejectIf (activation.length ≠ activationBindingIds.length)
    (.invalidActivationDraft "activation binding identifiers must be unique")
  let bindingIds ← bindings.foldlM checkBinding []
  rejectIf (¬ activation ⊆ bindingIds)
    (.invalidActivationDraft "activation review references an unknown binding")
  let revisionMap ← validatedRevisionMap lib revisions
  let verdicts ← bindings.mapM (reviewBinding revisionMap context activation)
  reviewOrdered lib stateRevision context activation revisionMap
    (stableSort bindingOrder (verdicts.filterMap (·.binding?)))
    (stableSort (fun left right => left.bindingId ≤ right.bindingId) (verdicts.filterMap (·.approval?)))
    (stableSort (fun left right =>
      toLex (left.bindingId, left.reason.rank) ≤ toLex (right.bindingId, right.reason.rank))
      (verdicts.filterMap (·.ignored?)))

def reviewModuleMerge (lib : ModuleExternals) (stateRevision : UInt64) (context : ModuleResolutionContext)
    (bindings : List ModuleBinding) (revisions : List ModuleRevisionSnapshot) :
    Merging ModuleMergeReview :=
  reviewModuleMergeInternal lib stateRevision context bindings revisions []

/-- `current_bindings` with the proposed binding in place of its current version, or at the end. -/
def proposeBinding (proposed : ModuleBinding) : List ModuleBinding → List ModuleBinding
  | [] => [proposed]
  | binding :: rest =>
    if binding.id = proposed.id then proposed :: rest else binding :: proposeBinding proposed rest

def reviewModuleActivation (lib : ModuleExternals) (expectedBindingRevision : Option UInt64)
    (context : ModuleResolutionContext) (currentBindings : List ModuleBinding)
    (proposed : ModuleBinding) (revisions : List ModuleRevisionSnapshot) : Merging ModuleMergeReview := do
  rejectIf (expectedBindingRevision = some 0)
    (.invalidActivationDraft "an existing binding revision must be positive")
  mapErr (fun error => .invalidActivationDraft error.display) proposed.validate
  rejectIf (proposed.enabled = true ∨ proposed.approved = true) (.invalidActivationDraft
    "a proposed activation must remain disabled and unapproved until commit")
  rejectIf (expectedBindingRevision.isSome ≠ currentBindings.any (fun binding => binding.id = proposed.id))
    (.invalidActivationDraft "expected binding revision does not match current binding existence")
  reviewModuleMergeInternal lib (expectedBindingRevision.getD 0) context
    (proposeBinding proposed currentBindings) revisions [proposed.id]

/-! ## The resolution -/

/-- One resolution of the set. -/
def collectResolution (conflictMap : OrdMap ModuleComponentRef ModuleConflict)
    (resolutions : OrdMap ModuleComponentRef ModuleConflictResolution)
    (resolution : ModuleConflictResolution) :
    Merging (OrdMap ModuleComponentRef ModuleConflictResolution) := do
  rejectIf (resolutions.contains resolution.component = true)
    (.duplicateResolution resolution.component)
  rejectIf (conflictMap.contains resolution.component = false) (.unknownResolution resolution.component)
  pure (resolutions.insert resolution.component resolution)

/-- The chosen candidate of a component with another number of candidates than one. -/
def selectConflicting (conflictMap : OrdMap ModuleComponentRef ModuleConflict)
    (resolutions : OrdMap ModuleComponentRef ModuleConflictResolution)
    (reviewed : ReviewedModuleComponent) : Merging (Option ReviewedModuleCandidate) := do
  let conflict ← okOr (conflictMap.get? reviewed.component)
    (.invalidReview "multi-candidate component has no conflict review")
  let resolution ← okOr (resolutions.get? reviewed.component) (.unresolvedConflict reviewed.component)
  rejectIf (resolution.expectedCandidates.insertionSort (· ≤ ·) ≠
      conflict.candidates.insertionSort (· ≤ ·)) (.staleConflictCandidates reviewed.component)
  match resolution.selected with
  | none => pure none
  | some selected => do
    let candidate ← okOr (reviewed.candidates.find? fun candidate => candidate.candidate = selected)
      (.unknownConflictCandidate reviewed.component)
    pure (some candidate)

/-- The chosen candidate of a component. -/
def selectCandidate (conflictMap : OrdMap ModuleComponentRef ModuleConflict)
    (resolutions : OrdMap ModuleComponentRef ModuleConflictResolution)
    (reviewed : ReviewedModuleComponent) : Merging (Option ReviewedModuleCandidate) :=
  if reviewed.candidates.length = 1 then .ok reviewed.candidates.head?
  else selectConflicting conflictMap resolutions reviewed

/-- What the loop pushes for a component. -/
inductive ComponentChoice
  | resolved (component : ResolvedModuleComponent)
  | omitted (component : ModuleComponentRef)

def ComponentChoice.resolved? : ComponentChoice → Option ResolvedModuleComponent
  | .resolved component => some component
  | .omitted _ => none

def ComponentChoice.omitted? : ComponentChoice → Option ModuleComponentRef
  | .resolved _ => none
  | .omitted component => some component

/-- The component as the chosen candidate brings it in. -/
def resolvedComponent (component : ModuleComponentRef) (selected : ReviewedModuleCandidate)
    (source : ModuleCandidateSource) : ResolvedModuleComponent where
  component := component
  sha256 := selected.candidate.componentHash
  selectedSource := source
  coalescedSources := selected.sources
  runtimeEnabled := source.runtimeEnabledIntent

/-- The choice as the loop records it. -/
def chooseCandidate (component : ModuleComponentRef) :
    Option ReviewedModuleCandidate → Merging ComponentChoice
  | none => .ok (.omitted component)
  | some selected => do
    let source ← okOr selected.sources.getLast?
      (.invalidReview "reviewed candidate has no binding source")
    pure (.resolved (resolvedComponent component selected source))

/-- One component of the loop. -/
def resolveComponent (conflictMap : OrdMap ModuleComponentRef ModuleConflict)
    (resolutions : OrdMap ModuleComponentRef ModuleConflictResolution)
    (reviewed : ReviewedModuleComponent) : Merging ComponentChoice := do
  let selected ← selectCandidate conflictMap resolutions reviewed
  chooseCandidate reviewed.component selected

/-- The final count of the resolutions. -/
def checkResolutionCount (conflicts : List ModuleConflict)
    (resolutions : OrdMap ModuleComponentRef ModuleConflictResolution) : Merging Unit :=
  if resolutions.entries.length = conflicts.length then .ok ()
  else do
    let unresolved ← okOr
      (conflicts.find? fun conflict => resolutions.contains conflict.component = false)
      (.invalidReview "conflict and resolution counts disagree")
    .error (.unresolvedConflict unresolved.component)

/-- `resolved_module_plan_sha256` of a plan. -/
def resolvedModulePlanSha256 (lib : ModuleExternals) (plan : ResolvedModulePlan) : Merging Sha256Digest :=
  canonicalSha256 lib (.planDigest plan.reviewSha256 plan.expectedStateRevision plan.activationBindingIds
    plan.orderedBindingIds plan.components plan.omittedComponents plan.importApprovals
    plan.effectiveVariableOverrides)

/-- The plan of the choices made for a review. -/
def planOfChoices (lib : ModuleExternals) (review : ModuleMergeReview) (choices : List ComponentChoice) :
    Merging ResolvedModulePlan := do
  let components := stableSort resolvedComponentOrder (choices.filterMap (·.resolved?))
  let omittedComponents := (choices.filterMap (·.omitted?)).insertionSort (· ≤ ·)
  let orderedBindingIds := review.orderedBindings.map (·.id)
  let planSha256 ← canonicalSha256 lib (.planDigest review.reviewSha256 review.stateRevision
    review.activationBindingIds orderedBindingIds components omittedComponents review.importApprovals
    review.effectiveVariableOverrides)
  pure ⟨planSha256, review.reviewSha256, review.stateRevision, review.activationBindingIds,
    orderedBindingIds, components, omittedComponents, review.importApprovals,
    review.effectiveVariableOverrides⟩

/-- `conflict_map`. -/
def conflictMapOf (conflicts : List ModuleConflict) : OrdMap ModuleComponentRef ModuleConflict :=
  .ofList (conflicts.map fun conflict => (conflict.component, conflict))

/-- `resolve_module_merge` after the review is verified. -/
def resolveReviewed (lib : ModuleExternals) (review : ModuleMergeReview)
    (resolutionSet : ModuleMergeResolutionSet) : Merging ResolvedModulePlan := do
  rejectIf (resolutionSet.expectedReviewSha256 ≠ review.reviewSha256) .staleReview
  let conflictMap := conflictMapOf review.conflicts
  let resolutions ← resolutionSet.resolutions.foldlM (collectResolution conflictMap) .empty
  let choices ← review.components.mapM (resolveComponent conflictMap resolutions)
  checkResolutionCount review.conflicts resolutions
  planOfChoices lib review choices

/-! ## Choices embedded in a plan -/

/-- The resolution of one conflict as a plan embeds it. -/
def selectionResolution (selected : OrdMap ModuleComponentRef ResolvedModuleComponent)
    (omitted : List ModuleComponentRef) (conflict : ModuleConflict) : Merging ModuleConflictResolution := do
  let selectedComponent := selected.get? conflict.component
  rejectIf (selectedComponent.isSome = omitted.contains conflict.component)
    (.invalidRuntimeMaterialization
      "plan does not select or omit each reviewed conflict exactly once")
  let candidate : Option ModuleConflictCandidate := selectedComponent.map fun component =>
    ⟨component.selectedSource.moduleId, component.selectedSource.revisionId, component.sha256⟩
  rejectIf (candidate.any (fun candidate => !conflict.candidates.contains candidate) = true)
    .runtimeDerivationChanged
  pure ⟨conflict.component, conflict.candidates, candidate⟩

def moduleMergeResolutionSetForSelection (review : ModuleMergeReview) (selection : ResolvedModulePlan) :
    Merging ModuleMergeResolutionSet := do
  let selected := OrdMap.ofList (selection.components.map fun component => (component.component, component))
  let resolutions ← review.conflicts.mapM (selectionResolution selected selection.omittedComponents)
  pure ⟨review.reviewSha256, resolutions⟩

def validateActivationApprovalId (approvalId : String) : Merging Unit :=
  rejectIf (isBlank approvalId ∨ approvalId.utf8ByteSize > maxModuleActivationApprovalIdBytes ∨
    hasControl approvalId) .invalidActivationApprovalId

def moduleActivationApprovalSha256 (lib : ModuleExternals) (approvalId : String)
    (plan : ResolvedModulePlan) : Merging Sha256Digest :=
  canonicalSha256 lib (.approvalDigest ⟨approvalId, plan.reviewSha256, plan.planSha256,
    plan.expectedStateRevision, plan.activationBindingIds⟩)

def appliedModuleRuntimePlanSha256 (lib : ModuleExternals) (sourceApproval : ApprovedModuleActivationPlan)
    (derivedFromPlanSha256 : Option Sha256Digest) (review : ModuleMergeReview)
    (plan : ResolvedModulePlan) : Merging Sha256Digest :=
  canonicalSha256 lib (.appliedDigest ⟨sourceApproval.approvalId, sourceApproval.approvalSha256,
    sourceApproval.plan.planSha256, derivedFromPlanSha256, review.reviewSha256, plan.planSha256⟩)

def validateRuntimeDerivationContext (source target : ModuleResolutionContext) : Merging Unit := do
  rejectIf (source = target) (.invalidRuntimeMaterialization
    "runtime derivation requires a distinct target context")
  rejectIf (source.localUserId ≠ target.localUserId ∨
      sortedSet source.supportedCapabilities ≠ sortedSet target.supportedCapabilities)
    .runtimeDerivationChanged

def sameRuntimePlanSelection (left right : ResolvedModulePlan) : Bool :=
  left.orderedBindingIds = right.orderedBindingIds && left.components = right.components &&
    left.omittedComponents = right.omittedComponents &&
    left.importApprovals = right.importApprovals &&
    left.effectiveVariableOverrides.eq right.effectiveVariableOverrides

end LorePia
