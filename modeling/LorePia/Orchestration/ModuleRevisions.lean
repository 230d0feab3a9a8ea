import LorePia.Base.Chain
import LorePia.Orchestration.Module

/-!
# Module revisions (`crates/orchestration/src/modules.rs`)

The diff of two revisions of a module (`diff_module_revisions`), the lineage of a revision
(`target_is_ancestor`) and the review of a rollback (`review_module_rollback`). The derived
`PartialEq` of a snapshot goes through the conditions and templates of its prompt fragments, where
decimals compare as floating-point numbers.
-/

namespace LorePia

open Base

/-! ## Equality of snapshots -/

/-- `PartialEq` of optional values. -/
def optionEq {α : Type} (eq : α → α → Bool) : Option α → Option α → Bool
  | none, none => true
  | some left, some right => eq left right
  | _, _ => false

mutual
/-- `PartialEq` of conditions. -/
def ConditionExpr.eq : ConditionExpr → ConditionExpr → Bool
  | .true, .true => Bool.true
  | .false, .false => Bool.true
  | .equals var value, .equals var' value' => var = var' && value.eq value'
  | .notEquals var value, .notEquals var' value' => var = var' && value.eq value'
  | .greaterThan var value, .greaterThan var' value' => var = var' && value.eq value'
  | .contains var value, .contains var' value' => var = var' && value = value'
  | .existsVar var, .existsVar var' => var = var'
  | .modelSupports capability, .modelSupports capability' => capability = capability'
  | .all expressions, .all expressions' => ConditionExpr.eqList expressions expressions'
  | .any expressions, .any expressions' => ConditionExpr.eqList expressions expressions'
  | .not expression, .not expression' => expression.eq expression'
  | _, _ => Bool.false

def ConditionExpr.eqList : List ConditionExpr → List ConditionExpr → Bool
  | [], [] => Bool.true
  | left :: lefts, right :: rights => left.eq right && ConditionExpr.eqList lefts rights
  | _, _ => Bool.false
end

mutual
/-- `PartialEq` of template parts. -/
def TemplatePart.eq : TemplatePart → TemplatePart → Bool
  | .text value, .text value' => value = value'
  | .varRef var, .varRef var' => var = var'
  | .builtIn value, .builtIn value' => value = value'
  | .slot name, .slot name' => name = name'
  | .join var separator, .join var' separator' => var = var' && separator = separator'
  | .conditional condition thenTemplate elseTemplate,
      .conditional condition' thenTemplate' elseTemplate' =>
    condition.eq condition' && thenTemplate.eq thenTemplate' &&
      SafeTemplate.eqOption elseTemplate elseTemplate'
  | _, _ => false

/-- `PartialEq` of templates. -/
def SafeTemplate.eq : SafeTemplate → SafeTemplate → Bool
  | ⟨parts, maxOutputChars⟩, ⟨parts', maxOutputChars'⟩ =>
    TemplatePart.eqList parts parts' && maxOutputChars = maxOutputChars'

def TemplatePart.eqList : List TemplatePart → List TemplatePart → Bool
  | [], [] => true
  | left :: lefts, right :: rights => left.eq right && TemplatePart.eqList lefts rights
  | _, _ => false

def SafeTemplate.eqOption : Option SafeTemplate → Option SafeTemplate → Bool
  | none, none => true
  | some left, some right => left.eq right
  | _, _ => false
end

/-- `PartialEq` of prompt blocks. -/
def PromptBlock.eq (left right : PromptBlock) : Bool :=
  left.id = right.id && left.name = right.name && left.kind = right.kind &&
    left.enabled = right.enabled && left.roleHint = right.roleHint &&
    left.authority = right.authority && optionEq SafeTemplate.eq left.template right.template &&
    optionEq ConditionExpr.eq left.condition right.condition && left.source = right.source &&
    left.placementZone = right.placementZone && left.historySelector = right.historySelector &&
    left.tokenPolicy = right.tokenPolicy && left.overflowPolicy = right.overflowPolicy &&
    left.mergePolicy = right.mergePolicy && left.provenance = right.provenance

/-- `PartialEq` of control options. -/
def ControlOption.eq (left right : ControlOption) : Bool :=
  left.value.eq right.value && left.label = right.label

/-- `PartialEq` of controls. -/
def ControlSpec.eq (left right : ControlSpec) : Bool :=
  left.id = right.id && left.label = right.label && left.description = right.description &&
    left.kind = right.kind && left.valueType = right.valueType && left.var = right.var &&
    optionEq VariableValue.eq left.defaultValue right.defaultValue &&
    listEq ControlOption.eq left.options right.options &&
    optionEq Ieee.eq left.minimum right.minimum && optionEq Ieee.eq left.maximum right.maximum &&
    optionEq Ieee.eq left.step right.step &&
    optionEq ConditionExpr.eq left.visibleWhen right.visibleWhen && left.scope = right.scope &&
    left.sensitive = right.sensitive

/-- `PartialEq` of modules. -/
def ContentModule.eq (left right : ContentModule) : Bool :=
  left.id = right.id && left.name = right.name && left.version = right.version &&
    left.schemaVersion = right.schemaVersion &&
    listEq PromptBlock.eq left.promptFragments right.promptFragments &&
    left.knowledgeBookIds = right.knowledgeBookIds &&
    listEq ControlSpec.eq left.controlSpecs right.controlSpecs &&
    left.transformSetIds = right.transformSetIds &&
    left.interactionRuleSetIds = right.interactionRuleSetIds && left.assetIds = right.assetIds &&
    left.portableRuntime = right.portableRuntime &&
    left.importedComponentsEnabled = right.importedComponentsEnabled &&
    left.requiredCapabilities = right.requiredCapabilities && left.metadata = right.metadata

/-- `PartialEq` of snapshots. -/
def ModuleRevisionSnapshot.eq (left right : ModuleRevisionSnapshot) : Bool :=
  left.module.eq right.module && left.revision = right.revision &&
    left.importApproval = right.importApproval

/-! ## The diff -/

/-- The canonical hashes by component. -/
def componentHashMap (snapshot : ModuleRevisionSnapshot) :
    Merging (OrdMap ModuleComponentRef Sha256Digest) := do
  let hashes ← canonicalComponentHashes snapshot
  pure (.ofList (hashes.map fun hash => (hash.component, hash.sha256)))

/-- One component of the loop. -/
def componentChange (fromHashes toHashes : OrdMap ModuleComponentRef Sha256Digest)
    (component : ModuleComponentRef) : Option ModuleComponentChange :=
  match fromHashes.get? component, toHashes.get? component with
  | none, some next => some ⟨component, .added, none, some next⟩
  | some previous, none => some ⟨component, .removed, some previous, none⟩
  | some previous, some next =>
    if previous ≠ next then some ⟨component, .modified, some previous, some next⟩ else none
  | none, none => none

def componentChanges (fromHashes toHashes : OrdMap ModuleComponentRef Sha256Digest) :
    List ModuleComponentChange :=
  (sortedSet (fromHashes.keys ++ toHashes.keys)).filterMap (componentChange fromHashes toHashes)

def capabilityChanges (source target : ContentModule) : ModuleCapabilityDiff where
  added := (sortedSet target.requiredCapabilities).filter fun capability =>
    capability ∉ source.requiredCapabilities
  removed := (sortedSet source.requiredCapabilities).filter fun capability =>
    capability ∉ target.requiredCapabilities

def metadataChangedFields (source target : ContentModule) : List String :=
  (if source.name ≠ target.name then ["name"] else []) ++
    (if source.version ≠ target.version then ["version"] else []) ++
    (if source.schemaVersion ≠ target.schemaVersion then ["schema_version"] else []) ++
    (if source.metadata ≠ target.metadata then ["metadata"] else [])

def diffModuleRevisions (lib : ModuleExternals) (source target : ModuleRevisionSnapshot) :
    Merging ModuleRevisionDiff := do
  validateRevisionSnapshot lib source
  validateRevisionSnapshot lib target
  rejectIf (source.module.id ≠ target.module.id ∨ source.revision.moduleId ≠ target.revision.moduleId)
    .differentModules
  rejectIf (source.revision.id = target.revision.id ∧ source.eq target = false)
    .corruptRevisionIdentity
  let fromHashes ← componentHashMap source
  let toHashes ← componentHashMap target
  let changes := componentChanges fromHashes toHashes
  let capabilities := capabilityChanges source.module target.module
  let fields := metadataChangedFields source.module target.module
  let diffSha256 ← canonicalSha256 lib (.diffDigest source.module.id source.revision.id
    target.revision.id source.revision.sourceHash target.revision.sourceHash changes capabilities fields)
  pure ⟨diffSha256, source.module.id, source.revision.id, target.revision.id,
    source.revision.sourceHash, target.revision.sourceHash, changes, capabilities, fields⟩

/-! ## Lineage -/

/-- One revision of the first loop: another revision under a known id must be the same. -/
def insertKnownRevision (revisions : OrdMap ModuleRevisionId ContentModuleRevision)
    (revision : ContentModuleRevision) :
    Except Unit (OrdMap ModuleRevisionId ContentModuleRevision) := do
  rejectIf ((revisions.get? revision.id).any (fun existing => existing ≠ revision) = true) ()
  pure (revisions.insert revision.id revision)

/-- The `while` loop of `target_is_ancestor`; the ids that are known and not yet visited get fewer. -/
def followRevisions (revisions : OrdMap ModuleRevisionId ContentModuleRevision)
    (moduleId : ContentModuleId) (target : ModuleRevisionId) (visited : List ModuleRevisionId) :
    Option ModuleRevisionId → Except Unit Bool
  | none => .ok false
  | some id =>
    if _hvisited : id ∈ visited then .error ()
    else if id = target then .ok true
    else
      match _hrevision : revisions.get? id with
      | none => .error ()
      | some revision =>
        if revision.moduleId ≠ moduleId then .error ()
        else followRevisions revisions moduleId target (id :: visited) revision.previousRevisionId
termination_by (revisions.keys.filter fun key => key ∉ visited).length
decreasing_by
  exact unvisited_lt (OrdMap.mem_keys.2 (by rw [OrdMap.contains, _hrevision]; rfl)) _hvisited

def targetIsAncestor (current target : ModuleRevisionSnapshot)
    (knownRevisions : List ContentModuleRevision) : Except Unit Bool := do
  let revisions ← (knownRevisions ++ [current.revision, target.revision]).foldlM
    insertKnownRevision .empty
  followRevisions revisions current.revision.moduleId target.revision.id []
    current.revision.previousRevisionId

/-! ## The rollback -/

/-- The declaration order. -/
def ModuleRollbackBlocker.rank : ModuleRollbackBlocker → Nat
  | .bindingDisabled => 0 | .bindingAwaitingApproval => 1 | .staleBinding => 2
  | .differentModule => 3 | .targetAlreadyActive => 4 | .targetNotAncestor => 5
  | .corruptRevisionLineage => 6 | .corruptSnapshot => 7 | .unsupportedSchemaVersion _ => 8
  | .scopeTargetMissing => 9 | .missingAsset _ => 10 | .unsupportedCapability _ => 11
  | .quarantinedTarget => 12 | .unresolvedConflict _ => 13

/-- What a blocker says beyond its variant. -/
def ModuleRollbackBlocker.detail :
    ModuleRollbackBlocker → ℕ ×ₗ String ×ₗ WithBot ContentCapability ×ₗ WithBot ModuleComponentRef
  | .unsupportedSchemaVersion schemaVersion => toLex (schemaVersion.toNat, toLex ("", toLex (⊥, ⊥)))
  | .missingAsset assetId => toLex (0, toLex (assetId, toLex (⊥, ⊥)))
  | .unsupportedCapability capability => toLex (0, toLex ("", toLex (capability, ⊥)))
  | .unresolvedConflict component => toLex (0, toLex ("", toLex (⊥, component)))
  | _ => toLex (0, toLex ("", toLex (⊥, ⊥)))

/-- The key of the derived `Ord`: the variant, then its field. -/
def ModuleRollbackBlocker.key (blocker : ModuleRollbackBlocker) :
    ℕ ×ₗ ℕ ×ₗ String ×ₗ WithBot ContentCapability ×ₗ WithBot ModuleComponentRef :=
  toLex (blocker.rank, blocker.detail)

theorem ModuleRollbackBlocker.key_injective : Function.Injective ModuleRollbackBlocker.key := by
  intro left right h
  have hrank : left.rank = right.rank := congrArg (fun key => (ofLex key).1) h
  have hdetail : left.detail = right.detail := congrArg (fun key => (ofLex key).2) h
  cases left <;> cases right <;> first | rfl | cases hrank
  case unsupportedSchemaVersion.unsupportedSchemaVersion =>
    exact congrArg _ (UInt32.toNat_inj.1 (congrArg (fun detail => (ofLex detail).1) hdetail))
  case missingAsset.missingAsset =>
    exact congrArg _ (congrArg (fun detail => (ofLex (ofLex detail).2).1) hdetail)
  case unsupportedCapability.unsupportedCapability =>
    exact congrArg _ (WithBot.coe_injective
      (congrArg (fun detail => (ofLex (ofLex (ofLex detail).2).2).1) hdetail))
  case unresolvedConflict.unresolvedConflict =>
    exact congrArg _ (WithBot.coe_injective
      (congrArg (fun detail => (ofLex (ofLex (ofLex detail).2).2).2) hdetail))

instance : LinearOrder ModuleRollbackBlocker :=
  LinearOrder.lift' ModuleRollbackBlocker.key ModuleRollbackBlocker.key_injective

/-- The blockers that the binding and the identities of the two revisions give. -/
def bindingBlockers (binding : ModuleBinding) (current target : ModuleRevisionSnapshot) :
    List ModuleRollbackBlocker :=
  (if binding.enabled then [] else [ModuleRollbackBlocker.bindingDisabled]) ++
    (if binding.approved then [] else [ModuleRollbackBlocker.bindingAwaitingApproval]) ++
    (if binding.revisionId ≠ current.revision.id then [ModuleRollbackBlocker.staleBinding] else []) ++
    (if binding.moduleId ≠ current.module.id ∨ current.module.id ≠ target.module.id ∨
        current.revision.moduleId ≠ target.revision.moduleId
      then [ModuleRollbackBlocker.differentModule] else []) ++
    (if current.revision.id = target.revision.id then [ModuleRollbackBlocker.targetAlreadyActive]
      else [])

/-- The blockers that the policy gives. -/
def policyBlockers (policy : ModuleRollbackPolicy) (target : ModuleRevisionSnapshot) :
    List ModuleRollbackBlocker :=
  (if policy.scopeTargetExists then [] else [ModuleRollbackBlocker.scopeTargetMissing]) ++
    (if target.module.schemaVersion > policy.maximumModuleSchemaVersion
      then [ModuleRollbackBlocker.unsupportedSchemaVersion target.module.schemaVersion] else []) ++
    ((target.module.requiredCapabilities.filter fun capability =>
      capability ∉ policy.supportedCapabilities).map ModuleRollbackBlocker.unsupportedCapability) ++
    ((target.module.assetIds.filter fun assetId =>
      assetId ∉ policy.availableAssetIds).map ModuleRollbackBlocker.missingAsset) ++
    (if target.revision.id ∈ policy.quarantinedRevisionIds
      then [ModuleRollbackBlocker.quarantinedTarget] else []) ++
    policy.unresolvedComponents.map ModuleRollbackBlocker.unresolvedConflict

/-- The blocker of the lineage. -/
def lineageBlockers : Except Unit Bool → List ModuleRollbackBlocker
  | .ok true => []
  | .ok false => [ModuleRollbackBlocker.targetNotAncestor]
  | .error () => [ModuleRollbackBlocker.corruptRevisionLineage]

/-- The diff that the review carries. -/
def rollbackDiff (lib : ModuleExternals) (current target : ModuleRevisionSnapshot) :
    Option ModuleRevisionDiff :=
  if (validateRevisionSnapshot lib current).isOk ∧ (validateRevisionSnapshot lib target).isOk ∧
      current.module.id = target.module.id
  then (diffModuleRevisions lib current target).toOption
  else none

/-- Every blocker, as the code pushes them. -/
def rollbackBlockers (lib : ModuleExternals) (binding : ModuleBinding)
    (current target : ModuleRevisionSnapshot) (knownRevisions : List ContentModuleRevision)
    (policy : ModuleRollbackPolicy) : List ModuleRollbackBlocker :=
  bindingBlockers binding current target ++ policyBlockers policy target ++
    (if (validateRevisionSnapshot lib current).isOk ∧ (validateRevisionSnapshot lib target).isOk
      then [] else [ModuleRollbackBlocker.corruptSnapshot]) ++
    lineageBlockers (targetIsAncestor current target knownRevisions) ++
    (if (rollbackDiff lib current target).isNone then [ModuleRollbackBlocker.corruptSnapshot] else [])

def reviewModuleRollback (lib : ModuleExternals) (binding : ModuleBinding)
    (current target : ModuleRevisionSnapshot) (knownRevisions : List ContentModuleRevision)
    (policy : ModuleRollbackPolicy) : Merging ModuleRollbackReview := do
  let diff := rollbackDiff lib current target
  let blockers := sortDedup (rollbackBlockers lib binding current target knownRevisions policy)
  let eligible := blockers.isEmpty && diff.isSome
  let reviewSha256 ← canonicalSha256 lib (.rollbackDigest policy.stateRevision binding.id
    current.revision.id current.revision.sourceHash target.revision.id target.revision.sourceHash
    diff blockers eligible)
  pure ⟨reviewSha256, policy.stateRevision, binding.id, current.revision.id,
    current.revision.sourceHash, target.revision.id, target.revision.sourceHash, diff, blockers,
    eligible⟩

end LorePia
