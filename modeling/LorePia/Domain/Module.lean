import LorePia.Base.OrdMap
import LorePia.Domain.Content
import LorePia.Domain.ValidatePreset

/-!
# Module documents (`crates/domain/src/orchestration.rs`)

Content modules, their immutable revisions, the bindings that apply a revision to a scope, and
conflicts between components, with the checks at the durable boundary (`ModuleBinding::validate`,
`ContentModule::validate` of `compatibility_validation.rs`). A module's portable runtime is a
`CharacterRuntimeProfile` (`crates/domain/src/character.rs`).
-/

namespace LorePia

open Base

abbrev ModuleRevisionId := String
abbrev ModuleBindingId := String
abbrev LocalUserId := String

deriving instance DecidableEq for VariableValue
deriving instance DecidableEq for VariableBinding
deriving instance DecidableEq for VariableMap

/-- `PartialEq` of variable maps. -/
def VariableMap.eq (left right : VariableMap) : Bool :=
  listEq VariableBinding.eq left.values right.values

/-! ## Components and conflicts -/

inductive ModuleComponentRef
  | promptBlock (id : PromptBlockId)
  | control (id : ControlId)
  | knowledgeBook (id : KnowledgeBookId)
  | transformSet (id : TransformSetId)
  | interactionRuleSet (id : InteractionRuleSetId)
  | asset (id : AssetId)
deriving DecidableEq

/-- The key of the derived `Ord`: the variant, then the id. -/
def ModuleComponentRef.key : ModuleComponentRef → ℕ ×ₗ String
  | .promptBlock id => toLex (0, id)
  | .control id => toLex (1, id)
  | .knowledgeBook id => toLex (2, id)
  | .transformSet id => toLex (3, id)
  | .interactionRuleSet id => toLex (4, id)
  | .asset id => toLex (5, id)

theorem ModuleComponentRef.key_injective : Function.Injective ModuleComponentRef.key := by
  intro a b h
  cases a <;> cases b <;>
    simp only [ModuleComponentRef.key, toLex_inj, Prod.mk.injEq, OfNat.ofNat_ne_zero,
      OfNat.zero_ne_ofNat, OfNat.ofNat_ne_one, OfNat.one_ne_ofNat, zero_ne_one, one_ne_zero,
      false_and, true_and, Nat.reduceEqDiff] at h <;> rw [h]

instance : LinearOrder ModuleComponentRef :=
  LinearOrder.lift' ModuleComponentRef.key ModuleComponentRef.key_injective

structure ComponentHash where
  component : ModuleComponentRef
  sha256 : Sha256Digest
deriving DecidableEq

structure ModuleConflictCandidate where
  moduleId : ContentModuleId
  revisionId : ModuleRevisionId
  componentHash : Sha256Digest
deriving DecidableEq

/-- The key of the derived `Ord`. -/
def ModuleConflictCandidate.key (c : ModuleConflictCandidate) : String ×ₗ String ×ₗ Sha256Digest :=
  toLex (c.moduleId, toLex (c.revisionId, c.componentHash))

theorem ModuleConflictCandidate.key_injective : Function.Injective ModuleConflictCandidate.key := by
  rintro ⟨m, r, h⟩ ⟨m', r', h'⟩ hkey
  simp only [ModuleConflictCandidate.key, toLex_inj, Prod.mk.injEq] at hkey
  rw [hkey.1, hkey.2.1, hkey.2.2]

instance : LinearOrder ModuleConflictCandidate :=
  LinearOrder.lift' ModuleConflictCandidate.key ModuleConflictCandidate.key_injective

structure ModuleConflict where
  component : ModuleComponentRef
  candidates : List ModuleConflictCandidate
  reason : String
deriving DecidableEq

structure ModuleConflictResolution where
  component : ModuleComponentRef
  /-- The reviewed candidates. -/
  expectedCandidates : List ModuleConflictCandidate
  /-- `none` disables every candidate for this component. -/
  selected : Option ModuleConflictCandidate
deriving DecidableEq

/-! ## Portable runtimes -/

instance {κ ν : Type} [LinearOrder κ] [DecidableEq ν] : DecidableEq (OrdMap κ ν) := fun left right =>
  decidable_of_iff (left.entries = right.entries) ⟨OrdMap.ext_entries, congrArg OrdMap.entries⟩

inductive PortableTransformPhase
  | requestContext | providerOutput | display
deriving DecidableEq

structure PortableTextTransform where
  id : String
  name : String
  phase : PortableTransformPhase
  enabled : Bool
  pattern : String
  replacement : String
  flags : String
  metadata : OrdMap String String
deriving DecidableEq

inductive PortableRuntimeCapability
  | runtimeCallbacks | chatRead | chatWrite | stateReadWrite | profileRead | loreRead | uiWrite
  | modelPrimary | modelAuxiliary | elevated
deriving DecidableEq

structure PortableRuntimeScript where
  id : String
  name : String
  event : String
  language : String
  source : String
  elevatedAccess : Bool
  metadata : OrdMap String String
deriving DecidableEq

structure CharacterRuntimeProfile where
  sourceId : Option String
  transformSetId : Option TransformSetId
  transforms : List PortableTextTransform
  scripts : List PortableRuntimeScript
  requiredCapabilities : Option (List PortableRuntimeCapability)
  backgroundMarkup : String
  additionalText : String
  toggleSchema : String
  initialVariables : OrdMap String String
  metadata : OrdMap String String
deriving DecidableEq

/-! ## Modules and revisions -/

structure PackageMetadata where
  author : Option String
  license : String
  redistributionAllowed : Bool
  homepage : Option String
  description : String
  tags : List String
  provenance : Provenance
deriving DecidableEq

structure ContentModule where
  id : ContentModuleId
  name : String
  version : String
  schemaVersion : UInt32
  promptFragments : List PromptBlock
  knowledgeBookIds : List KnowledgeBookId
  controlSpecs : List ControlSpec
  transformSetIds : List TransformSetId
  interactionRuleSetIds : List InteractionRuleSetId
  assetIds : List AssetId
  /-- Scripts, transforms and controls for an approved binding. -/
  portableRuntime : Option CharacterRuntimeProfile
  /-- Author intent for the transform and interaction components. -/
  importedComponentsEnabled : Bool
  requiredCapabilities : List ContentCapability
  metadata : PackageMetadata

structure ContentModuleRevision where
  id : ModuleRevisionId
  moduleId : ContentModuleId
  version : String
  sourceHash : Sha256Digest
  previousRevisionId : Option ModuleRevisionId
  componentHashes : List ComponentHash
  createdAt : Int
deriving DecidableEq

/-- `portable_runtime.is_some()`. -/
def ContentModule.hasPortableRuntime (m : ContentModule) : Bool := m.portableRuntime.isSome

/-- A prompt fragment of a module. -/
def validatePromptFragment (index : Nat) (block : PromptBlock) : Validation Unit := do
  validatePromptBlock block s!"prompt_fragments[{index}]"
  rejectIf (block.kind = .latestUserTurn ∨ block.placementZone = .applicationPolicy)
    ⟨s!"prompt_fragments[{index}]",
      "modules cannot replace fixed application or latest-user blocks"⟩

/-- The number of components of a module. -/
def ContentModule.componentCount (m : ContentModule) : Nat :=
  m.promptFragments.length + m.knowledgeBookIds.length + m.controlSpecs.length +
    m.transformSetIds.length + m.interactionRuleSetIds.length + m.assetIds.length

def ContentModule.validate (lib : Externals) (m : ContentModule) : Validation Unit := do
  validateId "id" m.id
  validateText "name" m.name 1 maxNameChars
  validateText "version" m.version 1 maxIdentifierChars
  rejectIf (m.schemaVersion = 0) ⟨"schema_version", "must be positive"⟩
  rejectIf (m.componentCount > maxModuleComponents)
    ⟨"components", s!"must contain at most {maxModuleComponents} components"⟩
  validateText "metadata.license" m.metadata.license 1 maxNameChars
  validateText "metadata.description" m.metadata.description 0 16384
  validateProvenance m.metadata.provenance "metadata.provenance"
  forIdx validatePromptFragment m.promptFragments
  rejectIf (hasDuplicate (m.promptFragments.map (·.id)))
    ⟨"prompt_fragments", "block identifiers must be unique"⟩
  forIdx (fun index control => validateControl lib control s!"control_specs[{index}]") m.controlSpecs
  rejectIf (hasDuplicate m.requiredCapabilities)
    ⟨"required_capabilities", "capabilities must be unique"⟩
  rejectIf (m.hasPortableRuntime ≠ m.requiredCapabilities.contains .portableRuntime)
    ⟨"portable_runtime",
      "portable runtime content requires exactly one matching capability declaration"⟩

/-! ## Bindings -/

inductive ModuleScope
  | app | user | persona | character | conversation | branch
deriving DecidableEq

inductive ModuleRevisionResolutionMode
  | active | pinned
deriving DecidableEq

structure ModuleBinding where
  id : ModuleBindingId
  moduleId : ContentModuleId
  scope : ModuleScope
  targetId : Option String
  /-- Owning conversation for a branch-scoped target. -/
  conversationId : Option ConversationId
  priority : Int
  resolutionMode : ModuleRevisionResolutionMode
  pinnedRevisionId : Option ModuleRevisionId
  enabled : Bool
  approved : Bool
  packageImportApprovalId : Option String
  activationApprovalId : Option String
  activationReviewSha256 : Option Sha256Digest
  activationPlanSha256 : Option Sha256Digest
  variableOverrides : VariableMap
  revisionId : ModuleRevisionId
  createdAt : Int
deriving DecidableEq

/-- The derived `PartialEq`. -/
def ModuleBinding.eq (left right : ModuleBinding) : Bool :=
  left.variableOverrides.eq right.variableOverrides &&
    { left with variableOverrides := right.variableOverrides } = right

/-- The scope, target and owning conversation of a binding. -/
def validateModuleBindingTarget (binding : ModuleBinding) : Validation Unit :=
  match binding.scope, binding.targetId, binding.conversationId with
  | .app, none, none => .ok ()
  | .user, none, none => .ok ()
  | .persona, some target, none => validateId "target_id" target
  | .character, some target, none => validateId "target_id" target
  | .conversation, some target, none => validateId "target_id" target
  | .branch, some target, some conversationId => do
    validateId "target_id" target
    validateId "conversation_id" conversationId
  | _, _, _ => .error ⟨"target_id",
      "module binding scope, target, and owning conversation are inconsistent"⟩

/-- The pin of a binding. -/
def validateModuleBindingPin (binding : ModuleBinding) : Validation Unit :=
  match binding.resolutionMode, binding.pinnedRevisionId with
  | .active, none => .ok ()
  | .pinned, some pinned =>
    rejectIf (pinned ≠ binding.revisionId) ⟨"pinned_revision_id",
      "pinned mode requires the exact resolved revision; active mode forbids a pin"⟩
  | _, _ => .error ⟨"pinned_revision_id",
      "pinned mode requires the exact resolved revision; active mode forbids a pin"⟩

def validateModuleBindingActivation (binding : ModuleBinding) : Validation Unit :=
  match binding.approved, binding.activationApprovalId, binding.activationReviewSha256,
      binding.activationPlanSha256 with
  | false, none, none, none => .ok ()
  | true, some approvalId, some reviewSha256, some planSha256 => do
    validateId "activation_approval_id" approvalId
    validateSha256 "activation_review_sha256" reviewSha256.value
    validateSha256 "activation_plan_sha256" planSha256.value
  | _, _, _, _ => .error ⟨"approved",
      "approval state requires one complete activation id, review hash, and plan hash tuple"⟩

def ModuleBinding.validate (binding : ModuleBinding) : Validation Unit := do
  validateId "id" binding.id
  validateId "module_id" binding.moduleId
  validateId "revision_id" binding.revisionId
  validateModuleBindingTarget binding
  validateModuleBindingPin binding
  forSome binding.packageImportApprovalId fun approvalId =>
    validateId "package_import_approval_id" approvalId
  validateModuleBindingActivation binding
  validateVariableMap binding.variableOverrides "variable_overrides"

end LorePia
