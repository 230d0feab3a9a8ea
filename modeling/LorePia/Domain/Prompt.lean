import Mathlib.Data.String.Basic
import Mathlib.Data.Prod.Lex
import Mathlib.Order.WithBot
import LorePia.Base.Ieee

/-!
# The prompt data model (`crates/domain/src/orchestration.rs`)

The persisted documents, the resolution request and the resolved plan, as the domain crate declares
them. Identifiers are the source's `string_id!` newtypes over `String` (ordered as strings are),
`u32` and `u64` fields are fixed-width words, `i32` and `i64` values are integers, an instant is an
`Int`. Fields that no modelled function reads (a preset's description and timestamps, its default
generation preset, its memory profile) are left out.
-/

namespace LorePia

open Base (F64)

abbrev PromptPresetId := String
abbrev PromptBlockId := String
abbrev ControlId := String
abbrev VariableId := String
abbrev MemoryRecordId := String
abbrev KnowledgeBookId := String
abbrev KnowledgeEntryId := String
abbrev TransformSetId := String
abbrev ContentModuleId := String
abbrev CacheBoundaryId := String
abbrev AssetId := String
abbrev PersonaId := String
abbrev GenerationPresetId := String
abbrev ConversationId := String
abbrev ConversationBranchId := String
abbrev MessageId := String

/-! ## Provenance, variables, conditions and templates -/

inductive SourceKind
  | applicationBuiltIn | userCreated | importedStandard | importedPackage | generated
deriving DecidableEq

structure Provenance where
  sourceKind : SourceKind
  sourceId : Option String
  sourceHash : Option String
  author : Option String
  license : Option String
  importedAt : Option Int
deriving DecidableEq

inductive VariableValue
  | bool (value : Bool)
  | integer (value : Int)
  | decimal (value : F64)
  | text (value : String)
  | enum (value : String)
  | stringList (values : List String)

/-- `PartialEq`: decimals compare as floating-point numbers. -/
def VariableValue.eq : VariableValue → VariableValue → Bool
  | .bool a, .bool b => a == b
  | .integer a, .integer b => a == b
  | .decimal a, .decimal b => a.eq b
  | .text a, .text b => a == b
  | .enum a, .enum b => a == b
  | .stringList a, .stringList b => a == b
  | _, _ => false

inductive VariableType
  | bool | integer | decimal | text | enum | stringList
deriving DecidableEq

inductive VariableScope
  | app | user | persona | character | conversation | branch | session | turn | module
deriving DecidableEq

/-- The declaration order. -/
def VariableScope.rank : VariableScope → Nat
  | .app => 0 | .user => 1 | .persona => 2 | .character => 3 | .conversation => 4
  | .branch => 5 | .session => 6 | .turn => 7 | .module => 8

structure VariableRef where
  scope : VariableScope
  ns : Option ContentModuleId
  id : VariableId
deriving DecidableEq

/-- The key of the derived `Ord`: scope, then namespace (`None` first), then id. -/
def VariableRef.key (v : VariableRef) : ℕ ×ₗ WithBot String ×ₗ String :=
  toLex (v.scope.rank, toLex (v.ns, v.id))

theorem VariableRef.key_injective : Function.Injective VariableRef.key := by
  rintro ⟨s, n, i⟩ ⟨s', n', i'⟩ h
  have h1 := congrArg (fun k => (ofLex k).1) h
  have h2 := congrArg (fun k => (ofLex (ofLex k).2).1) h
  have h3 := congrArg (fun k => (ofLex (ofLex k).2).2) h
  have hs : s = s' := by
    cases s <;> cases s' <;> first | rfl | simp [VariableRef.key, VariableScope.rank] at h1
  have hn : n = n' := h2
  have hi : i = i' := h3
  rw [hs, hn, hi]

instance : LinearOrder VariableRef := LinearOrder.lift' VariableRef.key VariableRef.key_injective

structure VariableBinding where
  var : VariableRef
  value : VariableValue

structure VariableMap where
  values : List VariableBinding

def VariableMap.get (m : VariableMap) (key : VariableRef) : Option VariableValue :=
  (m.values.find? (fun binding => binding.var = key)).map (·.value)

inductive CapabilityKey
  | streaming | reasoning | promptCaching | toolCalling | parallelToolCalling | structuredOutput
  | jsonMode | imageInput | audioInput | audioOutput | logprobs | seed | batch | background
  | contextWindow | maxOutputTokens
deriving DecidableEq

inductive ConditionExpr
  | true
  | false
  | equals (var : VariableRef) (value : VariableValue)
  | notEquals (var : VariableRef) (value : VariableValue)
  | greaterThan (var : VariableRef) (value : F64)
  | contains (var : VariableRef) (value : String)
  | existsVar (var : VariableRef)
  | modelSupports (capability : CapabilityKey)
  | all (expressions : List ConditionExpr)
  | any (expressions : List ConditionExpr)
  | not (expression : ConditionExpr)

inductive BuiltInTemplateValue
  | characterName | userName | personaName | personaDescription | currentDate | currentTime
deriving DecidableEq

mutual
inductive TemplatePart
  | text (value : String)
  | varRef (var : VariableRef)
  | builtIn (value : BuiltInTemplateValue)
  | slot (name : String)
  | join (var : VariableRef) (separator : String)
  | conditional (condition : ConditionExpr) (thenTemplate : SafeTemplate)
      (elseTemplate : Option SafeTemplate)

structure SafeTemplate where
  parts : List TemplatePart
  maxOutputChars : UInt32
end

structure SafeRegex where
  pattern : String
  caseInsensitive : Bool
deriving DecidableEq

/-! ## Presets -/

inductive RoleHint
  | system | developer | user | assistant | providerDefault
deriving DecidableEq

inductive InstructionAuthority
  | application | creator | user | conversation | importedContent
deriving DecidableEq

inductive PromptBlockKind
  | staticInstruction | characterIdentity | characterDescription | characterPersonality | scenario
  | userPersona | dialogueExamples | worldKnowledge | retrievedMemory | conversationSummary
  | historySlice | latestUserTurn | authorNote | postHistoryInstruction | assistantPrefill
  | groupContext
deriving DecidableEq

inductive PlacementZone
  | applicationPolicy | presetInstruction | characterContext | retrievedContext | olderHistory
  | recentEnhancement | recentHistory | postHistory | latestUser | assistantPrefill
deriving DecidableEq

/-- The declaration order. -/
def PlacementZone.rank : PlacementZone → Nat
  | .applicationPolicy => 0 | .presetInstruction => 1 | .characterContext => 2
  | .retrievedContext => 3 | .olderHistory => 4 | .recentEnhancement => 5
  | .recentHistory => 6 | .postHistory => 7 | .latestUser => 8 | .assistantPrefill => 9

inductive HistorySelector
  | all
  | beforeRecentTurns (recentTurns : UInt32)
  | recentTurns (count : UInt32)
  | excludingLatestUser (count : UInt32)
  | relativeMessageRange (start : Int) (stop : Option Int)
  | messageRange (start stop : MessageId)
  | sinceSummary (summaryId : MemoryRecordId)
deriving DecidableEq

structure TokenPolicy where
  priority : UInt16
  minTokens : Option UInt32
  maxTokens : Option UInt32
  reserveTokens : Option UInt32
deriving DecidableEq

inductive OverflowPolicy
  | reject | dropBlock | trimHead | trimTail | keepLatestItems | summarize | reduceKnowledgeEntries
deriving DecidableEq

inductive MergePolicy
  | separateMessage | mergeWithPreviousSameRole
deriving DecidableEq

inductive CharacterField
  | name | description | personality | scenario | firstMessage | dialogueExamples
  | systemInstruction | postHistoryInstruction
deriving DecidableEq

inductive BlockSource
  | template
  | characterField (field : CharacterField)
  | history
  | latestUser
  | selectedKnowledge
  | selectedMemory
  | conversationSummary
  | authorNote
  | userPersona
  | groupContext
deriving DecidableEq

structure PromptBlock where
  id : PromptBlockId
  name : String
  kind : PromptBlockKind
  enabled : Bool
  roleHint : RoleHint
  authority : InstructionAuthority
  template : Option SafeTemplate
  condition : Option ConditionExpr
  source : BlockSource
  placementZone : PlacementZone
  historySelector : Option HistorySelector
  tokenPolicy : TokenPolicy
  overflowPolicy : OverflowPolicy
  mergePolicy : MergePolicy
  provenance : Provenance

inductive ControlKind
  | toggle | select | multiSelect | text | number | slider | section | caption | divider
deriving DecidableEq

structure ControlOption where
  value : VariableValue
  label : String

structure ControlSpec where
  id : ControlId
  label : String
  description : String
  kind : ControlKind
  valueType : Option VariableType
  var : Option VariableRef
  defaultValue : Option VariableValue
  options : List ControlOption
  minimum : Option F64
  maximum : Option F64
  step : Option F64
  visibleWhen : Option ConditionExpr
  scope : VariableScope
  sensitive : Bool

inductive CacheRoleFilter
  | all
  | systemLike
  | exactRole (role : RoleHint)
deriving DecidableEq

inductive CacheTtl
  | providerDefault | short | long
deriving DecidableEq

inductive CacheMode
  | automatic | explicit | disabled
deriving DecidableEq

structure CacheBoundary where
  id : CacheBoundaryId
  afterBlockId : PromptBlockId
  roleFilter : CacheRoleFilter
  ttl : CacheTtl
  mode : CacheMode
deriving DecidableEq

structure PresetMetadata where
  tags : List String
  provenance : Provenance

structure PromptPreset where
  id : PromptPresetId
  name : String
  schemaVersion : UInt32
  blocks : List PromptBlock
  controls : List ControlSpec
  defaultValues : VariableMap
  knowledgeBookIds : List KnowledgeBookId
  transformSetIds : List TransformSetId
  moduleIds : List ContentModuleId
  cacheBoundaries : List CacheBoundary
  metadata : PresetMetadata

/-! ## The resolution context -/

inductive KnowledgePlacement
  | retrievedContext | beforeOlderHistory | beforeRecentHistory | postHistory
deriving DecidableEq

inductive KnowledgeActivationReason
  | always
  | manual
  | keyword (matched : String)
  | regex (pattern : String)
  | semantic (scoreMillionths : UInt32)
  | condition
  | recursive (parentId : KnowledgeEntryId)
deriving DecidableEq

structure CharacterPromptContent where
  characterId : String
  name : String
  aliases : List String
  description : String
  personality : String
  scenario : String
  firstMessage : String
  dialogueExamples : List String
  systemInstruction : String
  postHistoryInstruction : String
  alternateGreetings : List String
  knowledgeBookIds : List KnowledgeBookId
  assetIds : List AssetId

structure PersonaPromptContent where
  personaId : PersonaId
  name : String
  description : String

inductive PromptMessageRole
  | system | user | assistant
deriving DecidableEq

structure PromptConversationMessage where
  id : MessageId
  branchId : ConversationBranchId
  role : PromptMessageRole
  content : String
  turnIndex : UInt32
deriving DecidableEq

structure SelectedKnowledge where
  entryId : KnowledgeEntryId
  content : String
  placement : KnowledgePlacement
  priority : Int
  evidence : List KnowledgeActivationReason
  provenance : Provenance
deriving DecidableEq

structure SelectedMemory where
  recordId : MemoryRecordId
  branchId : ConversationBranchId
  content : String
  scoreMillionths : UInt32
  reason : String
  provenance : Provenance
deriving DecidableEq

structure SummaryBoundary where
  summaryId : MemoryRecordId
  endMessageId : MessageId
deriving DecidableEq

structure TemplateSlot where
  name : String
  value : String
deriving DecidableEq

structure PromptContextBindingEvidence where
  bindingId : String
  bindingRevision : UInt64
  documentSha256 : String
deriving DecidableEq

structure PromptContextPersonaEvidence where
  selectionRevision : UInt64
  personaId : PersonaId
  personaRevisionId : String
  personaSha256 : String
deriving DecidableEq

structure PromptSummarySourceEvidence where
  summaryId : MemoryRecordId
  recordBranchId : ConversationBranchId
  sourceStartMessageId : MessageId
  sourceEndMessageId : MessageId
  stateRevision : UInt64
  activeRevisionId : String
  activeRevisionSha256 : String
deriving DecidableEq

structure PromptContextSnapshotV1 where
  schemaVersion : UInt32
  conversationId : ConversationId
  sourceBranchId : ConversationBranchId
  contextHeadMessageId : Option MessageId
  localUserIdSha256 : String
  binding : Option PromptContextBindingEvidence
  persona : Option PromptContextPersonaEvidence
  conversationSummaryId : Option MemoryRecordId
  summaries : List PromptSummarySourceEvidence
  snapshotSha256 : String
deriving DecidableEq

structure PromptResolutionContext where
  conversationId : ConversationId
  branchId : ConversationBranchId
  character : CharacterPromptContent
  persona : Option PersonaPromptContent
  userName : String
  messages : List PromptConversationMessage
  latestUserMessageId : MessageId
  selectedKnowledge : List SelectedKnowledge
  selectedMemory : List SelectedMemory
  summaryBoundaries : List SummaryBoundary
  conversationSummary : Option String
  authorNote : Option String
  groupContext : Option String
  vars : VariableMap
  slots : List TemplateSlot
  currentDate : String
  currentTime : String
  supportedCapabilities : List CapabilityKey
  sessionSeed : Option UInt64
  contextSnapshot : Option PromptContextSnapshotV1

inductive ProviderMessageRole
  | system | developer | user | assistant
deriving DecidableEq

/-- The declaration order. -/
def ProviderMessageRole.rank : ProviderMessageRole → Nat
  | .system => 0 | .developer => 1 | .user => 2 | .assistant => 3

inductive UnsupportedRolePolicy
  | reject | mapDeveloperToSystem | mapSystemToDeveloper | useProviderDefault
deriving DecidableEq

structure ProviderPromptContract where
  supportedRoles : List ProviderMessageRole
  providerDefaultRole : ProviderMessageRole
  unsupportedRolePolicy : UnsupportedRolePolicy
  supportsExplicitCache : Bool
  maxCacheBoundaries : UInt32
deriving DecidableEq

structure PromptResolveRequest where
  preset : PromptPreset
  context : PromptResolutionContext
  provider : ProviderPromptContract
  generationPresetId : Option GenerationPresetId
  maxContextTokens : UInt32
  reservedOutputTokens : UInt32

/-! ## The resolved plan -/

structure ResolvedPromptMessage where
  sequence : UInt32
  blockId : PromptBlockId
  blockKind : PromptBlockKind
  requestedRole : RoleHint
  effectiveRole : ProviderMessageRole
  authority : InstructionAuthority
  content : String
  estimatedTokens : UInt32
  sourceMessageIds : List MessageId
  provenance : Provenance
deriving DecidableEq

inductive CacheDirectiveStatus
  | applied | ignoredUnsupported | ignoredLimit | removedWithBlock
deriving DecidableEq

structure ResolvedCacheDirective where
  boundaryId : CacheBoundaryId
  afterBlockId : PromptBlockId
  afterMessageSequence : Option UInt32
  roleFilter : CacheRoleFilter
  ttl : CacheTtl
  mode : CacheMode
  status : CacheDirectiveStatus
  explanation : String
deriving DecidableEq

inductive BlockResolutionStatus
  | included | conditionFalse | disabled | empty | droppedForBudget | trimmedHead | trimmedTail
  | reducedItems | summarized
deriving DecidableEq

structure PromptBlockSourceTrace where
  authority : InstructionAuthority
  sourceKind : SourceKind
  sourceId : Option String
  sourceRevision : Option String
  sourceHash : Option String
deriving DecidableEq

inductive PromptMemorySelectionLane
  | pinned | semantic | episodic
deriving DecidableEq

inductive PromptMemorySelectionReason
  | pinned
  | currentBranch
  | sharedAncestor (sourceBranchId : ConversationBranchId)
  | recency (scoreMillionths : UInt32)
  | similarity (scoreMillionths : UInt32)
  | importance (scoreMillionths : UInt32)
deriving DecidableEq

structure PromptMemorySelectionEvidence where
  recordId : MemoryRecordId
  selected : Bool
  lane : Option PromptMemorySelectionLane
  rankMillionths : Option UInt64
  estimatedTokens : UInt32
  reasons : List PromptMemorySelectionReason
  exclusionReason : Option String
deriving DecidableEq

structure KnowledgeSelectionEvidence where
  entryId : KnowledgeEntryId
  selected : Bool
  reasons : List KnowledgeActivationReason
  estimatedTokens : UInt32
  exclusionReason : Option String
deriving DecidableEq

structure BlockResolutionTrace where
  blockId : PromptBlockId
  blockKind : PromptBlockKind
  source : PromptBlockSourceTrace
  status : BlockResolutionStatus
  originalEstimatedTokens : UInt32
  finalEstimatedTokens : UInt32
  producedMessageCount : UInt32
  explanation : String
  knowledgeEvidence : List KnowledgeSelectionEvidence
  memoryRecordIds : List MemoryRecordId
  memoryEvidence : List PromptMemorySelectionEvidence
deriving DecidableEq

structure RoleMappingTrace where
  blockId : PromptBlockId
  requestedRole : RoleHint
  effectiveRole : ProviderMessageRole
  explanation : String
deriving DecidableEq

structure OverflowTrace where
  blockId : PromptBlockId
  policy : OverflowPolicy
  tokensBefore : UInt32
  tokensAfter : UInt32
  explanation : String
deriving DecidableEq

structure PromptResolutionTrace where
  estimatorId : String
  sessionSeed : Option UInt64
  contextSnapshot : Option PromptContextSnapshotV1
  maxContextTokens : UInt32
  reservedOutputTokens : UInt32
  availableInputTokens : UInt32
  estimatedInputTokens : UInt32
  blocks : List BlockResolutionTrace
  roleMappings : List RoleMappingTrace
  overflow : List OverflowTrace
  warnings : List String
deriving DecidableEq

structure PromptPreview where
  effectiveMessages : List ResolvedPromptMessage
  cacheDirectives : List ResolvedCacheDirective
  estimatedInputTokens : UInt32
  availableInputTokens : UInt32
deriving DecidableEq

structure ResolvedPromptPlan where
  schemaVersion : UInt32
  presetId : PromptPresetId
  generationPresetId : Option GenerationPresetId
  effectiveMessages : List ResolvedPromptMessage
  cacheDirectives : List ResolvedCacheDirective
  trace : PromptResolutionTrace
  preview : PromptPreview
  planHash : String
deriving DecidableEq

/-- The part of a plan that its hash covers (`HashMaterial` of `canonical_plan_hash`). -/
structure PlanHashMaterial where
  schemaVersion : UInt32
  presetId : PromptPresetId
  generationPresetId : Option GenerationPresetId
  effectiveMessages : List ResolvedPromptMessage
  cacheDirectives : List ResolvedCacheDirective
  trace : PromptResolutionTrace
  preview : PromptPreview

/-! ## What the code calls outside this model -/

/-- The external functions the prompt code uses: the `sha2` and `serde_json` crates, the standard
library's decimal formatting of an `f64`, and the portable macro renderer of `portable_text.rs`.
Every result about the resolver holds for all of them. -/
structure Externals where
  /-- `Sha256::digest`. -/
  sha256 : List UInt8 → Vector UInt8 32
  /-- `serde_json::to_vec` of a plan's hash material. -/
  planToVec : PlanHashMaterial → Except String (List UInt8)
  /-- `serde_json::to_vec` of a context snapshot's hash material (all fields but its digest). -/
  snapshotToVec : PromptContextSnapshotV1 → Except String (List UInt8)
  /-- `serde_json::to_string` of a variable value. -/
  variableValueToString : VariableValue → Except String String
  /-- `serde_json::from_str::<Vec<PromptMemorySelectionReason>>`. -/
  memoryReasonsFromStr : String → Option (List PromptMemorySelectionReason)
  /-- `f64::to_string`. -/
  displayF64 : F64 → String
  /-- `render_portable_text`. -/
  renderPortableText : String → PromptResolutionContext → String

end LorePia
