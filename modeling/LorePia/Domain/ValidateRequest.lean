import LorePia.Domain.ValidatePreset

/-!
# Resolution requests (`crates/domain/src/orchestration.rs`)

`PromptResolveRequest::validate`: the preset, the token limits, the provider's role contract, and
the materialized context with its optional content-free snapshot.
-/

namespace LorePia

open Base

/-! ## Limits, provider contract and context lists -/

def validatePromptRequestLimits (request : PromptResolveRequest) : Validation Unit := do
  rejectIf (request.maxContextTokens = 0) ⟨"max_context_tokens", "must be positive"⟩
  rejectIf (request.reservedOutputTokens ≥ request.maxContextTokens)
    ⟨"reserved_output_tokens", "must be smaller than the context limit"⟩

def validateProviderPromptContract (provider : ProviderPromptContract) : Validation Unit := do
  rejectIf provider.supportedRoles.isEmpty
    ⟨"provider.supported_roles", "must contain at least one role"⟩
  rejectIf (hasDuplicate (provider.supportedRoles.map (·.rank)) ∨
      ¬ provider.supportedRoles.contains provider.providerDefaultRole)
    ⟨"provider.supported_roles", "roles must be unique and contain the provider default"⟩
  rejectIf (provider.supportsExplicitCache ≠ decide (provider.maxCacheBoundaries > 0))
    ⟨"provider.max_cache_boundaries",
      "must be positive exactly when explicit caching is supported"⟩

/-- The latest user message of a context. -/
def PromptResolutionContext.latest (context : PromptResolutionContext) :
    Option PromptConversationMessage :=
  context.messages.find? (fun message => message.id = context.latestUserMessageId)

def validatePromptContextMessages (context : PromptResolutionContext) : Validation Unit := do
  rejectIf (context.messages.length > maxHistoryMessages)
    ⟨"context.messages", s!"must contain at most {maxHistoryMessages} messages"⟩
  rejectIf (hasDuplicate (context.messages.map (·.id)))
    ⟨"context.messages", "message identifiers must be unique"⟩
  rejectIf (¬ context.latest.any (fun message => message.role = .user ∧
      message.branchId = context.branchId ∧ ¬ message.content.isEmpty))
    ⟨"context.latest_user_message_id",
      "must identify a non-empty user message on the active branch"⟩

def validatePromptContextSelectionIds (context : PromptResolutionContext) : Validation Unit := do
  rejectIf (context.selectedKnowledge.length > maxKnowledgeEntries)
    ⟨"context.selected_knowledge", s!"must contain at most {maxKnowledgeEntries} entries"⟩
  rejectIf (hasDuplicate (context.selectedKnowledge.map (·.entryId)))
    ⟨"context.selected_knowledge", "entry identifiers must be unique"⟩
  rejectIf (context.selectedMemory.length > maxMemoryRecords)
    ⟨"context.selected_memory", s!"must contain at most {maxMemoryRecords} records"⟩
  rejectIf (hasDuplicate (context.selectedMemory.map (·.recordId)))
    ⟨"context.selected_memory", "record identifiers must be unique"⟩

def validatePromptContextSummariesAndSlots (context : PromptResolutionContext) :
    Validation Unit := do
  rejectIf (hasDuplicate (context.summaryBoundaries.map (·.summaryId)))
    ⟨"context.summary_boundaries", "summary identifiers must be unique"⟩
  rejectIf (context.summaryBoundaries.any fun boundary => ¬ context.messages.any fun message =>
      message.id = boundary.endMessageId ∧ message.branchId = context.branchId)
    ⟨"context.summary_boundaries",
      "every summary boundary must reference an active-branch message"⟩
  rejectIf (hasDuplicate (context.slots.map (·.name)))
    ⟨"context.slots", "template slot names must be unique"⟩
  rejectIf ((context.slots.map (·.name)).contains "block_content")
    ⟨"context.slots", "`block_content` is reserved for block materialization"⟩

/-! ## The context snapshot -/

def promptContextSnapshotSha256 (lib : Externals) (snapshot : PromptContextSnapshotV1) :
    Validation String := do
  let encoded ← mapErr (fun error =>
    ⟨"context.context_snapshot", s!"cannot encode prompt context snapshot: {error}"⟩)
    (lib.snapshotToVec snapshot)
  return hexEncode (lib.sha256 encoded).toList

def validatePromptContextSnapshotHeader (lib : Externals) (snapshot : PromptContextSnapshotV1) :
    Validation Unit := do
  rejectIf (snapshot.schemaVersion ≠ 1)
    ⟨"context.context_snapshot.schema_version", "unsupported prompt context snapshot schema"⟩
  validateId "context.context_snapshot.conversation_id" snapshot.conversationId
  validateId "context.context_snapshot.source_branch_id" snapshot.sourceBranchId
  validateSha256 "context.context_snapshot.local_user_id_sha256" snapshot.localUserIdSha256
  validateSha256 "context.context_snapshot.snapshot_sha256" snapshot.snapshotSha256
  let digest ← promptContextSnapshotSha256 lib snapshot
  rejectIf (digest ≠ snapshot.snapshotSha256)
    ⟨"context.context_snapshot.snapshot_sha256",
      "prompt context snapshot fingerprint does not match its evidence"⟩

def validatePromptContextSnapshotBinding (binding : Option PromptContextBindingEvidence) :
    Validation Unit :=
  forSome binding fun binding => do
    validateId "context.context_snapshot.binding.binding_id" binding.bindingId
    rejectIf (binding.bindingRevision = 0)
      ⟨"context.context_snapshot.binding.binding_revision", "binding revision must be positive"⟩
    validateSha256 "context.context_snapshot.binding.document_sha256" binding.documentSha256

def validatePromptContextSnapshotPersona (persona : Option PromptContextPersonaEvidence) :
    Validation Unit :=
  forSome persona fun persona => do
    rejectIf (persona.selectionRevision = 0)
      ⟨"context.context_snapshot.persona.selection_revision",
        "persona selection revision must be positive"⟩
    validateId "context.context_snapshot.persona.persona_id" persona.personaId
    validateId "context.context_snapshot.persona.persona_revision_id" persona.personaRevisionId
    validateSha256 "context.context_snapshot.persona.persona_sha256" persona.personaSha256

def validatePromptSummarySourceEvidence (index : Nat) (summary : PromptSummarySourceEvidence) :
    Validation Unit := do
  let path := s!"context.context_snapshot.summaries[{index}]"
  validateId s!"{path}.summary_id" summary.summaryId
  validateId s!"{path}.record_branch_id" summary.recordBranchId
  validateId s!"{path}.source_start_message_id" summary.sourceStartMessageId
  validateId s!"{path}.source_end_message_id" summary.sourceEndMessageId
  rejectIf (summary.stateRevision = 0)
    ⟨s!"{path}.state_revision", "memory state revision must be positive"⟩
  validateId s!"{path}.active_revision_id" summary.activeRevisionId
  validateSha256 s!"{path}.active_revision_sha256" summary.activeRevisionSha256

/-- `validate_prompt_context_snapshot_summaries`; the source sorts the identifiers it returns, and
both of its callers only test membership in them. -/
def validatePromptContextSnapshotSummaries (snapshot : PromptContextSnapshotV1) :
    Validation (List MemoryRecordId) := do
  rejectIf (snapshot.summaries.length > maxPromptBlocks)
    ⟨"context.context_snapshot.summaries",
      s!"must contain at most {maxPromptBlocks} summary sources"⟩
  forIdx validatePromptSummarySourceEvidence snapshot.summaries
  let summaryIds := (snapshot.summaries.map (·.summaryId)).insertionSort (· ≤ ·)
  rejectIf (adjacentEq summaryIds)
    ⟨"context.context_snapshot.summaries", "summary source identifiers must be unique"⟩
  return summaryIds

def promptContextSnapshotDiffersFromMaterialized (snapshot : PromptContextSnapshotV1)
    (context : PromptResolutionContext) (summaryIds : List MemoryRecordId) : Bool :=
  snapshot.conversationId ≠ context.conversationId ||
    snapshot.contextHeadMessageId.any
      (fun head => !context.messages.any (fun message => message.id = head)) ||
    context.summaryBoundaries.any (fun boundary => !summaryIds.contains boundary.summaryId) ||
    snapshot.conversationSummaryId.isSome != context.conversationSummary.isSome

def validatePromptContextSnapshot (lib : Externals) (snapshot : PromptContextSnapshotV1)
    (context : Option PromptResolutionContext) : Validation Unit := do
  validatePromptContextSnapshotHeader lib snapshot
  validatePromptContextSnapshotBinding snapshot.binding
  validatePromptContextSnapshotPersona snapshot.persona
  let summaryIds ← validatePromptContextSnapshotSummaries snapshot
  rejectIf (snapshot.conversationSummaryId.any (fun id => !summaryIds.contains id))
    ⟨"context.context_snapshot.conversation_summary_id",
      "selected conversation summary must have exact source evidence"⟩
  rejectIf (context.any fun context =>
      promptContextSnapshotDiffersFromMaterialized snapshot context summaryIds)
    ⟨"context.context_snapshot",
      "prompt context snapshot differs from the materialized context"⟩

/-! ## Context text -/

def validateCharacterPromptText (character : CharacterPromptContent) : Validation Unit := do
  validateText "context.character.character_id" character.characterId 1 maxIdentifierChars
  validateText "context.character.name" character.name 1 maxNameChars
  forIdx (fun _ (fieldValue : String × String) =>
    validateText s!"context.character.{fieldValue.1}" fieldValue.2 0 maxBlockTextChars)
    [("description", character.description), ("personality", character.personality),
      ("scenario", character.scenario), ("first_message", character.firstMessage),
      ("system_instruction", character.systemInstruction),
      ("post_history_instruction", character.postHistoryInstruction)]
  rejectIf (character.aliases.length > 128 ∨ character.dialogueExamples.length > 256 ∨
      character.alternateGreetings.length > 128 ∨ character.knowledgeBookIds.length > 128 ∨
      character.assetIds.length > maxModuleComponents)
    ⟨"context.character", "character content collection exceeds its bound"⟩
  forIdx (fun _ (list : String × List String × Nat) =>
    forIdx (fun index value =>
      validateText s!"context.character.{list.1}[{index}]" value 1 list.2.2) list.2.1)
    [("aliases", character.aliases, maxNameChars),
      ("dialogue_examples", character.dialogueExamples, maxBlockTextChars),
      ("alternate_greetings", character.alternateGreetings, maxBlockTextChars)]

def validatePromptContextMaterialText (context : PromptResolutionContext) : Validation Unit := do
  forIdx (fun index message =>
    validateText s!"context.messages[{index}].content" message.content 1 maxBlockTextChars)
    context.messages
  forIdx (fun index entry => do
    validateText s!"context.selected_knowledge[{index}].content" entry.content 1 maxBlockTextChars
    rejectIf entry.evidence.isEmpty
      ⟨s!"context.selected_knowledge[{index}].evidence",
        "selected knowledge requires activation evidence"⟩) context.selectedKnowledge
  forIdx (fun index record => do
    validateText s!"context.selected_memory[{index}].content" record.content 1 maxBlockTextChars
    validateText s!"context.selected_memory[{index}].reason" record.reason 1 4096)
    context.selectedMemory
  forIdx (fun index slot => do
    validateText s!"context.slots[{index}].name" slot.name 1 maxNameChars
    validateText s!"context.slots[{index}].value" slot.value 0 maxBlockTextChars) context.slots

def validatePromptContextOptionalText (context : PromptResolutionContext) : Validation Unit := do
  forIdx (fun _ (fieldValue : String × Option String) =>
    forSome fieldValue.2 fun value =>
      validateText s!"context.{fieldValue.1}" value 1 maxBlockTextChars)
    [("conversation_summary", context.conversationSummary), ("author_note", context.authorNote),
      ("group_context", context.groupContext)]
  validateText "context.current_date" context.currentDate 1 maxNameChars
  validateText "context.current_time" context.currentTime 1 maxNameChars

def validatePromptContextText (context : PromptResolutionContext) : Validation Unit := do
  validateText "context.user_name" context.userName 1 maxNameChars
  validateCharacterPromptText context.character
  validatePromptContextMaterialText context
  validatePromptContextOptionalText context

def PromptResolveRequest.validate (lib : Externals) (request : PromptResolveRequest) :
    Validation Unit := do
  request.preset.validate lib
  validatePromptRequestLimits request
  validateProviderPromptContract request.provider
  validatePromptContextMessages request.context
  validatePromptContextSelectionIds request.context
  validatePromptContextSummariesAndSlots request.context
  validatePromptContextText request.context
  forSome request.context.contextSnapshot fun snapshot =>
    validatePromptContextSnapshot lib snapshot (some request.context)
  validateVariableMap request.context.vars "context.variables"

end LorePia
