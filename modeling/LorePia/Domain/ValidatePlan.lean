import LorePia.Domain.ValidateRequest

/-!
# Resolved plans (`crates/domain/src/orchestration.rs`)

`ResolvedPromptPlan::validate`: the cross-field contract of a sealed plan. The source checks it in
one function; its sections are separate definitions here, in the source's order.
-/

namespace LorePia

open Base

/-- The messages of a plan that belong to one block. -/
def messagesOfBlock (messages : List ResolvedPromptMessage) (blockId : PromptBlockId) :
    List ResolvedPromptMessage :=
  messages.filter (fun message => message.blockId = blockId)

/-- The token estimates of some messages. -/
def messageTokens (messages : List ResolvedPromptMessage) : List UInt32 :=
  messages.map (·.estimatedTokens)

/-- The checks on a trace's source. -/
def validateTraceSource (source : PromptBlockSourceTrace) (path : String) : Validation Unit := do
  forSome source.sourceId fun sourceId => validateText s!"{path}.source_id" sourceId 1 1024
  forSome source.sourceRevision fun sourceRevision =>
    validateText s!"{path}.source_revision" sourceRevision 1 1024
  forSome source.sourceHash fun sourceHash => validateSha256 s!"{path}.source_hash" sourceHash

/-- The checks on one item of a trace's memory evidence. -/
def validateMemoryEvidence (evidence : PromptMemorySelectionEvidence) (path : String) :
    Validation Unit := do
  rejectIf (evidence.selected ∧ (evidence.lane.isNone ∨ evidence.rankMillionths.isNone))
    ⟨path, "selected memory evidence requires a lane and rank"⟩
  rejectIf (evidence.reasons.length > 16) ⟨s!"{path}.reasons", "must contain at most 16 reasons"⟩
  forSome evidence.exclusionReason fun reason =>
    validateText s!"{path}.exclusion_reason" reason 1 1024

/-- The record ids of the selected memory evidence. -/
def selectedMemoryIds (evidence : List PromptMemorySelectionEvidence) : List MemoryRecordId :=
  (evidence.filter (·.selected)).map (·.recordId)

/-- The checks on one block trace. -/
def validateBlockTrace (messages : List ResolvedPromptMessage) (index : Nat)
    (block : BlockResolutionTrace) : Validation Unit := do
  let path := s!"trace.blocks[{index}]"
  validateTraceSource block.source s!"{path}.source"
  rejectIf (block.finalEstimatedTokens ≠
        satSum (messageTokens (messagesOfBlock messages block.blockId)) ∨
      block.producedMessageCount.toNat ≠ (messagesOfBlock messages block.blockId).length)
    ⟨path, "final token and produced-message counts must match effective messages"⟩
  rejectIf (block.memoryEvidence.length > maxMemoryRecords)
    ⟨s!"{path}.memory_evidence", s!"must contain at most {maxMemoryRecords} records"⟩
  forIdx (fun evidenceIndex evidence =>
    validateMemoryEvidence evidence s!"{path}.memory_evidence[{evidenceIndex}]")
    block.memoryEvidence
  rejectIf (hasDuplicate (block.memoryEvidence.map (·.recordId)))
    ⟨s!"{path}.memory_evidence", "record identifiers must be unique"⟩
  rejectIf (block.memoryRecordIds.insertionSort (· ≤ ·) ≠
      (selectedMemoryIds block.memoryEvidence).insertionSort (· ≤ ·))
    ⟨s!"{path}.memory_record_ids", "must exactly match selected memory evidence"⟩

/-- The checks on one effective message. -/
def validateEffectiveMessage (blocks : List BlockResolutionTrace) (index : Nat)
    (message : ResolvedPromptMessage) : Validation Unit := do
  rejectIf (message.sequence.toNat ≠ index ∨ message.content.isEmpty ∨ message.estimatedTokens = 0)
    ⟨s!"effective_messages[{index}]", "message sequence, content, and token estimate are invalid"⟩
  validateProvenance message.provenance s!"effective_messages[{index}].provenance"
  rejectIf (¬ blocks.any (fun trace => trace.blockId = message.blockId))
    ⟨s!"effective_messages[{index}].block_id", "must reference a block resolution trace"⟩

/-- An effective latest-user message. -/
def isEffectiveLatestUser (message : ResolvedPromptMessage) : Bool :=
  message.blockKind = .latestUserTurn && message.effectiveRole = .user

/-- The checks on a plan's totals. -/
def validatePlanTotals (plan : ResolvedPromptPlan) : Validation Unit := do
  let estimated := satSum (messageTokens plan.effectiveMessages)
  rejectIf (estimated ≠ plan.trace.estimatedInputTokens ∨
      estimated ≠ plan.preview.estimatedInputTokens ∨
      estimated > plan.trace.availableInputTokens ∨
      plan.trace.availableInputTokens ≠ plan.preview.availableInputTokens)
    ⟨"estimated_input_tokens", "token totals must agree and fit the available input budget"⟩
  rejectIf (plan.effectiveMessages.countP isEffectiveLatestUser ≠ 1)
    ⟨"effective_messages", "exactly one effective latest-user message is required"⟩
  rejectIf (satSub plan.trace.maxContextTokens plan.trace.reservedOutputTokens ≠
      plan.trace.availableInputTokens)
    ⟨"trace.available_input_tokens", "must equal context limit minus reserved output"⟩
  rejectIf (plan.cacheDirectives.any fun directive => directive.afterMessageSequence.any
      fun sequence => sequence.toNat ≥ plan.effectiveMessages.length)
    ⟨"cache_directives", "cache message sequence is outside the effective request"⟩

def ResolvedPromptPlan.validate (lib : Externals) (plan : ResolvedPromptPlan) :
    Validation Unit := do
  rejectIf (plan.schemaVersion ≠ promptPlanSchemaVersion)
    ⟨"schema_version", "unsupported resolved prompt plan schema"⟩
  validateSha256 "plan_hash" plan.planHash
  forSome plan.trace.contextSnapshot fun snapshot =>
    validatePromptContextSnapshot lib snapshot none
  rejectIf (plan.effectiveMessages ≠ plan.preview.effectiveMessages ∨
      plan.cacheDirectives ≠ plan.preview.cacheDirectives)
    ⟨"preview", "preview must exactly match the effective request materialization"⟩
  rejectIf (plan.trace.blocks.length > maxPromptBlocks)
    ⟨"trace.blocks", s!"must contain at most {maxPromptBlocks} block traces"⟩
  forIdx (validateBlockTrace plan.effectiveMessages) plan.trace.blocks
  rejectIf (hasDuplicate (plan.trace.blocks.map (·.blockId)))
    ⟨"trace.blocks", "block identifiers must be unique"⟩
  forIdx (validateEffectiveMessage plan.trace.blocks) plan.effectiveMessages
  validatePlanTotals plan

end LorePia
