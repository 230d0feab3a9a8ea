import LorePia.Domain.Knowledge

/-!
# Memory records and profiles (`crates/domain/src/orchestration.rs`)

Memory records, memory profiles and `MemoryProfile::validate`
(`crates/domain/src/orchestration/compatibility_validation.rs`). A record's structured data,
keywords, embedding, creation and update times and provenance are not read by any modelled function.
Memory jobs and the limits of their task profiles; a job's update time and error code and a task
profile's route, preset and timeout are not read either. A time is a number.
-/

namespace LorePia

open Base

abbrev MemoryProfileId := String
abbrev TaskProfileId := String
abbrev SummarySchemaId := String
abbrev MemoryJobId := String

inductive MemoryKind
  | episodicEvent | characterFact | relationshipChange | userPreference | worldState
  | unresolvedThread | conversationSummary | creatorPinned
deriving DecidableEq

structure MemoryRecord where
  id : MemoryRecordId
  conversationId : ConversationId
  branchId : ConversationBranchId
  sourceStartMessageId : MessageId
  sourceEndMessageId : MessageId
  kind : MemoryKind
  title : String
  summary : String
  importance : UInt8
  pinned : Bool
  excludedFromConversation : Bool
  excludedFromCharacter : Bool
  invalidatedAt : Option Int
deriving DecidableEq

structure MemoryProfile where
  id : MemoryProfileId
  name : String
  schemaVersion : UInt32
  summaryTask : TaskProfileId
  embeddingTask : Option TaskProfileId
  turnsPerSummary : UInt32
  recentRawBudget : TokenBudget
  episodicBudget : TokenBudget
  semanticBudget : TokenBudget
  retrievalCount : UInt32
  recencyWeight : F32
  similarityWeight : F32
  importanceWeight : F32
  preserveInvalidatedRecords : Bool
  summarySchema : SummarySchemaId
  summaryTemplate : Option SafeTemplate
  provenance : Provenance

inductive AuxiliaryTaskKind
  | memorySummary | memoryEmbedding | translation | emotionClassification | stateExtraction
  | imagePrompt | titleGeneration
deriving DecidableEq

structure RateLimit where
  requests : UInt32
  perSeconds : UInt32
deriving DecidableEq

structure TaskProfile where
  kind : AuxiliaryTaskKind
  rateLimit : RateLimit
  concurrencyLimit : UInt32
deriving DecidableEq

inductive MemoryJobKind
  | summary | embedding | invalidateRange
deriving DecidableEq

inductive MemoryJobStatus
  | queued | running | interrupted | succeeded | failed | cancelled
deriving DecidableEq

structure MemoryJob where
  id : MemoryJobId
  idempotencyKey : String
  kind : MemoryJobKind
  conversationId : ConversationId
  branchId : ConversationBranchId
  sourceStartMessageId : MessageId
  sourceEndMessageId : MessageId
  status : MemoryJobStatus
  attempt : UInt32
  createdAt : Int
deriving DecidableEq

/-- The ranking weights. -/
def MemoryProfile.weights (profile : MemoryProfile) : List F32 :=
  [profile.recencyWeight, profile.similarityWeight, profile.importanceWeight]

/-- `!weight.is_finite() || *weight < 0.0`. -/
def invalidWeight (weight : F32) : Bool := !weight.isFinite || weight.isNegative

/-- `byte.is_ascii_alphanumeric() || matches!(byte, b'.' | b'_' | b'-' | b':')`. -/
def isSchemaCharacter (c : Char) : Bool :=
  c.isAlphanum || c = '.' || c = '_' || c = '-' || c = ':'

/-- The loop over the parts of a summary template from `index` on: the number of source slots. -/
def countSourceSlots : List TemplatePart → Nat → Nat → Validation Nat
  | [], _, sourceSlots => .ok sourceSlots
  | .text _ :: rest, index, sourceSlots => countSourceSlots rest (index + 1) sourceSlots
  | .slot name :: rest, index, sourceSlots =>
    if name = "memory_source" then countSourceSlots rest (index + 1) (sourceSlots + 1)
    else .error ⟨s!"summary_template.parts[{index}].name",
      "only the memory_source slot is available"⟩
  | .varRef _ :: _, index, _ | .builtIn _ :: _, index, _ | .join .. :: _, index, _
  | .conditional .. :: _, index, _ => .error ⟨s!"summary_template.parts[{index}]",
      "memory summary templates allow only literal text and one memory_source slot"⟩

/-- The checks on a summary template. -/
def validateSummaryTemplate (template : SafeTemplate) : Validation Unit := do
  mapErr (fun error => ⟨s!"summary_template.{error.path}", error.reason⟩) template.validate
  let sourceSlots ← countSourceSlots template.parts 0 0
  rejectIf (sourceSlots ≠ 1) ⟨"summary_template", "must contain exactly one memory_source slot"⟩

def MemoryProfile.validate (profile : MemoryProfile) : Validation Unit := do
  validateId "id" profile.id
  validateText "name" profile.name 1 maxNameChars
  validateId "summary_task" profile.summaryTask
  validateId "summary_schema" profile.summarySchema
  rejectIf (profile.summarySchema.toList.all isSchemaCharacter = false)
    ⟨"summary_schema", "must contain only canonical ASCII identifier characters"⟩
  forSome profile.embeddingTask (validateId "embedding_task")
  rejectIf (profile.schemaVersion = 0 ∨ profile.turnsPerSummary = 0 ∨
      profile.turnsPerSummary > 10000 ∨ profile.retrievalCount = 0 ∨
      profile.retrievalCount > 10000 ∨ profile.recentRawBudget.maxTokens > 10000000 ∨
      profile.episodicBudget.maxTokens > 10000000 ∨ profile.semanticBudget.maxTokens > 10000000 ∨
      profile.weights.any invalidWeight)
    ⟨"memory_profile", "schema, counts, and finite non-negative weights are required"⟩
  rejectIf (profile.weights.any (·.isPositive) = false)
    ⟨"retrieval_weights", "at least one retrieval weight must be positive"⟩
  forSome profile.summaryTemplate validateSummaryTemplate
  validateProvenance profile.provenance "provenance"

end LorePia
