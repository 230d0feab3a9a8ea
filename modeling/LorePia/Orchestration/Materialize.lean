import LorePia.Domain.ValidatePlan
import LorePia.Orchestration.Draft

/-!
# Materialization (`crates/orchestration/src/resolver.rs`)

`materialize_block`: a block's source turned into draft messages, templated, filtered and merged,
with the knowledge and memory evidence recorded on the way.
-/

namespace LorePia

open Base

/-! ## Block helpers -/

def templateEnvironment (context : PromptResolutionContext) (slots : List TemplateSlot) :
    TemplateEnvironment where
  vars := context.vars
  capabilities := context.supportedCapabilities
  characterName := context.character.name
  userName := context.userName
  personaName := context.persona.map (·.name)
  personaDescription := context.persona.map (·.description)
  currentDate := context.currentDate
  currentTime := context.currentTime
  slots := slots

def roleForBlock (block : PromptBlock) : RoleHint :=
  if block.kind = .assistantPrefill then .assistant
  else if block.kind = .latestUserTurn then .user
  else block.roleHint

def characterField (context : PromptResolutionContext) : CharacterField → String
  | .name =>
    if context.character.aliases.isEmpty then context.character.name
    else context.character.name ++ "\nAliases: " ++ ", ".intercalate context.character.aliases
  | .description => context.character.description
  | .personality => context.character.personality
  | .scenario => context.character.scenario
  | .firstMessage => context.character.firstMessage
  | .dialogueExamples => "\n\n".intercalate context.character.dialogueExamples
  | .systemInstruction => context.character.systemInstruction
  | .postHistoryInstruction => context.character.postHistoryInstruction

def knowledgeMatchesZone : KnowledgePlacement → PlacementZone → Bool
  | .retrievedContext, .retrievedContext => true
  | .beforeOlderHistory, .olderHistory => true
  | .beforeRecentHistory, .recentEnhancement => true
  | .postHistory, .postHistory => true
  | _, _ => false

def authorityForProvenance (blockAuthority : InstructionAuthority) (provenance : Provenance) :
    InstructionAuthority :=
  match provenance.sourceKind with
  | .importedStandard | .importedPackage => .importedContent
  | _ => blockAuthority

/-! ## History -/

def selectRelativeMessageRange (messages : List PromptConversationMessage) (start : Int)
    (stop : Option Int) : Except String (List PromptConversationMessage) := do
  let length : Int := messages.length
  let resolve := fun (offset : Int) =>
    max 0 (min (if offset < 0 then length + offset else offset) length)
  let start := resolve start
  let stop := match stop with
    | none => length
    | some stop => resolve stop
  rejectIf (start > stop) "relative history range start occurs after its end"
  return (messages.drop start.toNat).take (stop.toNat - start.toNat)

/-- The distinct turn indices in ascending order (`turn_indices`). -/
def turnIndices (messages : List PromptConversationMessage) : List UInt32 :=
  (stableSort (fun a b => decide (a ≤ b)) (messages.map (·.turnIndex))).destutter (· ≠ ·)

/-- The first turn index of the last `count` turns (`u32::MAX` when there is none). -/
def recentStart (messages : List PromptConversationMessage) (count : UInt32) : UInt32 :=
  let turns := turnIndices messages
  turns[turns.length - count.toNat]?.getD (UInt32.ofNat u32Max)

def selectHistory (messages : List PromptConversationMessage) (selector : HistorySelector)
    (summaries : List SummaryBoundary) : Except String (List PromptConversationMessage) :=
  match selector with
  | .all => .ok messages
  | .beforeRecentTurns recentTurns =>
    .ok (messages.filter fun message => message.turnIndex < recentStart messages recentTurns)
  | .recentTurns count | .excludingLatestUser count =>
    .ok (messages.filter fun message => message.turnIndex ≥ recentStart messages count)
  | .relativeMessageRange start stop => selectRelativeMessageRange messages start stop
  | .messageRange start stop => do
    let startIndex ← okOr (messages.findIdx? (fun message => message.id = start))
      "history range start message is unavailable"
    let endIndex ← okOr (messages.findIdx? (fun message => message.id = stop))
      "history range end message is unavailable"
    rejectIf (startIndex > endIndex) "history range start occurs after its end"
    return (messages.drop startIndex).take (endIndex + 1 - startIndex)
  | .sinceSummary summaryId => do
    let boundary ← okOr (summaries.find? (fun boundary => boundary.summaryId = summaryId))
      "summary boundary is unavailable"
    let endIndex ← okOr (messages.findIdx? (fun message => message.id = boundary.endMessageId))
      "summary end message is unavailable"
    return messages.drop (endIndex + 1)

/-- The order of `history_messages`: by turn, then by id. -/
def historyLe (left right : PromptConversationMessage) : Bool :=
  left.turnIndex < right.turnIndex ||
    (left.turnIndex = right.turnIndex && decide (left.id ≤ right.id))

/-- The role a history message asks for. -/
def historyRole : PromptMessageRole → RoleHint
  | .system => .system
  | .user => .user
  | .assistant => .assistant

/-- `matches!(selector, HistorySelector::RelativeMessageRange { .. })`. -/
def includesLatestUser : HistorySelector → Bool
  | .relativeMessageRange _ _ => true
  | _ => false

def historyMessages (request : PromptResolveRequest) (block : PromptBlock) :
    Resolve (List DraftMessage) := do
  let context := request.context
  let selector ← okOr block.historySelector
    (.materialization block.id "history source requires a history selector")
  let messages := stableSort historyLe (context.messages.filter fun message =>
    message.branchId = context.branchId &&
      (includesLatestUser selector || message.id ≠ context.latestUserMessageId))
  let selected ← mapErr (fun reason => .materialization block.id reason)
    (selectHistory messages selector context.summaryBoundaries)
  return selected.map fun message =>
    { requestedRole := historyRole message.role
      authority := block.authority
      content := message.content
      sourceMessageIds := [message.id]
      sourceMemoryRecordIds := []
      provenance := block.provenance
      origins := [] }

/-! ## Knowledge and memory -/

/-- The order of selected knowledge: highest priority first, then by id. -/
def knowledgeLe (left right : SelectedKnowledge) : Bool :=
  right.priority < left.priority ||
    (left.priority = right.priority && decide (left.entryId ≤ right.entryId))

/-- The knowledge entries of a block, in the order their messages are produced. -/
def knowledgeEntries (context : PromptResolutionContext) (block : PromptBlock) :
    List SelectedKnowledge :=
  stableSort knowledgeLe
    (context.selectedKnowledge.filter fun entry =>
      knowledgeMatchesZone entry.placement block.placementZone)

/-- The evidence recorded for a knowledge entry. -/
def knowledgeEvidenceOf (est : TokenEstimator) (entry : SelectedKnowledge) :
    KnowledgeSelectionEvidence where
  entryId := entry.entryId
  selected := true
  reasons := entry.evidence
  estimatedTokens := est.estimateText entry.content
  exclusionReason := none

/-- The draft materialized from a knowledge entry. -/
def knowledgeDraft (lib : Externals) (context : PromptResolutionContext) (block : PromptBlock)
    (entry : SelectedKnowledge) : DraftMessage where
  requestedRole := roleForBlock block
  authority := authorityForProvenance block.authority entry.provenance
  content := lib.renderPortableText entry.content context
  sourceMessageIds := []
  sourceMemoryRecordIds := []
  provenance := entry.provenance
  origins := [entry.entryId]

/-- The order of selected memory: highest score first, then by id. -/
def memoryLe (left right : SelectedMemory) : Bool :=
  right.scoreMillionths < left.scoreMillionths ||
    (left.scoreMillionths = right.scoreMillionths && decide (left.recordId ≤ right.recordId))

/-- `matches!(reason, PromptMemorySelectionReason::Similarity { .. })`. -/
def isSimilarity : PromptMemorySelectionReason → Bool
  | .similarity _ => true
  | _ => false

/-- The evidence recorded for a memory record. -/
def memoryEvidenceOf (est : TokenEstimator) (lib : Externals) (record : SelectedMemory) :
    PromptMemorySelectionEvidence :=
  let reasons := (lib.memoryReasonsFromStr record.reason).getD []
  { recordId := record.recordId
    selected := true
    lane := some (if reasons.contains .pinned then .pinned
      else if reasons.any isSimilarity then .semantic else .episodic)
    rankMillionths := some record.scoreMillionths.toUInt64
    estimatedTokens := est.estimateText record.content
    reasons := reasons
    exclusionReason := none }

/-- The draft materialized from a memory record. -/
def memoryDraft (block : PromptBlock) (record : SelectedMemory) : DraftMessage where
  requestedRole := roleForBlock block
  authority := authorityForProvenance block.authority record.provenance
  content := record.content
  sourceMessageIds := []
  sourceMemoryRecordIds := [record.recordId]
  provenance := record.provenance
  origins := []

/-! ## Sources -/

/-- The closure `default` of `materialize_source`. -/
def defaultDraft (block : PromptBlock) (content : String) : List DraftMessage :=
  [{ requestedRole := roleForBlock block
     authority := block.authority
     content := content
     sourceMessageIds := []
     sourceMemoryRecordIds := []
     provenance := block.provenance
     origins := [] }]

/-- The draft of the latest user turn. -/
def latestUserDraft (block : PromptBlock) (latest : PromptConversationMessage) : DraftMessage where
  requestedRole := .user
  authority := block.authority
  content := latest.content
  sourceMessageIds := [latest.id]
  sourceMemoryRecordIds := []
  provenance := block.provenance
  origins := []

/-- `materialize_source`; returns the block with its messages and evidence. -/
def materializeSource (est : TokenEstimator) (lib : Externals) (request : PromptResolveRequest)
    (block : PromptBlock) (materialized : MaterializedBlock) : Resolve MaterializedBlock :=
  let context := request.context
  match block.source with
  | .template => do
    let template ← okOr block.template
      (.materialization block.id "template source requires a template")
    let rendered ← mapErr .template
      (renderSafeTemplate lib template (templateEnvironment context context.slots))
    return { materialized with
      messages := defaultDraft block (renderCompatText lib block rendered context) }
  | .characterField field =>
    .ok { materialized with
      messages := defaultDraft block
        (lib.renderPortableText (characterField context field) context) }
  | .history => do
    let messages ← historyMessages request block
    return { materialized with messages := messages }
  | .latestUser => do
    let latest ← okOr context.latest
      (.materialization block.id "latest user message is missing")
    return { materialized with messages := [latestUserDraft block latest] }
  | .selectedKnowledge =>
    let entries := knowledgeEntries context block
    .ok { materialized with
      messages := entries.map (knowledgeDraft lib context block)
      knowledgeEvidence := materialized.knowledgeEvidence ++ entries.map (knowledgeEvidenceOf est) }
  | .selectedMemory =>
    let records := stableSort memoryLe context.selectedMemory
    .ok { materialized with
      messages := records.map (memoryDraft block)
      memoryEvidence := records.map (memoryEvidenceOf est lib) }
  | .conversationSummary => do
    let summary ← okOr context.conversationSummary
      (.materialization block.id "conversation summary source is unavailable at this branch head")
    return { materialized with messages := defaultDraft block summary }
  | .authorNote => do
    let note ← okOr context.authorNote
      (.materialization block.id "author note source is unavailable for this room")
    return { materialized with messages := defaultDraft block note }
  | .userPersona =>
    .ok { materialized with
      messages := match context.persona with
        | none => []
        | some persona => defaultDraft block s!"{persona.name}\n{persona.description}" }
  | .groupContext => do
    let group ← okOr context.groupContext
      (.materialization block.id "group context source is unavailable for this room")
    return { materialized with messages := defaultDraft block group }

/-! ## Blocks -/

/-- One message of `apply_block_template`. -/
def templateMessage (lib : Externals) (request : PromptResolveRequest) (block : PromptBlock)
    (template : SafeTemplate) (message : DraftMessage) : Resolve DraftMessage := do
  let slots := request.context.slots.filter (fun slot => slot.name ≠ blockContentSlot) ++
    [⟨blockContentSlot, message.content⟩]
  let rendered ← mapErr .template
    (renderSafeTemplate lib template (templateEnvironment request.context slots))
  return { message with content := renderCompatText lib block rendered request.context }

def applyBlockTemplate (lib : Externals) (request : PromptResolveRequest) (block : PromptBlock)
    (messages : List DraftMessage) : Resolve (List DraftMessage) :=
  if block.source = .template then .ok messages
  else match block.template with
    | none => .ok messages
    | some template => mapIdx (fun _ message => templateMessage lib request block template message)
        messages

/-- The part of `materialize_block` behind its source. -/
def finishBlock (est : TokenEstimator) (lib : Externals) (request : PromptResolveRequest)
    (block : PromptBlock) (materialized : MaterializedBlock) : Resolve MaterializedBlock := do
  let messages := if isCompatBlock block && block.template.isSome then
    mergeSameRoleMessages materialized.messages else materialized.messages
  let rendered ← applyBlockTemplate lib request block messages
  let kept := rendered.filter (fun message => !message.content.isEmpty)
  if kept.isEmpty then
    return { materialized with
      messages := kept, status := .empty, explanation := "rendered block was empty" }
  else
    let merged := if block.mergePolicy = .mergeWithPreviousSameRole then
      mergeSameRoleMessages kept else kept
    return { materialized with
      messages := merged
      originalTokens := satSum (draftTokens est merged)
      explanation := "block included" }

/-- The condition of a block: an absent one holds. -/
def blockCondition (context : PromptResolutionContext) (block : PromptBlock) : Resolve Bool :=
  match block.condition with
  | none => .ok true
  | some condition =>
    mapErr .template (evaluateCondition condition context.vars context.supportedCapabilities)

def materializeBlock (est : TokenEstimator) (lib : Externals) (request : PromptResolveRequest)
    (originalIndex : Nat) (block : PromptBlock) : Resolve MaterializedBlock := do
  let materialized := MaterializedBlock.empty block originalIndex
  if !block.enabled then
    return { materialized with status := .disabled, explanation := "block is disabled" }
  else if !(← blockCondition request.context block) then
    return { materialized with
      status := .conditionFalse, explanation := "block condition evaluated to false" }
  else
    let materialized ← materializeSource est lib request block materialized
    if materialized.messages.isEmpty then
      return { materialized with
        status := .empty, explanation := "block source produced no content" }
    else finishBlock est lib request block materialized

end LorePia
