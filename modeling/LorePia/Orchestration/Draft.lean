import LorePia.Base.Utf8
import LorePia.Orchestration.Template

/-!
# Drafts and their token accounting (`crates/orchestration/src/resolver.rs`)

The token estimator, the draft messages of a materialized block, the compatibility helpers of
`resolver/compat.rs` and the four ways a block's messages are cut down: `trim_messages` from either
end, `keep_latest_items` (`resolver/history_budget.rs`) and the knowledge-entry loop.
-/

namespace LorePia

open Base

inductive OrchestrationError
  | invalid (reason : String)
  | template (error : TemplateError)
  | materialization (blockId reason : String)
  | unsupportedRole (blockId : String) (role : RoleHint)
  | latestUserMessageExceedsBudget (requiredTokens availableTokens : UInt32)
  | overflowRejected (estimatedTokens availableTokens : UInt32)
  | planSerialization (error : String)
  | planHashMismatch
deriving DecidableEq

abbrev Resolve := Except OrchestrationError

def messageOverheadTokens : UInt32 := 4
def blockContentSlot : String := "block_content"

/-! ## Estimators -/

structure TokenEstimator where
  id : String
  estimateText : String → UInt32
  keepPrefix : String → UInt32 → String
  keepSuffix : String → UInt32 → String

def maxTokenBytes (maxTokens : UInt32) : Nat := min (maxTokens.toNat * 4) usizeMax

def utf8TokenEstimator : TokenEstimator where
  id := "utf8_bytes_div_4_v1"
  estimateText text := if text.isEmpty then 0 else u32FromSat ((text.utf8ByteSize + 3) / 4)
  keepPrefix text maxTokens := keepUtf8Prefix text (maxTokenBytes maxTokens)
  keepSuffix text maxTokens := keepUtf8Suffix text (maxTokenBytes maxTokens)

def TokenEstimator.estimateMessage (est : TokenEstimator) (content : String) : UInt32 :=
  satAdd (est.estimateText content) messageOverheadTokens

/-! ## Drafts -/

/-- `DraftMessage`. `origins` is ghost data that no operation reads: the knowledge entries the
message was materialized from. -/
structure DraftMessage where
  requestedRole : RoleHint
  authority : InstructionAuthority
  content : String
  sourceMessageIds : List MessageId
  sourceMemoryRecordIds : List MemoryRecordId
  provenance : Provenance
  origins : List KnowledgeEntryId
deriving DecidableEq

structure MaterializedBlock where
  block : PromptBlock
  originalIndex : Nat
  messages : List DraftMessage
  status : BlockResolutionStatus
  originalTokens : UInt32
  explanation : String
  knowledgeEvidence : List KnowledgeSelectionEvidence
  memoryEvidence : List PromptMemorySelectionEvidence
  overflowTrace : List OverflowTrace

def MaterializedBlock.empty (block : PromptBlock) (originalIndex : Nat) : MaterializedBlock where
  block := block
  originalIndex := originalIndex
  messages := []
  status := .included
  originalTokens := 0
  explanation := ""
  knowledgeEvidence := []
  memoryEvidence := []
  overflowTrace := []

/-- The token estimates of some drafts. -/
def draftTokens (est : TokenEstimator) (messages : List DraftMessage) : List UInt32 :=
  messages.map fun message => est.estimateMessage message.content

def MaterializedBlock.estimatedTokensWith (b : MaterializedBlock) (est : TokenEstimator) : UInt32 :=
  satSum (draftTokens est b.messages)

def totalTokens (est : TokenEstimator) (blocks : List MaterializedBlock) : UInt32 :=
  satSum (blocks.map (·.estimatedTokensWith est))

/-! ## Compatibility helpers -/

/-- `value.starts_with(prefix)`. -/
def startsWith (value start : String) : Bool := start.toList.isPrefixOf value.toList

def isCompatBlock (block : PromptBlock) : Bool :=
  block.provenance.sourceId.any fun source =>
    startsWith source "imported-preset:" || startsWith source "imported-memory-preset:" ||
      startsWith source "risu-preset:" || startsWith source "risu-memory-preset:"

def renderCompatText (lib : Externals) (block : PromptBlock) (source : String)
    (context : PromptResolutionContext) : String :=
  if isCompatBlock block then lib.renderPortableText source context else source

/-- The condition under which a message is merged into the previous one. -/
def mergesWith (previous message : DraftMessage) : Bool :=
  previous.requestedRole = message.requestedRole && previous.authority = message.authority &&
    previous.provenance = message.provenance

/-- The message `previous` with `message` appended. -/
def mergeInto (previous message : DraftMessage) : DraftMessage :=
  { previous with
    content := previous.content ++ "\n\n" ++ message.content
    sourceMessageIds := previous.sourceMessageIds ++ message.sourceMessageIds
    sourceMemoryRecordIds := previous.sourceMemoryRecordIds ++ message.sourceMemoryRecordIds
    origins := previous.origins ++ message.origins }

/-- The loop of `merge_same_role_messages` behind `previous`, the last merged message. -/
def mergeFrom (previous : DraftMessage) : List DraftMessage → List DraftMessage
  | [] => [previous]
  | message :: rest =>
    if mergesWith previous message then mergeFrom (mergeInto previous message) rest
    else previous :: mergeFrom message rest

def mergeSameRoleMessages : List DraftMessage → List DraftMessage
  | [] => []
  | message :: rest => mergeFrom message rest

/-! ## Cutting a block's messages down -/

inductive TrimDirection
  | head | tail
deriving DecidableEq

/-- The cut of one message's content. -/
def TokenEstimator.cut (est : TokenEstimator) (direction : TrimDirection) (content : String)
    (textBudget : UInt32) : String :=
  match direction with
  | .head => est.keepSuffix content textBudget
  | .tail => est.keepPrefix content textBudget

/-- The loop of `trim_messages` over the ordered messages; returns the retained ones. -/
def trimLoop (est : TokenEstimator) (direction : TrimDirection) :
    UInt32 → List DraftMessage → List DraftMessage
  | _, [] => []
  | remaining, message :: rest =>
    if remaining ≤ messageOverheadTokens then []
    else if est.estimateMessage message.content ≤ remaining then
      message :: trimLoop est direction
        (satSub remaining (est.estimateMessage message.content)) rest
    else
      let content := est.cut direction message.content (satSub remaining messageOverheadTokens)
      if content.isEmpty then [] else [{ message with content := content }]

def trimMessages (est : TokenEstimator) (direction : TrimDirection) (messages : List DraftMessage)
    (targetTokens : UInt32) : List DraftMessage :=
  match direction with
  | .head => (trimLoop est .head targetTokens messages.reverse).reverse
  | .tail => trimLoop est .tail targetTokens messages

/-- The loop of `keep_latest_items`, over the messages from the newest on; returns the kept ones. -/
def keepLoop (est : TokenEstimator) : UInt32 → List DraftMessage → List DraftMessage
  | _, [] => []
  | remaining, message :: rest =>
    if est.estimateMessage message.content > remaining then []
    else message :: keepLoop est (remaining - est.estimateMessage message.content) rest

/-- `keep_latest_items`: the messages before the kept suffix are drained. -/
def keepLatestItems (est : TokenEstimator) (messages : List DraftMessage)
    (targetTokens : UInt32) : List DraftMessage :=
  (keepLoop est targetTokens messages.reverse).reverse

def removedByBudget : String := "removed by the prompt token budget"

/-- Marks the first selected item as removed. -/
def deselectFirst : List KnowledgeSelectionEvidence → List KnowledgeSelectionEvidence
  | [] => []
  | evidence :: rest =>
    if evidence.selected then
      { evidence with selected := false, exclusionReason := some removedByBudget } :: rest
    else evidence :: deselectFirst rest

/-- `iter_mut().rev().find(|evidence| evidence.selected)`, marked as removed. -/
def deselectLast (evidence : List KnowledgeSelectionEvidence) : List KnowledgeSelectionEvidence :=
  (deselectFirst evidence.reverse).reverse

/-- The loop of the `ReduceKnowledgeEntries` policy. Every round pops a message, so `fuel` at the
number of messages runs it to its end. -/
def popEntries (est : TokenEstimator) (targetTokens : UInt32) :
    Nat → MaterializedBlock → MaterializedBlock
  | 0, b => b
  | fuel + 1, b =>
    if b.messages.length > 1 ∧ b.estimatedTokensWith est > targetTokens then
      popEntries est targetTokens fuel
        { b with
          messages := b.messages.dropLast
          knowledgeEvidence := deselectLast b.knowledgeEvidence }
    else b

end LorePia
