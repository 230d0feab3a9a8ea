import LorePia.Domain.Memory
import LorePia.Orchestration.KnowledgeEngine

/-!
# Memory selection (`crates/orchestration/src/memory.rs`)

`MemoryEngine::select`: the records are sorted by id, checked against the visible lineage, ranked in
fixed point, and selected in rank order into three lanes that share two token budgets. Every record
has an item of evidence, which the ranking loop and the selection loop update. `u64` values are
natural numbers, with the checks the source makes on them.
-/

namespace LorePia

open Base

def maxMemoryRecordsPerSelection : Nat := 100000
def maxVisibleMemoryLineageMessages : Nat := 100000

inductive MemorySelectionError
  | invalidProfile (message : String)
  | tooManyRecords
  | lineageTooLarge
  | duplicateRecordId (recordId : String)
  | duplicateLineageMessage (messageId : String)
  | duplicateSemanticScore (recordId : String)
  | invalidSemanticScore (recordId : String)
  | invalidRankingWeights
  | invalidImportance (recordId : String)
  | rankingScoreOverflow
  | internalInvariant
deriving DecidableEq

abbrev Memory := Except MemorySelectionError

structure MemorySemanticScore where
  recordId : MemoryRecordId
  score : F32
deriving DecidableEq

structure MemorySelectionContext where
  conversationId : ConversationId
  branchId : ConversationBranchId
  visibleMessageIds : List MessageId
  semanticScores : List MemorySemanticScore
  tokenEstimates : OrdMap MemoryRecordId UInt32

inductive MemorySelectionLane
  | pinned | semantic | episodic
deriving DecidableEq

inductive MemorySelectionReason
  | pinned
  | currentBranch
  | sharedAncestor (sourceBranchId : ConversationBranchId)
  | recency (scoreMillionths : UInt32)
  | similarity (scoreMillionths : UInt32)
  | importance (scoreMillionths : UInt32)
deriving DecidableEq

structure SelectedMemoryRecord where
  recordId : MemoryRecordId
  kind : MemoryKind
  title : String
  summary : String
  lane : MemorySelectionLane
  rankMillionths : Nat
  estimatedTokens : UInt32
  reasons : List MemorySelectionReason
deriving DecidableEq

structure MemorySelectionEvidence where
  recordId : MemoryRecordId
  selected : Bool
  lane : Option MemorySelectionLane
  rankMillionths : Option Nat
  estimatedTokens : UInt32
  reasons : List MemorySelectionReason
  exclusionReason : Option String
deriving DecidableEq

structure MemorySelection where
  selected : List SelectedMemoryRecord
  evidence : List MemorySelectionEvidence
  usedEpisodicTokens : UInt32
  usedSemanticTokens : UInt32
deriving DecidableEq

structure RankedMemory where
  record : MemoryRecord
  rankMillionths : Nat
  recencyMillionths : UInt32
  similarityMillionths : Option UInt32
  importanceMillionths : UInt32
  estimatedTokens : UInt32
  sharedAncestor : Bool
  pinned : Bool
deriving DecidableEq

abbrev MemoryEvidenceMap := OrdMap MemoryRecordId MemorySelectionEvidence

/-! ## Normalization -/

def validateProfile (profile : MemoryProfile) : Memory Unit := do
  mapErr (fun error => .invalidProfile error.display) profile.validate
  rejectIf (profile.weights.any invalidWeight) .invalidRankingWeights

/-- The records, sorted by id. -/
def sortRecords (records : List MemoryRecord) : List MemoryRecord :=
  stableSort (fun left right => decide (left.id ≤ right.id)) records

def normalizedRecords (records : List MemoryRecord) : Memory (List MemoryRecord) :=
  match adjacentDuplicate ((sortRecords records).map (·.id)) with
  | some recordId => .error (.duplicateRecordId recordId)
  | none => .ok (sortRecords records)

/-- One message of the lineage and its index. -/
def lineageStep (lineage : OrdMap MessageId Nat) (item : MessageId × Nat) :
    Memory (OrdMap MessageId Nat) :=
  if lineage.contains item.1 then .error (.duplicateLineageMessage item.1)
  else .ok (lineage.insert item.1 item.2)

def normalizedLineage (visibleMessageIds : List MessageId) : Memory (OrdMap MessageId Nat) := do
  rejectIf (visibleMessageIds.length > maxVisibleMemoryLineageMessages) .lineageTooLarge
  visibleMessageIds.zipIdx.foldlM lineageStep .empty

/-- One supplied score. -/
def memoryScoreStep (known : List MemoryRecordId) (scores : OrdMap MemoryRecordId UInt32)
    (score : MemorySemanticScore) : Memory (OrdMap MemoryRecordId UInt32) :=
  if score.recordId ∉ known then .ok scores
  else do
    rejectIf (invalidUnit score.score) (.invalidSemanticScore score.recordId)
    rejectIf (scores.contains score.recordId) (.duplicateSemanticScore score.recordId)
    return scores.insert score.recordId (scoreToMillionths score.score)

/-- `normalize_semantic_scores` of `memory.rs`. -/
def normalizeMemoryScores (records : List MemoryRecord) (supplied : List MemorySemanticScore) :
    Memory (OrdMap MemoryRecordId UInt32) :=
  supplied.foldlM (memoryScoreStep (records.map (·.id))) .empty

/-! ## Ranking -/

def otherConversationReason : String := "memory belongs to another conversation"
def invalidatedReason : String := "memory has been invalidated"
def excludedFromConversationReason : String := "memory is excluded from this conversation"
def excludedFromCharacterReason : String := "memory is excluded from this character"
def offLineageReason : String := "memory source range is not on the active branch lineage"
def reversedReason : String := "memory source range is reversed"
def countLimitReason : String := "memory retrieval count limit reached"
def memoryBudgetReason : String := "memory record does not fit the remaining token budgets"

/-- `eligible_range`: the error is the exclusion reason it writes into the evidence. -/
def eligibleRange (record : MemoryRecord) (context : MemorySelectionContext)
    (lineage : OrdMap MessageId Nat) : Except String (Nat × Nat) := do
  rejectIf (record.conversationId ≠ context.conversationId) otherConversationReason
  rejectIf record.invalidatedAt.isSome invalidatedReason
  rejectIf record.excludedFromConversation excludedFromConversationReason
  rejectIf record.excludedFromCharacter excludedFromCharacterReason
  let startIndex ← okOr (lineage.get? record.sourceStartMessageId) offLineageReason
  let endIndex ← okOr (lineage.get? record.sourceEndMessageId) offLineageReason
  rejectIf (startIndex > endIndex) reversedReason
  return (startIndex, endIndex)

def normalizedRecency (endIndex lineageLen : Nat) : UInt32 :=
  if lineageLen ≤ 1 then 1000000
  else (u32TryFrom (endIndex * 1000000 / (lineageLen - 1))).getD 1000000

def weightToMillionths (weight : F32) : Memory Nat := do
  rejectIf (!weight.isFinite || !weight.inRange 1000000) .rankingScoreOverflow
  return weight.toMillionths

/-- One component of `weighted_rank`. -/
def rankStep (total : Nat) (item : UInt32 × F32) : Memory Nat := do
  let weightMillionths ← weightToMillionths item.2
  let product ← okOr (checkedMul item.1.toNat weightMillionths) .rankingScoreOverflow
  okOr (checkedAdd total (product / 1000000)) .rankingScoreOverflow

def weightedRank (recencyMillionths similarityMillionths importanceMillionths : UInt32)
    (profile : MemoryProfile) : Memory Nat :=
  [(recencyMillionths, profile.recencyWeight), (similarityMillionths, profile.similarityWeight),
    (importanceMillionths, profile.importanceWeight)].foldlM rankStep 0

def memoryTokens (record : MemoryRecord) (tokenEstimates : OrdMap MemoryRecordId UInt32) : UInt32 :=
  (tokenEstimates.get? record.id).getD (estimateTextTokens record.summary)

/-- The evidence a record starts with. -/
def recordEvidence (tokenEstimates : OrdMap MemoryRecordId UInt32) (record : MemoryRecord) :
    MemorySelectionEvidence where
  recordId := record.id
  selected := false
  lane := none
  rankMillionths := none
  estimatedTokens := memoryTokens record tokenEstimates
  reasons := []
  exclusionReason := none

/-- `record.pinned || record.kind == MemoryKind::CreatorPinned`. -/
def MemoryRecord.isPinned (record : MemoryRecord) : Bool :=
  record.pinned || record.kind = .creatorPinned

/-- The ranking of an eligible record whose range ends at `endIndex`. -/
def rankRecord (profile : MemoryProfile) (context : MemorySelectionContext)
    (lineage : OrdMap MessageId Nat) (scores : OrdMap MemoryRecordId UInt32) (record : MemoryRecord)
    (endIndex : Nat) : Memory RankedMemory := do
  let recencyMillionths := normalizedRecency endIndex lineage.entries.length
  rejectIf (record.importance > 100) (.invalidImportance record.id)
  let importanceMillionths := UInt32.ofNat (record.importance.toNat * 10000)
  let similarityMillionths := scores.get? record.id
  let rankMillionths ← weightedRank recencyMillionths (similarityMillionths.getD 0)
    importanceMillionths profile
  return {
    record := record
    rankMillionths := rankMillionths
    recencyMillionths := recencyMillionths
    similarityMillionths := similarityMillionths
    importanceMillionths := importanceMillionths
    estimatedTokens := memoryTokens record context.tokenEstimates
    sharedAncestor := record.branchId ≠ context.branchId
    pinned := record.isPinned }

/-- One record of the ranking loop. -/
def rankRecordStep (profile : MemoryProfile) (context : MemorySelectionContext)
    (lineage : OrdMap MessageId Nat) (scores : OrdMap MemoryRecordId UInt32)
    (state : MemoryEvidenceMap × List RankedMemory) (record : MemoryRecord) :
    Memory (MemoryEvidenceMap × List RankedMemory) := do
  rejectIf (state.1.contains record.id = false) .internalInvariant
  match eligibleRange record context lineage with
  | .error why =>
    return (state.1.modify record.id fun item => { item with exclusionReason := some why }, state.2)
  | .ok range =>
    let ranked ← rankRecord profile context lineage scores record range.2
    return (state.1, state.2 ++ [ranked])

/-- The order of the candidates: pinned first, then rank, recency and importance descending, tokens
and id ascending. -/
def rankedLe (left right : RankedMemory) : Bool :=
  lexLe [compare (!left.pinned) (!right.pinned),
    compare right.rankMillionths left.rankMillionths,
    compare right.recencyMillionths.toNat left.recencyMillionths.toNat,
    compare right.importanceMillionths.toNat left.importanceMillionths.toNat,
    compare left.estimatedTokens.toNat right.estimatedTokens.toNat,
    compare left.record.id right.record.id]

/-! ## Selection -/

def rankingReasons (candidate : RankedMemory) : List MemorySelectionReason :=
  (if candidate.pinned then [MemorySelectionReason.pinned] else []) ++
  [if candidate.sharedAncestor then MemorySelectionReason.sharedAncestor candidate.record.branchId
    else .currentBranch, .recency candidate.recencyMillionths] ++
  (candidate.similarityMillionths.map fun score => MemorySelectionReason.similarity score).toList ++
  [MemorySelectionReason.importance candidate.importanceMillionths]

def fitsBudget (used cost budget : UInt32) : Bool :=
  (checkedAddTokens used cost).any fun next => next ≤ budget

def chooseLane (candidate : RankedMemory) (profile : MemoryProfile)
    (usedEpisodicTokens usedSemanticTokens : UInt32) : Option MemorySelectionLane :=
  if candidate.pinned then
    if fitsBudget usedEpisodicTokens candidate.estimatedTokens profile.episodicBudget.maxTokens then
      some .pinned else none
  else if candidate.similarityMillionths.isSome &&
      fitsBudget usedSemanticTokens candidate.estimatedTokens profile.semanticBudget.maxTokens then
    some .semantic
  else if fitsBudget usedEpisodicTokens candidate.estimatedTokens
      profile.episodicBudget.maxTokens then some .episodic
  else none

/-- The state of the selection loop. -/
structure Retrieval where
  selected : List SelectedMemoryRecord
  usedEpisodicTokens : UInt32
  usedSemanticTokens : UInt32
  ordinarySelected : UInt32
  evidence : MemoryEvidenceMap

/-- The tokens used after a candidate is put into a lane. -/
def laneTokens (state : Retrieval) (candidate : RankedMemory) (lane : MemorySelectionLane) :
    Memory (UInt32 × UInt32) :=
  match lane with
  | .pinned | .episodic => do
    let used ← okOr (checkedAddTokens state.usedEpisodicTokens candidate.estimatedTokens)
      .internalInvariant
    return (used, state.usedSemanticTokens)
  | .semantic => do
    let used ← okOr (checkedAddTokens state.usedSemanticTokens candidate.estimatedTokens)
      .internalInvariant
    return (state.usedEpisodicTokens, used)

/-- A selected candidate. -/
def selectedMemory (candidate : RankedMemory) (lane : MemorySelectionLane) :
    SelectedMemoryRecord where
  recordId := candidate.record.id
  kind := candidate.record.kind
  title := candidate.record.title
  summary := candidate.record.summary
  lane := lane
  rankMillionths := candidate.rankMillionths
  estimatedTokens := candidate.estimatedTokens
  reasons := rankingReasons candidate

/-- The candidate's evidence with its ranking and the change `change`. -/
def Retrieval.report (state : Retrieval) (candidate : RankedMemory)
    (change : MemorySelectionEvidence → MemorySelectionEvidence) : MemoryEvidenceMap :=
  state.evidence.modify candidate.record.id fun item => change { item with
    rankMillionths := some candidate.rankMillionths
    reasons := rankingReasons candidate }

/-- One candidate of the selection loop. -/
def retrieveStep (profile : MemoryProfile) (state : Retrieval) (candidate : RankedMemory) :
    Memory Retrieval := do
  rejectIf (state.evidence.contains candidate.record.id = false) .internalInvariant
  if !candidate.pinned && state.ordinarySelected ≥ profile.retrievalCount then
    return { state with
      evidence := state.report candidate fun item =>
        { item with exclusionReason := some countLimitReason } }
  else match chooseLane candidate profile state.usedEpisodicTokens state.usedSemanticTokens with
    | none => return { state with
        evidence := state.report candidate fun item =>
          { item with exclusionReason := some memoryBudgetReason } }
    | some lane =>
      let used ← laneTokens state candidate lane
      return {
        selected := state.selected ++ [selectedMemory candidate lane]
        usedEpisodicTokens := used.1
        usedSemanticTokens := used.2
        ordinarySelected :=
          if candidate.pinned then state.ordinarySelected else satAdd state.ordinarySelected 1
        evidence := state.report candidate fun item =>
          { item with selected := true, lane := some lane, exclusionReason := none } }

/-- The evidence in id order. -/
def sortedMemoryEvidence (evidence : MemoryEvidenceMap) : List MemorySelectionEvidence :=
  stableSort (fun left right => decide (left.recordId ≤ right.recordId)) evidence.values

/-- `MemoryEngine::select`. -/
def selectMemory (records : List MemoryRecord) (profile : MemoryProfile)
    (context : MemorySelectionContext) : Memory MemorySelection := do
  validateProfile profile
  rejectIf (records.length > maxMemoryRecordsPerSelection) .tooManyRecords
  let records ← normalizedRecords records
  let lineage ← normalizedLineage context.visibleMessageIds
  let scores ← normalizeMemoryScores records context.semanticScores
  let initial : MemoryEvidenceMap := .ofList (records.map fun record =>
    (record.id, recordEvidence context.tokenEstimates record))
  let (evidence, ranked) ← records.foldlM (rankRecordStep profile context lineage scores) (initial, [])
  let final ← (stableSort rankedLe ranked).foldlM (retrieveStep profile) ⟨[], 0, 0, 0, evidence⟩
  return {
    selected := final.selected
    evidence := sortedMemoryEvidence final.evidence
    usedEpisodicTokens := final.usedEpisodicTokens
    usedSemanticTokens := final.usedSemanticTokens }

end LorePia
