import LorePia.Orchestration.Memory
import LorePia.Base.Prefixed

/-!
# Memory rewinds and jobs (`crates/orchestration/src/memory.rs`)

`plan_memory_invalidation` plans what a destructive rewind of one branch does to its records.
`decide_memory_job_enqueue`, `validate_memory_job_status_transition` and `plan_memory_job_dispatch`
are pure decisions over the stored jobs. The store applies the plans: `rewind` and `startJobs` say how.
-/

namespace LorePia

open Base

/-! ## Rewinds -/

inductive MemoryInvalidationError
  | lineageTooLarge
  | duplicateRecordId (recordId : String)
  | duplicateLineageMessage (messageId : String)
  | startMessageNotFound
  | recordRangeNotFound (recordId : String)
  | reversedRecordRange (recordId : String)
deriving DecidableEq

abbrev Invalidation := Except MemoryInvalidationError

inductive MemoryInvalidationDisposition
  | preserveAsInvalidated | delete
deriving DecidableEq

structure MemoryInvalidationAction where
  recordId : MemoryRecordId
  disposition : MemoryInvalidationDisposition
deriving DecidableEq

/-- One message of the branch and its index. -/
def branchLineageStep (lineage : OrdMap MessageId Nat) (item : MessageId × Nat) :
    Invalidation (OrdMap MessageId Nat) :=
  if lineage.contains item.1 then .error (.duplicateLineageMessage item.1)
  else .ok (lineage.insert item.1 item.2)

/-- The lineage of the branch. -/
def branchLineage (branchMessageIds : List MessageId) : Invalidation (OrdMap MessageId Nat) := do
  rejectIf (branchMessageIds.length > maxVisibleMemoryLineageMessages) .lineageTooLarge
  branchMessageIds.zipIdx.foldlM branchLineageStep .empty

/-- The branch whose records a rewind may touch. -/
structure MemoryBranch where
  conversationId : ConversationId
  branchId : ConversationBranchId
deriving DecidableEq

/-- A record that the planner looks at: of the branch, and not invalidated. -/
def MemoryBranch.owns (branch : MemoryBranch) (record : MemoryRecord) : Bool :=
  record.conversationId = branch.conversationId && record.branchId = branch.branchId &&
    record.invalidatedAt.isNone

/-- The index of an owned record's last message. -/
def ownedRangeEnd (lineage : OrdMap MessageId Nat) (record : MemoryRecord) : Invalidation Nat := do
  let startIndex ← okOr (lineage.get? record.sourceStartMessageId) (.recordRangeNotFound record.id)
  let endIndex ← okOr (lineage.get? record.sourceEndMessageId) (.recordRangeNotFound record.id)
  rejectIf (startIndex > endIndex) (.reversedRecordRange record.id)
  return endIndex

/-- One record of the planning loop: the ids seen and the actions. -/
def planRecordStep (branch : MemoryBranch) (lineage : OrdMap MessageId Nat) (cutIndex : Nat)
    (disposition : MemoryInvalidationDisposition)
    (state : List MemoryRecordId × List MemoryInvalidationAction) (record : MemoryRecord) :
    Invalidation (List MemoryRecordId × List MemoryInvalidationAction) := do
  rejectIf (record.id ∈ state.1) (.duplicateRecordId record.id)
  let seen := state.1 ++ [record.id]
  if branch.owns record = false then return (seen, state.2)
  else
    let endIndex ← ownedRangeEnd lineage record
    return (seen, if endIndex ≥ cutIndex then state.2 ++ [⟨record.id, disposition⟩] else state.2)

def planMemoryInvalidation (records : List MemoryRecord) (profile : MemoryProfile)
    (branch : MemoryBranch) (branchMessageIds : List MessageId) (startMessageId : MessageId) :
    Invalidation (List MemoryInvalidationAction) := do
  let lineage ← branchLineage branchMessageIds
  let cutIndex ← okOr (lineage.get? startMessageId) .startMessageNotFound
  let disposition : MemoryInvalidationDisposition :=
    if profile.preserveInvalidatedRecords then .preserveAsInvalidated else .delete
  let planned ← records.foldlM (planRecordStep branch lineage cutIndex disposition) ([], [])
  return stableSort (fun left right => decide (left.recordId ≤ right.recordId)) planned.2

/-- The records and the messages of a branch. -/
structure BranchMemory where
  records : List MemoryRecord
  messages : List MessageId
deriving DecidableEq

/-- A record after the planned actions at time `now`. -/
def disposeRecord (now : Int) (actions : List MemoryInvalidationAction) (record : MemoryRecord) :
    Option MemoryRecord :=
  match actions.find? fun action => action.recordId = record.id with
  | none => some record
  | some ⟨_, .preserveAsInvalidated⟩ => some { record with invalidatedAt := some now }
  | some ⟨_, .delete⟩ => none

/-- A destructive rewind: the planned records are invalidated or deleted, and the messages from the
cut on are gone. -/
def rewind (profile : MemoryProfile) (branch : MemoryBranch) (now : Int) (memory : BranchMemory)
    (cut : MessageId) : Invalidation BranchMemory := do
  let actions ← planMemoryInvalidation memory.records profile branch memory.messages cut
  return {
    records := memory.records.filterMap (disposeRecord now actions)
    messages := memory.messages.takeWhile (· ≠ cut) }

/-! ## Jobs -/

def maxMemoryJobIdempotencyKeyBytes : Nat := 256

inductive MemoryJobError
  | sourceRevisionTooLong
  | incompleteProfileIdentity
  | invalidIdempotencyKey
  | duplicateExistingKey
  | idempotencyConflict
  | invalidStatusTransition
  | taskKindMismatch
  | invalidTaskProfile
  | duplicateJobId (jobId : String)
deriving DecidableEq

abbrev Jobs := Except MemoryJobError

def maxMemoryJobSourceRevisionBytes : Nat := 1024

/-- `MemoryJobKeyInput`. A string of the program has fewer than `2 ^ 64` bytes. -/
structure MemoryJobKeyInput where
  kind : MemoryJobKind
  conversationId : ConversationId
  branchId : ConversationBranchId
  sourceStartMessageId : MessageId
  sourceEndMessageId : MessageId
  profileId : Option MemoryProfileId
  profileSchemaVersion : Option UInt32
  sourceRevision : String
  addressable : ∀ text ∈ [conversationId, branchId, sourceStartMessageId, sourceEndMessageId,
    profileId.getD "", sourceRevision], text.utf8ByteSize < 2 ^ 64
deriving DecidableEq

def memoryJobKindLabel : MemoryJobKind → String
  | .summary => "summary"
  | .embedding => "embedding"
  | .invalidateRange => "invalidate_range"

/-- `update_job_hash`: the bytes it adds to the digest. -/
def updateJobHash (value : List UInt8) : List UInt8 := prefixed 8 value

/-- The values that the key hashes, in their order. -/
def MemoryJobKeyInput.hashedFields (input : MemoryJobKeyInput) : List (List UInt8) :=
  [utf8Bytes "lorepia-memory-job-v1", utf8Bytes (memoryJobKindLabel input.kind),
    utf8Bytes input.conversationId, utf8Bytes input.branchId,
    utf8Bytes input.sourceStartMessageId, utf8Bytes input.sourceEndMessageId,
    utf8Bytes (input.profileId.getD ""), beBytes 4 (input.profileSchemaVersion.getD 0).toNat,
    utf8Bytes input.sourceRevision]

/-- The bytes that the key hashes. -/
def MemoryJobKeyInput.hashedBytes (input : MemoryJobKeyInput) : List UInt8 :=
  input.hashedFields.flatMap updateJobHash

def deriveMemoryJobIdempotencyKey (sha256 : List UInt8 → Vector UInt8 32) (input : MemoryJobKeyInput) :
    Jobs String := do
  rejectIf (input.sourceRevision.utf8ByteSize > maxMemoryJobSourceRevisionBytes) .sourceRevisionTooLong
  rejectIf (input.profileId.isSome ≠ input.profileSchemaVersion.isSome) .incompleteProfileIdentity
  return "memory-job:v1:" ++ hexEncode (sha256 input.hashedBytes).toList

structure MemoryJobRequest where
  idempotencyKey : String
  kind : MemoryJobKind
  conversationId : ConversationId
  branchId : ConversationBranchId
  sourceStartMessageId : MessageId
  sourceEndMessageId : MessageId
deriving DecidableEq

inductive MemoryJobEnqueueDecision
  | create
  | reuse (jobId : MemoryJobId) (status : MemoryJobStatus) (attempt : UInt32)
deriving DecidableEq

def decideMemoryJobEnqueue (existing : List MemoryJob) (request : MemoryJobRequest) :
    Jobs MemoryJobEnqueueDecision := do
  rejectIf (request.idempotencyKey.isEmpty ∨
    request.idempotencyKey.utf8ByteSize > maxMemoryJobIdempotencyKeyBytes) .invalidIdempotencyKey
  match existing.filter fun job => job.idempotencyKey = request.idempotencyKey with
  | [] => return .create
  | job :: rest =>
    rejectIf (rest ≠ []) .duplicateExistingKey
    rejectIf (job.kind ≠ request.kind ∨ job.conversationId ≠ request.conversationId ∨
      job.branchId ≠ request.branchId ∨
      job.sourceStartMessageId ≠ request.sourceStartMessageId ∨
      job.sourceEndMessageId ≠ request.sourceEndMessageId) .idempotencyConflict
    return .reuse job.id job.status job.attempt

/-- The allowed changes of status. -/
def allowedTransition : MemoryJobStatus → MemoryJobStatus → Bool
  | .queued, .running | .queued, .failed | .queued, .cancelled => true
  | .running, .interrupted | .running, .succeeded | .running, .failed | .running, .cancelled => true
  | .interrupted, .queued | .interrupted, .cancelled => true
  | _, _ => false

def validateMemoryJobStatusTransition (source target : MemoryJobStatus) : Jobs Unit :=
  rejectIf (allowedTransition source target = false) .invalidStatusTransition

structure MemoryJobDispatchPlan where
  startJobIds : List MemoryJobId
  runningJobs : UInt32
  remainingRateSlots : UInt32
  blockedByConcurrency : Bool
  blockedByRateLimit : Bool
deriving DecidableEq

/-- The task that carries a job of this kind. -/
def MemoryJobKind.expectedTaskKind : MemoryJobKind → Option AuxiliaryTaskKind
  | .summary => some .memorySummary
  | .embedding => some .memoryEmbedding
  | .invalidateRange => none

/-- One job of the duplicate check: the ids and keys seen. -/
def uniqueJobStep (seen : List MemoryJobId × List String) (job : MemoryJob) :
    Jobs (List MemoryJobId × List String) := do
  rejectIf (job.id ∈ seen.1) (.duplicateJobId job.id)
  rejectIf (job.idempotencyKey ∈ seen.2) .duplicateExistingKey
  return (seen.1 ++ [job.id], seen.2 ++ [job.idempotencyKey])

/-- The jobs of a kind in one status. -/
def jobsIn (kind : MemoryJobKind) (status : MemoryJobStatus) (jobs : List MemoryJob) :
    List MemoryJob :=
  jobs.filter fun job => job.kind = kind && job.status = status

/-- `(created_at, id)` order. -/
def jobLe (left right : MemoryJob) : Bool :=
  lexLe [compare left.createdAt right.createdAt, compare left.id right.id]

def planMemoryJobDispatch (jobs : List MemoryJob) (kind : MemoryJobKind) (taskProfile : TaskProfile)
    (requestsStartedInWindow : UInt32) : Jobs MemoryJobDispatchPlan := do
  let expectedTaskKind ← okOr kind.expectedTaskKind .taskKindMismatch
  rejectIf (taskProfile.kind ≠ expectedTaskKind) .taskKindMismatch
  rejectIf (taskProfile.concurrencyLimit = 0 ∨ taskProfile.rateLimit.requests = 0 ∨
    taskProfile.rateLimit.perSeconds = 0) .invalidTaskProfile
  let _ ← jobs.foldlM uniqueJobStep ([], [])
  let runningJobs := (u32TryFrom (jobsIn kind .running jobs).length).getD (UInt32.ofNat u32Max)
  let concurrencySlots := satSub taskProfile.concurrencyLimit runningJobs
  let remainingRateSlots := satSub taskProfile.rateLimit.requests requestsStartedInWindow
  let dispatchCount := min concurrencySlots remainingRateSlots
  let queued := stableSort jobLe (jobsIn kind .queued jobs)
  return {
    startJobIds := (queued.take dispatchCount.toNat).map (·.id)
    runningJobs := runningJobs
    remainingRateSlots := remainingRateSlots
    blockedByConcurrency := concurrencySlots = 0
    blockedByRateLimit := remainingRateSlots = 0 }

/-- A job after a dispatch: a planned one moves from queued to running. -/
def startJob (plan : MemoryJobDispatchPlan) (job : MemoryJob) : MemoryJob :=
  if job.id ∈ plan.startJobIds ∧ job.status = .queued then { job with status := .running } else job

/-- The jobs after exactly the planned ones are moved from queued to running. -/
def startJobs (plan : MemoryJobDispatchPlan) (jobs : List MemoryJob) : List MemoryJob :=
  jobs.map (startJob plan)

end LorePia
