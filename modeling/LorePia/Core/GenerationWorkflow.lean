import LorePia.Core.Delivery

/-!
# The task of one generation (`crates/core/src/app/generation_workflow.rs`)

The task runs the generation and hands its events on (`Forwarder`), then stores the assistant's message and
publishes the end (`finishGenerationTask`). What the storage answers is a parameter, and so are the output
transforms: the canonical and the displayed text of a text, when a set of transforms is enabled. The usage, the
opaque states and the error code that are stored with the message, and the reports of the transforms, are left out.
-/

namespace LorePia.Delivery

open Base

variable {ω υ : Type}

def partialCheckpointBytes : Nat := 64 * 1024

def generationPersistenceFailureMessage : String := "generation state could not be saved; retry the message"

/-- `CoreErrorCode::as_str`. -/
def codeStr : CoreErrorCode → String
  | .invalidInput => "invalid_input"
  | .unsupportedContent => "unsupported_content"
  | .unsafeArchive => "unsafe_archive"
  | .notFound => "not_found"
  | .permissionDenied => "permission_denied"
  | .storageUnavailable => "storage_unavailable"
  | .storageCorrupted => "storage_corrupted"
  | .providerAuthFailed => "provider_auth_failed"
  | .providerRateLimited => "provider_rate_limited"
  | .providerUnavailable => "provider_unavailable"
  | .networkUnavailable => "network_unavailable"
  | .cancelled => "cancelled"
  | .internal => "internal"

/-- `u64::saturating_add(1)`. -/
def nextSequence (sequence : Nat) : Nat := min (sequence + 1) (2 ^ 64 - 1)

/-! ## Forwarding -/

/-- The context of the task. -/
structure GenerationTask where
  generationId : GenerationId
  conversationId : ConversationId
  branchId : ConversationBranchId
  assistant : Message
  preservePartial : Bool
  /-- `generation_has_output_transforms`, with what they make of a text. -/
  outputTransforms : Option (String → String × String)

/-- The kind of an event that `run_generation` sends. -/
def sentKind : LorePia.ChatEventKind υ → ChatEventKind υ
  | .generationStarted => .generationStarted
  | .reasoningDelta delta => .reasoningDelta delta
  | .textDelta delta => .textDelta delta
  | .toolCallStarted id name => .toolCallStarted id name
  | .toolCallArgumentsDelta id delta => .toolCallArgumentsDelta id delta
  | .toolCallCompleted id => .toolCallCompleted id
  | .usageUpdated usage => .usageUpdated usage

/-- An event that `run_generation` sends. -/
def GenerationTask.sent (task : GenerationTask) (event : LorePia.ChatEvent υ) : ChatEvent υ :=
  .new task.generationId task.conversationId event.sequence (sentKind event.kind)

def GenerationTask.routed (task : GenerationTask) (event : ChatEvent υ) : ChatEvent υ :=
  event.withRoute task.branchId task.assistant.id

def ChatEventKind.isTextDelta : ChatEventKind υ → Bool
  | .textDelta _ => true
  | _ => false

/-- The loop state of `forward_generation_events`, with what it published and the content last stored. -/
structure Forwarder (υ : Type) where
  content : String
  lastCheckpointBytes : Nat
  dirty : Bool
  published : List (ChatEvent υ)
  stored : Option String

inductive ForwarderInput (υ : Type)
  | event (event : ChatEvent υ)
  | tick
  | closed

/-- How a publication and a checkpoint end, where the turn makes them. -/
structure ForwarderAnswers where
  publish : Except CoreError Unit
  checkpoint : Except CoreError Unit

namespace Forwarder

def start (task : GenerationTask) : Forwarder υ := ⟨task.assistant.content, 0, false, [], none⟩

def partialCheckpointDue (currentBytes lastCheckpointBytes : Nat) : Bool :=
  partialCheckpointBytes ≤ currentBytes - lastCheckpointBytes

/-- `checkpoint_pending_assistant`, after which nothing is to be stored. -/
def checkpoint (forwarder : Forwarder υ) (answers : ForwarderAnswers) : Forwarder υ × Except CoreError Unit :=
  match answers.checkpoint with
  | .ok () =>
    ({ forwarder with
        lastCheckpointBytes := forwarder.content.utf8ByteSize
        dirty := false
        stored := some forwarder.content }, .ok ())
  | .error error => (forwarder, .error error)

def append (forwarder : Forwarder υ) : ChatEventKind υ → Forwarder υ
  | .textDelta delta => { forwarder with content := forwarder.content ++ delta, dirty := true }
  | _ => forwarder

/-- The event of a turn is published, unless it is a text delta that is deferred. -/
def publish (task : GenerationTask) (forwarder : Forwarder υ) (event : ChatEvent υ) (answers : ForwarderAnswers) :
    Forwarder υ × Except CoreError Unit :=
  if task.outputTransforms.isNone || !event.kind.isTextDelta then
    match answers.publish with
    | .ok () => ({ forwarder with published := forwarder.published ++ [task.routed event] }, .ok ())
    | .error error => (forwarder, .error error)
  else (forwarder, .ok ())

/-- One turn of `forward_generation_events`, which an error ends; `closed` is the end of the channel. -/
def turn (task : GenerationTask) (forwarder : Forwarder υ) (input : ForwarderInput υ)
    (answers : ForwarderAnswers) : Forwarder υ × Except CoreError Unit :=
  match input with
  | .closed | .tick =>
    if task.preservePartial && forwarder.dirty then forwarder.checkpoint answers else (forwarder, .ok ())
  | .event event =>
    let appended :=
      if task.outputTransforms.isNone && task.preservePartial then forwarder.append event.kind else forwarder
    match appended.publish task event answers with
    | (published, .error error) => (published, .error error)
    | (published, .ok ()) =>
      if task.preservePartial && published.dirty &&
          partialCheckpointDue published.content.utf8ByteSize published.lastCheckpointBytes then
        published.checkpoint answers
      else (published, .ok ())

/-- `forward_generation_events`: the turns up to an error. -/
def run (task : GenerationTask) : Forwarder υ → List (ForwarderInput υ × ForwarderAnswers) →
    Forwarder υ × Except CoreError Unit
  | forwarder, [] => (forwarder, .ok ())
  | forwarder, (input, answers) :: rest =>
    match forwarder.turn task input answers with
    | (next, .ok ()) => run task next rest
    | (next, .error error) => (next, .error error)

end Forwarder

/-! ## The end of the task -/

/-- What the storage answers at the end. -/
structure TerminalStorage where
  finalize : Message → Bool → Option String → Except CoreError Unit
  failAfterFinalizeError : Message → Bool → Except CoreError Unit
  generationStatus : Except CoreError GenerationStatus
  displayProjection : Message → Except CoreError (Option String)

def mergeGenerationAndForwardingResults (generation : Except GenerationFailure (GenerationOutcome ω υ))
    (forwarding : Except CoreError Unit) : Except GenerationFailure (GenerationOutcome ω υ) :=
  match generation, forwarding with
  | result, .ok () => result
  | .ok outcome, .error error => .error ⟨error, outcome.text, outcome.lastSequence⟩
  | .error failure, .error error => .error { failure with error }

/-- `apply_generation_output_transforms`: the result with its canonical text, and what is displayed. -/
def applyGenerationOutputTransforms (result : Except GenerationFailure (GenerationOutcome ω υ))
    (transforms : Option (String → String × String)) :
    Except GenerationFailure (GenerationOutcome ω υ) × Option String :=
  match transforms with
  | none => (result, none)
  | some transform =>
    match result with
    | .ok outcome =>
      (.ok { outcome with text := (transform outcome.text).1 }, some (transform outcome.text).2)
    | .error failure =>
      (.error { failure with partialText := (transform failure.partialText).1 },
        some (transform failure.partialText).2)

/-- `apply_generation_result`: the assistant's message, the next sequence, how the generation ends and whether the
message is kept. -/
def applyGenerationResult (assistant : Message) (result : Except GenerationFailure (GenerationOutcome ω υ))
    (preservePartial : Bool) : Message × Nat × ChatEventKind υ × Bool :=
  match result with
  | .ok outcome =>
    ({ assistant with content := outcome.text, status := .complete }, nextSequence outcome.lastSequence,
      .generationFinished, true)
  | .error failure =>
    let cancelled := failure.error.code = .cancelled
    ({ assistant with content := failure.partialText, status := if cancelled then .cancelled else .failed },
      nextSequence failure.lastSequence,
      if cancelled then .generationCancelled
      else .generationFailed (codeStr failure.error.code) failure.error.message,
      preservePartial && failure.partialText ≠ "")

def generationStatusForMessage : MessageStatus → GenerationStatus
  | .pending => .running
  | .complete => .complete
  | .cancelled => .cancelled
  | .failed => .failed

def generationPersistenceFailure : ChatEventKind υ :=
  .generationFailed (codeStr .storageUnavailable) generationPersistenceFailureMessage

def isOkAnd {α : Type} (result : Except CoreError α) (test : α → Bool) : Bool :=
  match result with
  | .ok value => test value
  | .error _ => false

/-- What `persist_generation_terminal` gives back. -/
structure Persisted (υ : Type) where
  assistant : Message
  terminalKind : ChatEventKind υ
  committed : Bool
  projectionCommitted : Bool

def persistGenerationTerminal (storage : TerminalStorage) (assistant : Message) (shouldCommit : Bool)
    (displayProjection : Option String) (terminalKind : ChatEventKind υ) : Persisted υ :=
  let projection := if shouldCommit then displayProjection else none
  let persistence := storage.finalize assistant shouldCommit projection
  let failed := { assistant with status := .failed }
  let (assistant, terminalKind, committed) :=
    match persistence with
    | .ok () => (assistant, terminalKind, shouldCommit)
    | .error _ =>
      match storage.failAfterFinalizeError failed shouldCommit with
      | .ok () => (failed, generationPersistenceFailure, shouldCommit)
      | .error _ =>
        if isOkAnd storage.generationStatus (· = generationStatusForMessage assistant.status) then
          (assistant, terminalKind, shouldCommit)
        else (failed, generationPersistenceFailure, false)
  { assistant, terminalKind, committed
    projectionCommitted := committed && projection.any fun expected =>
      persistence.isOk || isOkAnd (storage.displayProjection assistant) (· = some expected) }

/-- The display text that was deferred to the end. -/
def deferredDisplayText (displayProjection : Option String) (persisted : Persisted υ) : Option String :=
  displayProjection.bind fun display =>
    if persisted.committed then some (if persisted.projectionCommitted then display else persisted.assistant.content)
    else none

/-- The events at the end of a task, numbered from `sequence` on. -/
def GenerationTask.ending (task : GenerationTask) (persisted : Persisted υ) (deferred : Option String)
    (sequence : Nat) : List (ChatEvent υ) :=
  let event (sequence : Nat) (kind : ChatEventKind υ) : ChatEvent υ :=
    task.routed (.new task.generationId task.conversationId sequence kind)
  let (displayed, sequence) := match deferred.filter (· ≠ "") with
    | some text => ([event sequence (.textDelta text)], nextSequence sequence)
    | none => ([], sequence)
  let (stored, sequence) :=
    if persisted.committed then
      ([event sequence (.messageCommitted persisted.assistant.id persisted.assistant.status)], nextSequence sequence)
    else ([], sequence)
  displayed ++ stored ++ [event sequence persisted.terminalKind]

/-- `finish_generation_task`: what is stored, the deferred text and the events that are published, in their order. -/
def finishGenerationTask (task : GenerationTask) (storage : TerminalStorage)
    (result : Except GenerationFailure (GenerationOutcome ω υ)) :
    Persisted υ × Option String × List (ChatEvent υ) :=
  let (result, displayProjection) := applyGenerationOutputTransforms result task.outputTransforms
  let (assistant, sequence, terminalKind, shouldCommit) :=
    applyGenerationResult task.assistant result task.preservePartial
  let persisted := persistGenerationTerminal storage assistant shouldCommit displayProjection terminalKind
  let deferred := deferredDisplayText displayProjection persisted
  (persisted, deferred, task.ending persisted deferred sequence)

end LorePia.Delivery
