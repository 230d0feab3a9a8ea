import LorePia.Base.Broadcast
import LorePia.Core.GenerationEvents

/-!
# Chat event streams (`crates/shell-api/src/stream.rs`, `crates/shell-api/src/api/generation.rs`)

A stream reads the event bus at a position of its own. `ChatEventStream.recv` is one turn of the loop of `recv`,
which has no state but the stream's: it waits, skips the event of another generation, or gives back an item.
The conversion of an event to its transport form copies its fields and is left out.
-/

namespace LorePia.Delivery

open Base

variable {υ : Type}

def maxIpcIdentifierBytes : Nat := 512
def maxIpcIdentifierChars : Nat := 256

inductive ReconcileReason
  | broadcastLagged
  | unsupportedEventVersion
  | routeMismatch
  | duplicateOrDecreasingSequence
  | sequenceGap
  | liveSnapshot
  | eventAfterTerminal
deriving DecidableEq

/-- `ReconciliationRequiredDto`. -/
structure ReconciliationRequired where
  reason : ReconcileReason
  generationId : GenerationId
  conversationId : ConversationId
  branchId : ConversationBranchId
  lastSequence : Option Nat
  observedSequence : Option Nat
  droppedEvents : Option Nat
  supportedEventVersion : Nat
  displayPrefix : Option String
  reasoningPrefix : Option String
deriving DecidableEq

inductive ChatStreamItem (υ : Type)
  | event (event : ChatEvent υ)
  | reconciliationRequired (required : ReconciliationRequired)
  | closed
deriving DecidableEq

structure ChatEventStream where
  receiver : Nat
  generationId : GenerationId
  conversationId : ConversationId
  branchId : ConversationBranchId
  assistantMessageId : Option MessageId
  lastSequence : Option Nat
  terminalSeen : Bool
  initialControl : Option ReconciliationRequired
  reconciliationRequired : Bool
deriving DecidableEq

structure GenerationReattachment where
  assistantMessageId : MessageId
  sequenceBaseline : Nat
  authoritativeWatermark : Nat
  displayPrefix : String
  reasoningPrefix : String

namespace ChatEventStream

def newWithSequenceBaseline (receiver : Nat) (generationId : GenerationId) (conversationId : ConversationId)
    (branchId : ConversationBranchId) (sequenceBaseline : Nat) : ChatEventStream :=
  { receiver, generationId, conversationId, branchId
    assistantMessageId := none
    lastSequence := some sequenceBaseline
    terminalSeen := false
    initialControl := none
    reconciliationRequired := false }

def new (receiver : Nat) (generationId : GenerationId) (conversationId : ConversationId)
    (branchId : ConversationBranchId) : ChatEventStream :=
  newWithSequenceBaseline receiver generationId conversationId branchId 0

/-- The initial control of `ChatEventStream::reattached`. -/
def liveSnapshot (generationId : GenerationId) (conversationId : ConversationId) (branchId : ConversationBranchId)
    (reattachment : GenerationReattachment) : ReconciliationRequired :=
  { reason := .liveSnapshot
    generationId, conversationId, branchId
    lastSequence := some reattachment.sequenceBaseline
    observedSequence := some reattachment.authoritativeWatermark
    droppedEvents := none
    supportedEventVersion := chatEventVersion
    displayPrefix := some reattachment.displayPrefix
    reasoningPrefix := some reattachment.reasoningPrefix }

def reattached (receiver : Nat) (generationId : GenerationId) (conversationId : ConversationId)
    (branchId : ConversationBranchId) (reattachment : GenerationReattachment) : ChatEventStream :=
  { receiver, generationId, conversationId, branchId
    assistantMessageId := some reattachment.assistantMessageId
    lastSequence := some reattachment.authoritativeWatermark
    terminalSeen := false
    initialControl := some (liveSnapshot generationId conversationId branchId reattachment)
    reconciliationRequired := false }

def requireReconciliation (stream : ChatEventStream) (reason : ReconcileReason)
    (observedSequence droppedEvents : Option Nat) : ChatEventStream × Option (ChatStreamItem υ) :=
  ({ stream with reconciliationRequired := true },
    some (.reconciliationRequired
      { reason
        generationId := stream.generationId
        conversationId := stream.conversationId
        branchId := stream.branchId
        lastSequence := stream.lastSequence
        observedSequence, droppedEvents
        supportedEventVersion := chatEventVersion
        displayPrefix := none
        reasoningPrefix := none }))

/-- What `recv` does with an event that it has received. -/
def receive (stream : ChatEventStream) (event : ChatEvent υ) : ChatEventStream × Option (ChatStreamItem υ) :=
  if event.generationId ≠ stream.generationId then (stream, none)
  else if event.eventVersion ≠ chatEventVersion then
    stream.requireReconciliation .unsupportedEventVersion (some event.sequence) none
  else if event.conversationId ≠ stream.conversationId ∨ event.branchId ≠ some stream.branchId then
    stream.requireReconciliation .routeMismatch (some event.sequence) none
  else match event.assistantMessageId with
    | none => stream.requireReconciliation .routeMismatch (some event.sequence) none
    | some observed =>
      if stream.assistantMessageId.any (· ≠ observed) then
        stream.requireReconciliation .routeMismatch (some event.sequence) none
      else if stream.terminalSeen then
        stream.requireReconciliation .eventAfterTerminal (some event.sequence) none
      else if stream.lastSequence.any (event.sequence ≤ ·) then
        stream.requireReconciliation .duplicateOrDecreasingSequence (some event.sequence) none
      else
        ({ stream with
            assistantMessageId := stream.assistantMessageId.or (some observed)
            lastSequence := some event.sequence
            terminalSeen := event.kind.isTerminal },
          some (.event event))

/-- One turn of `ChatEventStream::recv`: no item while it goes on. -/
def recv (stream : ChatEventStream) (bus : Broadcast (ChatEvent υ)) :
    ChatEventStream × Option (ChatStreamItem υ) :=
  match stream.initialControl with
  | some control => ({ stream with initialControl := none }, some (.reconciliationRequired control))
  | none =>
    if stream.reconciliationRequired then (stream, some .closed)
    else match bus.recv stream.receiver with
      | none => (stream, none)
      | some (.value event, next) => receive { stream with receiver := next } event
      | some (.lagged missed, next) =>
        requireReconciliation { stream with receiver := next } .broadcastLagged none (some missed)
      | some (.closed, next) => ({ stream with receiver := next }, some .closed)

end ChatEventStream

/-- `validate_identifier` of the shell. -/
def validateIdentifier (field value : String) : Except CoreError Unit :=
  rejectIf (value = "" ∨ maxIpcIdentifierBytes < value.utf8ByteSize ∨ maxIpcIdentifierChars < value.length ∨
      value.toList.any isControl = true)
    (.invalid (field ++ " is not a bounded identifier"))

/-- `subscribe_generation` on the entry that it has looked up. -/
def subscribeGeneration (entry : ActiveGeneration) (generationId : GenerationId) (conversationId : ConversationId)
    (branchId : ConversationBranchId) (sequenceBaseline : Nat) (stored : Except CoreError GenerationRecord)
    (receiver : Nat) : Except CoreError ChatEventStream := do
  validateIdentifier "generation_id" generationId
  validateIdentifier "conversation_id" conversationId
  validateIdentifier "branch_id" branchId
  let subscription ← subscribeGenerationEvents entry conversationId branchId stored receiver
  rejectIf (subscription.sequenceWatermark < sequenceBaseline)
    (.invalid "generation sequence baseline exceeds the live event watermark")
  .ok (.reattached subscription.receiver generationId conversationId branchId
    ⟨subscription.assistantMessageId, sequenceBaseline, subscription.sequenceWatermark, subscription.displayPrefix,
      subscription.reasoningPrefix⟩)

/-! ## Readers -/

/-- A stream with the position it started at, the snapshot it was made with and every item it gave back. -/
structure Reader (υ : Type) where
  stream : ChatEventStream
  start : Nat
  snapshot : Option ReconciliationRequired
  items : List (ChatStreamItem υ)

def Reader.opened (stream : ChatEventStream) : Reader υ := ⟨stream, stream.receiver, stream.initialControl, []⟩

/-- One turn of a stream, with the item that it gives back. -/
def Reader.recv (reader : Reader υ) (bus : Broadcast (ChatEvent υ)) : Reader υ :=
  { reader with
    stream := (reader.stream.recv bus).1
    items := reader.items ++ (reader.stream.recv bus).2.toList }

end LorePia.Delivery
