import LorePia.Chat.Generation
import LorePia.Chat.Prompt

/-!
# The registry of running generations (`crates/core/src/app/generation_events.rs`)

Each entry of the map is an `Arc`: a call looks the entry up under the lock of the map and works on it under
the entry's own lock, and in between the entry may leave the map. So the entries are kept apart from the map:
`entries` has all that were ever registered, and those of the map are marked `active`. The cancellation
channel of an entry, the waiting at shutdown and poisoned locks are left out, and so is the time of an event.
-/

namespace LorePia.Delivery

open Base

def chatEventVersion : Nat := 4

def maxActiveGenerationsPerProcess : Nat := 32
def maxActiveGenerationsPerProvider : Nat := 8
def maxActiveGenerationsPerConversation : Nat := 4

def maxLiveDisplayPrefixChars : Nat := 256 * 1024
def maxLiveDisplayPrefixBytes : Nat := maxLiveDisplayPrefixChars * 4

def internal (message : String) : CoreError := ⟨.internal, message, false⟩

/-! ## Events (`crates/chat/src/events.rs`) -/

/-- `ChatEventKind`; what a usage record contains is a parameter. -/
inductive ChatEventKind (υ : Type)
  | generationStarted
  | reasoningDelta (delta : String)
  | textDelta (delta : String)
  | toolCallStarted (id name : String)
  | toolCallArgumentsDelta (id delta : String)
  | toolCallCompleted (id : String)
  | usageUpdated (usage : υ)
  | messageCommitted (messageId : MessageId) (status : MessageStatus)
  | generationCancelled
  | generationFailed (code message : String)
  | generationFinished
deriving DecidableEq

structure ChatEvent (υ : Type) where
  eventVersion : Nat
  generationId : GenerationId
  conversationId : ConversationId
  branchId : Option ConversationBranchId
  assistantMessageId : Option MessageId
  sequence : Nat
  kind : ChatEventKind υ
deriving DecidableEq

def ChatEvent.new {υ : Type} (generationId : GenerationId) (conversationId : ConversationId) (sequence : Nat)
    (kind : ChatEventKind υ) : ChatEvent υ :=
  { eventVersion := chatEventVersion, generationId, conversationId, branchId := none, assistantMessageId := none,
    sequence, kind }

def ChatEvent.withRoute {υ : Type} (event : ChatEvent υ) (branchId : ConversationBranchId)
    (assistantMessageId : MessageId) : ChatEvent υ :=
  { event with branchId := some branchId, assistantMessageId := some assistantMessageId }

/-- `ChatEventKindDto::is_terminal`, and the test of `publish`. -/
def ChatEventKind.isTerminal {υ : Type} : ChatEventKind υ → Bool
  | .generationCancelled | .generationFailed .. | .generationFinished => true
  | _ => false

/-! ## Entries -/

/-- What is read of a `GenerationRecord`. -/
inductive GenerationStatus
  | running | complete | cancelled | failed
deriving DecidableEq

structure GenerationRecord where
  id : GenerationId
  conversationId : ConversationId
  branchId : ConversationBranchId
  assistantMessageId : Option MessageId
  status : GenerationStatus
deriving DecidableEq

inductive GenerationDeliveryPhase
  | preparing | running | terminal
deriving DecidableEq

structure GenerationRoute where
  conversation : ConversationId
  branch : ConversationBranchId
  assistantMessage : MessageId
deriving DecidableEq

/-- `GenerationProviderAdmissionKey`, without the key of the tests. -/
inductive GenerationProviderAdmissionKey
  | connection (id : String)
  | providerProfile (id : String)
deriving DecidableEq

structure GenerationLivePrefix where
  display : String
  reasoning : String
  displayChars : Nat
  reasoningChars : Nat
deriving DecidableEq

def GenerationLivePrefix.default : GenerationLivePrefix := ⟨"", "", 0, 0⟩

/-- `GenerationLivePrefix::append`; nothing when a limit is exceeded. -/
def GenerationLivePrefix.append {υ : Type} (live : GenerationLivePrefix) : ChatEventKind υ → Option GenerationLivePrefix
  | .textDelta delta =>
    if maxLiveDisplayPrefixBytes < live.display.utf8ByteSize + delta.utf8ByteSize ∨
        maxLiveDisplayPrefixChars < live.displayChars + delta.length then none
    else some { live with display := live.display ++ delta, displayChars := live.displayChars + delta.length }
  | .reasoningDelta delta =>
    if maxGeneratedOutputBytes < live.reasoning.utf8ByteSize + delta.utf8ByteSize ∨
        maxGeneratedOutputChars < live.reasoningChars + delta.length then none
    else some { live with
      reasoning := live.reasoning ++ delta, reasoningChars := live.reasoningChars + delta.length }
  | _ => some live

structure GenerationDeliveryState where
  phase : GenerationDeliveryPhase
  sequenceWatermark : Nat
  livePrefix : Option GenerationLivePrefix
deriving DecidableEq

structure ActiveGeneration where
  route : GenerationRoute
  providerAdmissionKey : GenerationProviderAdmissionKey
  delivery : GenerationDeliveryState
deriving DecidableEq

/-- An entry with the id it was registered under, and whether the map still has it. -/
structure Registered where
  generation : GenerationId
  entry : ActiveGeneration
  active : Bool
deriving DecidableEq

structure GenerationRegistry where
  entries : List Registered
deriving DecidableEq

namespace GenerationRegistry

/-- The values of the map. -/
def values (registry : GenerationRegistry) : List Registered := registry.entries.filter (·.active)

def generationAdmissionLimitReached (scope : String) : CoreError :=
  ⟨.providerRateLimited, "active generation " ++ scope ++ " concurrency limit reached", true⟩

def generationSubscriptionUnavailable : CoreError := ⟨.notFound, "generation subscription is unavailable", false⟩

/-- The entry that `register` inserts. -/
def launched (generation : GenerationRecord) (key : GenerationProviderAdmissionKey) (assistant : MessageId) :
    Registered :=
  { generation := generation.id
    entry :=
      { route := ⟨generation.conversationId, generation.branchId, assistant⟩
        providerAdmissionKey := key
        delivery := ⟨.preparing, 0, some .default⟩ }
    active := true }

def register (registry : GenerationRegistry) (generation : GenerationRecord)
    (providerAdmissionKey : GenerationProviderAdmissionKey) : Except CoreError GenerationRegistry := do
  let assistant ← okOr generation.assistantMessageId
    (internal "running generation is missing its assistant message route")
  rejectIf (∃ entry ∈ registry.values, entry.generation = generation.id)
    (internal "generation is already registered for delivery")
  rejectIf (maxActiveGenerationsPerProcess ≤ registry.values.length) (generationAdmissionLimitReached "process")
  rejectIf (maxActiveGenerationsPerConversation ≤
      registry.values.countP fun entry => entry.entry.route.conversation = generation.conversationId)
    (generationAdmissionLimitReached "conversation")
  rejectIf (maxActiveGenerationsPerProvider ≤
      registry.values.countP fun entry => entry.entry.providerAdmissionKey = providerAdmissionKey)
    (generationAdmissionLimitReached "provider")
  .ok ⟨registry.entries ++ [launched generation providerAdmissionKey assistant]⟩

/-- `GenerationRegistry::entry`: where the entry of the map is. -/
def entry (registry : GenerationRegistry) (generation : GenerationId) : Except CoreError Nat :=
  okOr (registry.entries.findIdx? fun entry => entry.active && entry.generation = generation)
    generationSubscriptionUnavailable

/-- The entry at an address after its section has run. -/
def update (registry : GenerationRegistry) (address : Nat) (entry : ActiveGeneration) : GenerationRegistry :=
  ⟨registry.entries.modify address ({ · with entry })⟩

def remove (registry : GenerationRegistry) (generation : GenerationId) : GenerationRegistry :=
  ⟨registry.entries.map fun entry =>
    if entry.active && entry.generation = generation then { entry with active := false } else entry⟩

end GenerationRegistry

namespace ActiveGeneration

/-- The section of `GenerationRegistry::activate`. -/
def activate (entry : ActiveGeneration) : Except CoreError ActiveGeneration := do
  rejectIf (entry.delivery.phase ≠ .preparing) (internal "generation delivery phase cannot be activated")
  .ok { entry with delivery := { entry.delivery with phase := .running } }

/-- The section of `GenerationRegistry::publish`, which sends the event when it succeeds. -/
def publish {υ : Type} (entry : ActiveGeneration) (event : ChatEvent υ) : Except CoreError ActiveGeneration := do
  rejectIf (entry.delivery.phase ≠ .running)
    (internal "generation event was published outside the running phase")
  rejectIf (event.conversationId ≠ entry.route.conversation ∨ event.branchId ≠ some entry.route.branch ∨
      event.assistantMessageId ≠ some entry.route.assistantMessage)
    (internal "generation event route does not match the registered route")
  rejectIf (event.sequence ≤ entry.delivery.sequenceWatermark)
    (internal "generation event sequence is not strictly increasing")
  .ok { entry with delivery :=
    { phase := if event.kind.isTerminal then .terminal else entry.delivery.phase
      sequenceWatermark := event.sequence
      livePrefix := entry.delivery.livePrefix.bind (·.append event.kind) } }

end ActiveGeneration

/-! ## Subscribing (`crates/core/src/app/generation/delivery.rs`) -/

/-- `GenerationEventSubscription`, the receiver being a position on the event bus. -/
structure GenerationEventSubscription where
  receiver : Nat
  assistantMessageId : MessageId
  sequenceWatermark : Nat
  displayPrefix : String
  reasoningPrefix : String

/-- The section of `Core::subscribe_generation_events`. `stored` is what the storage answers for the generation,
`receiver` the position of a receiver made now. -/
def subscribeGenerationEvents (entry : ActiveGeneration) (conversationId : ConversationId)
    (branchId : ConversationBranchId) (stored : Except CoreError GenerationRecord) (receiver : Nat) :
    Except CoreError GenerationEventSubscription := do
  rejectIf (entry.delivery.phase = .terminal ∨ entry.route.conversation ≠ conversationId ∨
      entry.route.branch ≠ branchId)
    GenerationRegistry.generationSubscriptionUnavailable
  let generation ← stored
  rejectIf (generation.status ≠ .running ∨ generation.conversationId ≠ conversationId ∨
      generation.branchId ≠ branchId ∨ generation.assistantMessageId ≠ some entry.route.assistantMessage)
    GenerationRegistry.generationSubscriptionUnavailable
  let live ← okOr entry.delivery.livePrefix
    (internal "live generation catch-up prefix exceeded its bounded contract")
  .ok ⟨receiver, entry.route.assistantMessage, entry.delivery.sequenceWatermark, live.display, live.reasoning⟩

end LorePia.Delivery
