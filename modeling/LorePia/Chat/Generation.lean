import LorePia.Chat.Reflection
import LorePia.Domain.Interaction
import Mathlib.Data.Finset.Card
import Mathlib.Data.Finset.Insert
import Mathlib.Data.Finset.SDiff
import Mathlib.Data.Finset.Union

/-!
# Running a generation (`crates/chat/src/generation.rs`)

The provider sends events and ends in a usage record, an error or a cancellation. The channels, the selection
among them and the draining after the end leave one order of the received events, which is the input here;
the receiver of the chat events stays open. Identifiers, names and argument deltas are their texts. What an
opaque reasoning state and a usage record contain, and the validation of the request, are parameters.
-/

namespace LorePia

open Base

def maxGeneratedOutputBytes : Nat := 256 * 1024
def maxGeneratedOutputChars : Nat := 64 * 1024
def maxGeneratedToolCalls : Nat := 128
def maxGeneratedProviderEvents : Nat := 8192
def maxGeneratedToolArgumentBytes : Nat := 256 * 1024
def maxGeneratedToolArgumentChars : Nat := 128 * 1024
def maxProviderErrorBytes : Nat := 16 * 1024
def maxProviderErrorChars : Nat := 4 * 1024
def maxBorrowedCredentialBytes : Nat := 16 * 1024
def maxToolArgumentDeltaBytes : Nat := 64 * 1024
def maxToolArgumentDeltaChars : Nat := 32 * 1024

/-! ## Errors -/

def toolProtocolError (message : String) : ChatStop := .failed ⟨.providerUnavailable, message, false⟩

def outputLimitError : ChatStop := .failed
  ⟨.providerUnavailable, "provider output exceeded the 262144-byte or 65536-character safety limit", false⟩

def toolArgumentsLimitError : ChatStop := toolProtocolError
  "provider tool-call arguments exceeded the 262144-byte or 131072-character safety limit"

def providerEventLimitError : ChatStop := toolProtocolError
  "provider exceeded the 8192 non-progress event limit"

def cancelledError : CoreError := ⟨.cancelled, "generation was cancelled", true⟩

def validateBorrowedCredential (credential : Option String) : Except CoreError Unit :=
  rejectIf (credential.any (·.utf8ByteSize > maxBorrowedCredentialBytes) = true)
    (.invalid "provider credential exceeds the 16384-byte safety limit")

def boundProviderError (error : CoreError) (guard : CredentialReflectionGuard) : CoreError :=
  if guard.contains error.message then credentialReflectionError
  else if error.message.utf8ByteSize ≤ maxProviderErrorBytes ∧ error.message.length ≤ maxProviderErrorChars then
    error
  else ⟨.providerUnavailable, "provider returned an oversized failure response", false⟩

/-! ## Events -/

inductive ProviderEvent (ω : Type)
  | textDelta (delta : String)
  | reasoningDelta (delta : String)
  | opaqueReasoningState (state : ω)
  | toolCallStarted (id name : String)
  | toolCallArgumentsDelta (id delta : String)
  | toolCallCompleted (id : String)

inductive ChatEventKind (υ : Type)
  | generationStarted
  | reasoningDelta (delta : String)
  | textDelta (delta : String)
  | toolCallStarted (id name : String)
  | toolCallArgumentsDelta (id delta : String)
  | toolCallCompleted (id : String)
  | usageUpdated (usage : υ)

structure ChatEvent (υ : Type) where
  sequence : Nat
  kind : ChatEventKind υ

/-- How the provider ends. -/
inductive ProviderEnding (υ : Type)
  | completed (usage : υ)
  | failed (error : CoreError)
  | cancelled
  | cancelledBeforeStart

/-- What is read of the request, the opaque states and the usage records. -/
structure GenerationContext (ω υ : Type) where
  validateGenerationRequest : Except CoreError Unit
  preserveOpaqueReasoningState : Bool
  opaqueStateContainsExact : ω → String → Bool
  opaqueStateFamilyMatches : ω → Bool
  validateOpaqueReasoningStates : List ω → Except String Unit
  usageContainsExact : υ → String → Bool

structure GenerationAccumulator (ω υ : Type) where
  credentialGuard : CredentialReflectionGuard
  textReflection : ReflectionStream
  reasoningReflection : ReflectionStream
  text : String
  outputBytes : Nat
  outputChars : Nat
  toolArgumentBytes : Nat
  toolArgumentChars : Nat
  activeToolCalls : Finset String
  completedToolCalls : Finset String
  toolArgumentReflections : String → Option ReflectionStream
  pendingToolCompletions : List (String × ReflectionStream)
  nonProgressEventCount : Nat
  opaqueReasoningState : List ω
  sequence : Nat
  emitted : List (ChatEvent υ)

/-- `ToolCallArgumentsDelta::parse`. -/
def parseToolCallArgumentsDelta (value : String) : Except String Unit := do
  rejectIf (value = "") "tool call arguments delta must not be empty"
  rejectIf (value.toList.any isControl = true) "tool call arguments delta must not contain control characters"
  rejectIf (value.utf8ByteSize > maxToolArgumentDeltaBytes ∨ value.length > maxToolArgumentDeltaChars)
    "tool call arguments delta exceeds the 65536-byte or 32768-character limit"

/-- The loop of `bounded_tool_argument_chunk_end`. -/
def chunkEndFrom : List Char → Nat → Nat → Nat
  | [], _, stop => stop
  | c :: cs, characters, stop =>
    if characters = maxToolArgumentDeltaChars ∨ stop + c.utf8Size > maxToolArgumentDeltaBytes then stop
    else chunkEndFrom cs (characters + 1) (stop + c.utf8Size)

def boundedToolArgumentChunkEnd (value : String) : Nat := chunkEndFrom value.toList 0 0

/-! ## The accumulator -/

section
variable {ω υ : Type}

abbrev Accumulate (ω υ α : Type) := Stateful (GenerationAccumulator ω υ) ChatStop α

/-- The next event is sent; `saturating_add` on `u64`. -/
def GenerationAccumulator.send (kind : ChatEventKind υ) (acc : GenerationAccumulator ω υ) :
    GenerationAccumulator ω υ :=
  { acc with
    sequence := min (acc.sequence + 1) (2 ^ 64 - 1)
    emitted := acc.emitted ++ [⟨min (acc.sequence + 1) (2 ^ 64 - 1), kind⟩] }

/-- `emit`; the receiver is open. -/
def emit (kind : ChatEventKind υ) : Accumulate ω υ Unit := Stateful.modify (·.send kind)

/-- The totals after a delta, within the limits. -/
def nextTotals (bytes chars maxBytes maxChars : Nat) (limitError : ChatStop) (delta : String) :
    Except ChatStop (Nat × Nat) := do
  let nextBytes ← okOr (checkedAdd bytes delta.utf8ByteSize) limitError
  let nextChars ← okOr (checkedAdd chars delta.length) limitError
  rejectIf (nextBytes > maxBytes ∨ nextChars > maxChars) limitError
  pure (nextBytes, nextChars)

def trackOutputDelta (delta : String) : Accumulate ω υ Unit := do
  let acc ← Stateful.get
  let next ← Stateful.lift (nextTotals acc.outputBytes acc.outputChars maxGeneratedOutputBytes
    maxGeneratedOutputChars outputLimitError delta)
  Stateful.modify fun acc => { acc with outputBytes := next.1, outputChars := next.2 }

def trackToolArguments (delta : String) : Accumulate ω υ Unit := do
  let acc ← Stateful.get
  let next ← Stateful.lift (nextTotals acc.toolArgumentBytes acc.toolArgumentChars
    maxGeneratedToolArgumentBytes maxGeneratedToolArgumentChars toolArgumentsLimitError delta)
  Stateful.modify fun acc => { acc with toolArgumentBytes := next.1, toolArgumentChars := next.2 }

/-- The loop of `emit_filtered_tool_arguments`, which takes at least one byte in each turn. -/
def emitChunks (id : String) : Nat → String → Accumulate ω υ Unit
  | 0, remaining => if remaining = "" then pure () else Stateful.fail .panicked
  | fuel + 1, remaining =>
    if remaining = "" then pure ()
    else do
      let parts ← Stateful.lift (okOr (splitOff remaining (boundedToolArgumentChunkEnd remaining)) .panicked)
      Stateful.lift (mapErr (fun _ => toolProtocolError "provider tool-call argument filtering failed")
        (parseToolCallArgumentsDelta parts.1))
      emit (.toolCallArgumentsDelta id parts.1)
      emitChunks id fuel parts.2

def emitFilteredToolArguments (id filtered : String) : Accumulate ω υ Unit :=
  emitChunks id filtered.utf8ByteSize filtered

/-- `validate_tool_id` and `validate_tool_start` of the guard. -/
def rejectReflected (values : List String) : Accumulate ω υ Unit := do
  let acc ← Stateful.get
  Stateful.lift (rejectIf (values.any acc.credentialGuard.contains = true) (.failed credentialReflectionError))

def forwardToolStart (id name : String) : Accumulate ω υ Unit := do
  rejectReflected [id, name]
  let acc ← Stateful.get
  Stateful.lift (rejectIf
    (acc.activeToolCalls.card + acc.completedToolCalls.card ≥ maxGeneratedToolCalls)
    (toolProtocolError "provider exceeded the 128 tool-call generation limit"))
  Stateful.lift (rejectIf (id ∈ acc.activeToolCalls ∨ id ∈ acc.completedToolCalls)
    (toolProtocolError "provider reused a tool-call identifier"))
  Stateful.modify fun acc => { acc with
    activeToolCalls := insert id acc.activeToolCalls
    toolArgumentReflections :=
      Function.update acc.toolArgumentReflections id (some (.new acc.credentialGuard)) }
  emit (.toolCallStarted id name)

/-- The push on the argument stream of a call. -/
def pushToolArguments (id delta : String) : Accumulate ω υ String := do
  let acc ← Stateful.get
  let stream ← Stateful.lift (okOr (acc.toolArgumentReflections id)
    (toolProtocolError "provider tool-call argument stream was unavailable"))
  Stateful.zoom (fun _ => stream)
    (fun stream acc => { acc with
      toolArgumentReflections := Function.update acc.toolArgumentReflections id (some stream) })
    (ReflectionStream.push delta)

def forwardToolArguments (id delta : String) : Accumulate ω υ Unit := do
  rejectReflected [id]
  let acc ← Stateful.get
  if id ∉ acc.activeToolCalls then
    if acc.credentialGuard.contains delta then Stateful.fail (.failed credentialReflectionError)
    else Stateful.fail (toolProtocolError "provider sent tool-call arguments outside an active call")
  else
    trackToolArguments delta
    let filtered ← pushToolArguments id delta
    if filtered = "" then pure () else emitFilteredToolArguments id filtered

def completeToolCall (id : String) : Accumulate ω υ Unit := do
  rejectReflected [id]
  let acc ← Stateful.get
  Stateful.lift (rejectIf (id ∉ acc.activeToolCalls)
    (toolProtocolError "provider completed a tool call that was not active"))
  Stateful.modify fun acc => { acc with activeToolCalls := acc.activeToolCalls.erase id }
  let stream ← Stateful.lift (okOr (acc.toolArgumentReflections id)
    (toolProtocolError "provider tool-call argument stream was unavailable"))
  Stateful.modify fun acc => { acc with
    toolArgumentReflections := Function.update acc.toolArgumentReflections id none
    completedToolCalls := insert id acc.completedToolCalls
    pendingToolCompletions := acc.pendingToolCompletions ++ [(id, stream)] }

/-- A delta of `forward` that counts as output: it is filtered by its stream, and what is released is emitted;
without a credential also an empty delta is. -/
def forwardOutput (view : GenerationAccumulator ω υ → ReflectionStream)
    (put : ReflectionStream → GenerationAccumulator ω υ → GenerationAccumulator ω υ)
    (release : String → Accumulate ω υ Unit) (delta : String) : Accumulate ω υ Unit := do
  trackOutputDelta delta
  let filtered ← Stateful.zoom view put (ReflectionStream.push delta)
  let acc ← Stateful.get
  if filtered ≠ "" ∨ acc.credentialGuard.isEnabled = false then release filtered else pure ()

/-- The text deltas of `forward`. -/
def forwardText (delta : String) : Accumulate ω υ Unit :=
  forwardOutput (·.textReflection) (fun stream acc => { acc with textReflection := stream }) (fun filtered => do
    Stateful.modify fun acc => { acc with text := acc.text ++ filtered }
    emit (.textDelta filtered)) delta

/-- The reasoning deltas of `forward`. -/
def forwardReasoning (delta : String) : Accumulate ω υ Unit :=
  forwardOutput (·.reasoningReflection) (fun stream acc => { acc with reasoningReflection := stream })
    (fun filtered => emit (.reasoningDelta filtered)) delta

variable (context : GenerationContext ω υ)

/-- The opaque states of `forward`. -/
def forwardOpaqueState (state : ω) : Accumulate ω υ Unit := do
  let acc ← Stateful.get
  Stateful.lift (rejectIf (acc.credentialGuard.credential.any (context.opaqueStateContainsExact state) = true)
    (.failed credentialReflectionError))
  if context.preserveOpaqueReasoningState then
    Stateful.lift (rejectIf (context.opaqueStateFamilyMatches state = false) (toolProtocolError
      "provider returned opaque reasoning state for a different API family"))
    Stateful.lift (mapErr toolProtocolError
      (context.validateOpaqueReasoningStates (acc.opaqueReasoningState ++ [state])))
    Stateful.modify fun acc => { acc with opaqueReasoningState := acc.opaqueReasoningState ++ [state] }
  else pure ()

/-- The event consumes the text or argument budget. -/
def ProviderEvent.progresses : ProviderEvent ω → Bool
  | .textDelta delta => delta ≠ ""
  | .reasoningDelta delta => delta ≠ ""
  | .toolCallArgumentsDelta _ delta => delta ≠ ""
  | _ => false

/-- The count of the events that do not progress. -/
def countNonProgress (event : ProviderEvent ω) : Accumulate ω υ Unit :=
  if event.progresses then pure ()
  else do
    Stateful.modify fun acc => { acc with nonProgressEventCount := acc.nonProgressEventCount + 1 }
    let acc ← Stateful.get
    Stateful.lift (rejectIf (acc.nonProgressEventCount > maxGeneratedProviderEvents) providerEventLimitError)

def forward (event : ProviderEvent ω) : Accumulate ω υ Unit := do
  countNonProgress event
  match event with
  | .textDelta delta => forwardText delta
  | .reasoningDelta delta => forwardReasoning delta
  | .toolCallStarted id name => forwardToolStart id name
  | .toolCallArgumentsDelta id delta => forwardToolArguments id delta
  | .toolCallCompleted id => completeToolCall id
  | .opaqueReasoningState state => forwardOpaqueState context state

/-- One queued completion of `finish_public_streams`. -/
def finishToolCall (completion : String × ReflectionStream) : Accumulate ω υ Unit := do
  let filtered := completion.2.finish.1
  if filtered = "" then pure () else emitFilteredToolArguments completion.1 filtered
  emit (.toolCallCompleted completion.1)

def finishPublicStreams : Accumulate ω υ Unit := do
  let acc ← Stateful.get
  let text := acc.textReflection.finish
  Stateful.modify fun acc => { acc with textReflection := text.2 }
  if text.1 = "" then pure ()
  else
    emit (.textDelta text.1)
    Stateful.modify fun acc => { acc with text := acc.text ++ text.1 }
  let reasoning := acc.reasoningReflection.finish
  Stateful.modify fun acc => { acc with reasoningReflection := reasoning.2 }
  if reasoning.1 = "" then pure () else emit (.reasoningDelta reasoning.1)
  Stateful.modify fun acc => { acc with pendingToolCompletions := [] }
  acc.pendingToolCompletions.forM finishToolCall

def ensureProtocolComplete : Accumulate ω υ Unit := do
  let acc ← Stateful.get
  Stateful.lift (rejectIf (acc.activeToolCalls ≠ ∅)
    (toolProtocolError "provider generation ended with an incomplete tool call"))

/-- The result of the provider, with its error bounded. -/
def providerResult (guard : CredentialReflectionGuard) : ProviderEnding υ → Except CoreError υ
  | .completed usage => .ok usage
  | .failed error => .error (boundProviderError error guard)
  | .cancelled => .error (boundProviderError cancelledError guard)
  | .cancelledBeforeStart => .error cancelledError

/-- The events that are received of those the provider would send. -/
def receivedEvents (events : List (ProviderEvent ω)) : ProviderEnding υ → List (ProviderEvent ω)
  | .cancelledBeforeStart => []
  | _ => events

/-- `collect_provider_events`, for the events that are received. -/
def collectProviderEvents (events : List (ProviderEvent ω)) (ending : ProviderEnding υ) :
    Accumulate ω υ (Except CoreError υ) := do
  let acc ← Stateful.get
  (receivedEvents events ending).forM (forward context)
  match providerResult acc.credentialGuard ending with
  | .error error => pure (.error error)
  | .ok usage =>
    ensureProtocolComplete
    pure (.ok usage)

/-- The end of `run_generation` after the events were collected. -/
def finishGeneration : Except CoreError υ → Accumulate ω υ υ
  | .error error => Stateful.fail (.failed error)
  | .ok usage => do
    let acc ← Stateful.get
    Stateful.lift (rejectIf (acc.credentialGuard.credential.any (context.usageContainsExact usage) = true)
      (.failed credentialReflectionError))
    finishPublicStreams
    emit (.usageUpdated usage)
    pure usage

structure GenerationOutcome (ω υ : Type) where
  text : String
  usage : υ
  opaqueReasoningState : List ω
  lastSequence : Nat

structure GenerationFailure where
  error : CoreError
  partialText : String
  lastSequence : Nat

inductive GenerationResult (ω υ : Type)
  | finished (outcome : GenerationOutcome ω υ)
  | failed (failure : GenerationFailure)
  | panicked

/-- The accumulator of `run_generation` after the first event. -/
def GenerationAccumulator.start (guard : CredentialReflectionGuard) : GenerationAccumulator ω υ where
  credentialGuard := guard
  textReflection := .new guard
  reasoningReflection := .new guard
  text := ""
  outputBytes := 0
  outputChars := 0
  toolArgumentBytes := 0
  toolArgumentChars := 0
  activeToolCalls := ∅
  completedToolCalls := ∅
  toolArgumentReflections := fun _ => none
  pendingToolCompletions := []
  nonProgressEventCount := 0
  opaqueReasoningState := []
  sequence := 1
  emitted := [⟨1, .generationStarted⟩]

/-- `run_generation`, with the chat events it sends. -/
def runGeneration (credential : Option String) (events : List (ProviderEvent ω))
    (ending : ProviderEnding υ) : GenerationResult ω υ × List (ChatEvent υ) :=
  match validateBorrowedCredential credential with
  | .error error => (.failed ⟨error, "", 1⟩, [])
  | .ok () =>
    match CredentialReflectionGuard.new credential with
    | .error _ => (.panicked, [])
    | .ok guard =>
      match context.validateGenerationRequest with
      | .error error => (.failed ⟨error, "", 1⟩, [])
      | .ok () =>
        match (collectProviderEvents context events ending >>= finishGeneration context).run
          (.start guard) with
        | (.ok usage, acc) =>
          (.finished ⟨acc.text, usage, acc.opaqueReasoningState, acc.sequence⟩, acc.emitted)
        | (.error (.failed error), acc) => (.failed ⟨error, acc.text, acc.sequence⟩, acc.emitted)
        | (.error .panicked, acc) => (.panicked, acc.emitted)

end

end LorePia
