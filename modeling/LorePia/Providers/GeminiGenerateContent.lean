import LorePia.Providers.Stream

/-!
# Gemini responses (`crates/providers/src/gemini_generate_content.rs`)

A stream is a list of responses that `process_response` takes one after the other; the unary form is a single
one. Responses are taken as they are read; Base64 and the text of a JSON value are parameters. The events for
the receiver, which stays open, are kept in the state; cancellation is left out.
-/

namespace LorePia.Gemini

open Base

def maxEmittedTextBytes : Nat := 16 * 1024 * 1024
def maxGeminiResponseParts : Nat := 4 * 1024
def maxGeminiToolCalls : Nat := 128
def maxThoughtSignatureBytes : Nat := 64 * 1024

def responseTooLarge : CoreError := streamingError "Gemini response exceeded the configured size limit"

def malformedOpaqueStateError : CoreError := streamingError "Gemini returned malformed opaque reasoning state"

/-! ## Responses -/

structure GeminiFunctionCall where
  id : Option String
  name : Option String
  args : Option Json

structure ResponsePart where
  text : Option String
  thought : Bool
  thoughtSignature : Option String
  functionCall : Option GeminiFunctionCall
  other : List (String × Json)

structure ResponseContent where
  role : Option String
  parts : List ResponsePart

structure Candidate where
  content : Option ResponseContent
  finishReason : Option String
  index : Option Nat

structure UsageMetadata where
  promptTokenCount : Option Nat
  cachedContentTokenCount : Option Nat
  candidatesTokenCount : Option Nat
  toolUsePromptTokenCount : Option Nat
  thoughtsTokenCount : Option Nat
  totalTokenCount : Option Nat

/-- A response; of its prompt feedback the block reason. -/
structure GenerateContentResponse where
  candidates : List Candidate
  blockReason : Option String
  usageMetadata : Option UsageMetadata

/-! ## State -/

inductive ResponseProgress
  | empty
  | responseOnly
  | candidate
  | supportedContent
  | terminalWithoutContent
  | terminalWithContent
deriving DecidableEq

namespace ResponseProgress

def observeResponse : ResponseProgress → ResponseProgress
  | .empty => .responseOnly
  | progress => progress

def observeCandidate : ResponseProgress → ResponseProgress
  | .empty | .responseOnly => .candidate
  | progress => progress

def observeTerminal : ResponseProgress → ResponseProgress
  | .supportedContent => .terminalWithContent
  | _ => .terminalWithoutContent

def isTerminal : ResponseProgress → Bool
  | .terminalWithoutContent | .terminalWithContent => true
  | _ => false

end ResponseProgress

structure ResponseState (ω : Type) where
  progress : ResponseProgress
  emittedTextBytes : Nat
  responseParts : Nat
  nextToolCallIndex : Nat
  toolCallIds : Finset String
  usage : GenerationUsage
  sent : List (ProviderEvent ω)

section
variable {ω : Type}

/-- `ResponseState::default`. -/
def ResponseState.empty : ResponseState ω := ⟨.empty, 0, 0, 0, ∅, .empty, []⟩

def ResponseState.finish (state : ResponseState ω) : Except CoreError GenerationUsage :=
  match state.progress with
  | .empty => .error (streamingError "Gemini returned an empty response")
  | .responseOnly => .error (streamingError "Gemini response did not contain a candidate")
  | .candidate | .terminalWithoutContent =>
    .error (streamingError "Gemini response did not contain a supported content part")
  | .supportedContent => .error (streamingError "Gemini response ended without a finish reason")
  | .terminalWithContent => .ok state.usage

abbrev Consume (ω α : Type) := Stateful (ResponseState ω) CoreError α

/-- `send_provider_event`. -/
def send (event : ProviderEvent ω) : Consume ω Unit :=
  Stateful.modify fun state => { state with sent := state.sent ++ [event] }

/-- What is used of the `base64` and `serde_json` crates. -/
structure Codec where
  decodeBase64 : String → Option (List Byte)
  encodeBase64 : List Byte → String
  jsonText : Json → Option String

variable (codec : Codec)

def validateThoughtSignature : Option String → Except CoreError Unit
  | none => .ok ()
  | some signature => do
    rejectIf (signature.utf8ByteSize > maxThoughtSignatureBytes)
      (streamingError "Gemini thought signature exceeded its safety limit")
    let decoded ← okOr (codec.decodeBase64 signature) malformedOpaqueStateError
    rejectIf (codec.encodeBase64 decoded ≠ signature) malformedOpaqueStateError
    rejectIf (decoded = []) malformedOpaqueStateError

/-- The index of the next tool call. -/
def takeToolCallIndex : Consume ω Nat := do
  let state ← Stateful.get
  let next ← Stateful.lift (okOr ((u32TryFrom (state.nextToolCallIndex + 1)).filter fun count =>
    count.toNat ≤ maxGeminiToolCalls) (streamingError "Gemini returned too many tool calls"))
  Stateful.modify fun state => { state with nextToolCallIndex := next.toNat }
  pure state.nextToolCallIndex

/-- The identifier of a tool call, which must be new. -/
def takeToolCallId (id : String) : Consume ω Unit := do
  Stateful.lift (mapErr (fun _ => streamingError "Gemini returned an invalid tool-call id") (parseToolCallId id))
  let state ← Stateful.get
  Stateful.lift (rejectIf (id ∈ state.toolCallIds) (streamingError "Gemini reused a tool-call identifier"))
  Stateful.modify fun state => { state with toolCallIds := insert id state.toolCallIds }

/-- The name of a tool call. -/
def toolCallName (name : Option String) : Except CoreError String := do
  let name ← okOr name (streamingError "Gemini returned a tool call without a name")
  mapErr (fun _ => streamingError "Gemini returned an invalid tool name") (parseToolName name)
  pure name

/-- The arguments of a tool call, as text. -/
def toolCallArguments (args : Option Json) : Except CoreError String := do
  let arguments := args.getD (.object [])
  rejectIf (arguments.isObject = false) (streamingError "Gemini returned non-object tool-call arguments")
  let text ← okOr (codec.jsonText arguments) (streamingError "Gemini returned invalid tool-call arguments")
  mapErr (fun _ => streamingError "Gemini tool-call arguments exceeded its safety limit")
    (parseToolCallArgumentsDelta text)
  pure text

def emitGeminiFunctionCall (functionCall : GeminiFunctionCall) : Consume ω Unit := do
  let index ← takeToolCallIndex
  let id := functionCall.id.getD ("gemini-call-" ++ toString index)
  takeToolCallId id
  let name ← Stateful.lift (toolCallName functionCall.name)
  let arguments ← Stateful.lift (toolCallArguments codec functionCall.args)
  send (.toolCallStarted id name)
  send (.toolCallArgumentsDelta id arguments)
  send (.toolCallCompleted id)

/-- The text of a part. -/
def emitText (thought : Bool) (text : String) : Consume ω Unit := do
  let state ← Stateful.get
  let emitted ← Stateful.lift (okOr (checkedAdd state.emittedTextBytes text.utf8ByteSize) responseTooLarge)
  Stateful.modify fun state => { state with emittedTextBytes := emitted }
  Stateful.lift (rejectIf (emitted > maxEmittedTextBytes) responseTooLarge)
  send (if thought then .reasoningDelta text else .textDelta text)

/-- The shape of a part. -/
def checkPartShape (part : ResponsePart) : Except CoreError Unit := do
  rejectIf (part.other.isEmpty = false) (streamingError "Gemini returned an unsupported response part")
  rejectIf (part.text.isNone = true ∧ part.functionCall.isNone = true)
    (streamingError "Gemini returned a response part without supported content")
  rejectIf (part.text.isSome = true ∧ part.functionCall.isSome = true)
    (streamingError "Gemini returned conflicting response part content")
  rejectIf (part.thought = true ∧ part.functionCall.isSome = true)
    (streamingError "Gemini returned a thought marker on a function-call part")

/-- The count of the parts. -/
def countPart : Consume ω Unit := do
  let state ← Stateful.get
  let count ← Stateful.lift (okOr ((checkedAdd state.responseParts 1).filter fun count =>
    count ≤ maxGeminiResponseParts) (streamingError "Gemini returned too many response parts"))
  Stateful.modify fun state => { state with responseParts := count }

/-- What a part of the right shape holds. -/
def emitPart (part : ResponsePart) : Consume ω Unit :=
  match part.functionCall with
  | some functionCall => emitGeminiFunctionCall codec functionCall
  | none =>
    match part.text.filter (· ≠ "") with
    | some text => emitText part.thought text
    | none => pure ()

def processResponsePart (part : ResponsePart) : Consume ω Unit := do
  countPart
  Stateful.lift (checkPartShape part)
  Stateful.modify fun state => { state with progress := .supportedContent }
  Stateful.lift (validateThoughtSignature codec part.thoughtSignature)
  emitPart codec part

def updateUsage (source : Option UsageMetadata) (usage : GenerationUsage) : GenerationUsage :=
  match source with
  | none => usage
  | some source =>
    { usage with
      inputTokens := source.promptTokenCount.or usage.inputTokens
      outputTokens := source.candidatesTokenCount.or usage.outputTokens
      cachedReadTokens := source.cachedContentTokenCount.or usage.cachedReadTokens
      reasoningTokens := source.thoughtsTokenCount.or usage.reasoningTokens
      toolTokens := source.toolUsePromptTokenCount.or usage.toolTokens
      providerRawSummary := mergeUsageSummary usage.providerRawSummary [("totalTokenCount", source.totalTokenCount)] }

def observeFinishReason (reason : String) : Except CoreError Unit :=
  if reason ∈ ["STOP", "MAX_TOKENS"] then .ok ()
  else if reason ∈ ["SAFETY", "RECITATION", "LANGUAGE", "BLOCKLIST", "PROHIBITED_CONTENT", "SPII", "IMAGE_SAFETY",
      "IMAGE_PROHIBITED_CONTENT", "IMAGE_OTHER", "NO_IMAGE", "IMAGE_RECITATION", "ESCALATION"] then
    .error ⟨.providerUnavailable, "Gemini stopped generation due to provider policy", false⟩
  else if reason ∈ ["MALFORMED_FUNCTION_CALL", "UNEXPECTED_TOOL_CALL", "TOO_MANY_TOOL_CALLS",
      "MISSING_THOUGHT_SIGNATURE", "MALFORMED_RESPONSE"] then
    .error (streamingError "Gemini could not produce a supported response")
  else if reason = "OTHER" then .error (streamingError "Gemini stopped generation without a supported result")
  else .error (streamingError "Gemini returned an unsupported finish reason")

/-- The parts of the content of a candidate, whose role is checked. -/
def processContent : Option ResponseContent → Consume ω Unit
  | none => pure ()
  | some content => do
    Stateful.lift (rejectIf (content.role.any (· ≠ "model") = true)
      (streamingError "Gemini returned content with an unexpected role"))
    content.parts.forM (processResponsePart codec)

/-- The end of a candidate, if it has a finish reason. -/
def processFinishReason : Option String → Consume ω Unit
  | none => pure ()
  | some reason => do
    Stateful.lift (observeFinishReason reason)
    Stateful.modify fun state => { state with progress := state.progress.observeTerminal }

/-- The candidate of a response. -/
def processCandidate (candidate : Candidate) : Consume ω Unit := do
  Stateful.lift (rejectIf (candidate.index.any (· ≠ 0) = true)
    (streamingError "Gemini returned an unexpected candidate index"))
  let state ← Stateful.get
  Stateful.lift (rejectIf (state.progress.isTerminal = true)
    (streamingError "Gemini returned candidate data after a finish reason"))
  Stateful.modify fun state => { state with progress := state.progress.observeCandidate }
  processContent codec candidate.content
  processFinishReason candidate.finishReason

def processResponse (response : GenerateContentResponse) : Consume ω Unit := do
  Stateful.modify fun state => { state with progress := state.progress.observeResponse }
  Stateful.lift (rejectIf (response.blockReason.isSome = true)
    ⟨.providerUnavailable, "Gemini blocked the prompt", false⟩)
  Stateful.modify fun state => { state with usage := updateUsage response.usageMetadata state.usage }
  Stateful.lift (rejectIf (response.candidates.length > 1)
    (streamingError "Gemini returned multiple response candidates"))
  match response.candidates with
  | [] => pure ()
  | candidate :: _ => processCandidate codec candidate

/-- The end of `consume_sse` and of `consume_unary`. -/
def finishResponses : Consume ω GenerationUsage := do
  let state ← Stateful.get
  Stateful.lift state.finish

/-- `consume_sse`, on the responses that its events hold. -/
def consumeResponses (responses : List GenerateContentResponse) : Consume ω GenerationUsage := do
  responses.forM (processResponse codec)
  finishResponses

/-- `consume_unary`, on the response that the body holds. -/
def consumeUnary (response : GenerateContentResponse) : Consume ω GenerationUsage := do
  processResponse codec response
  finishResponses

end

end LorePia.Gemini
