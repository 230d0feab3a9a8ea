import LorePia.Providers.Stream

/-!
# OpenAI Responses stream (`crates/providers/src/openai_responses.rs`)

`process_event` reads one event of the stream: what it reads of the bytes is `decodeEvent`, what it does with
it `takeEvent`. The parser of JSON text is a parameter. The events for the receiver, which stays open, are
kept in the state; cancellation ends the loop from outside and is left out.
-/

namespace LorePia.OpenAiResponses

open Base

def maxPendingToolArgumentBytes : Nat := 256 * 1024

def malformedDataError : CoreError := streamingError "provider returned malformed streaming data"

def malformedToolCallError : CoreError := streamingError "provider returned malformed tool-call data"

def invalidToolCallError : CoreError := streamingError "provider returned invalid tool-call data"

def unknownToolCallError : CoreError := streamingError "provider returned unknown tool-call data"

structure ResponseUsage where
  inputTokens : Option Nat
  outputTokens : Option Nat
  totalTokens : Option Nat
  cachedTokens : Option Nat
  cacheWriteTokens : Option Nat
  reasoningTokens : Option Nat

structure CompletedResponse where
  status : String
  usage : Option ResponseUsage
  error : Option Json

structure ResponsesToolCall where
  id : String
  name : String
  arguments : String
  completed : Bool
deriving DecidableEq

/-- What `process_event` changes. -/
structure ResponsesState (ω : Type) where
  usage : GenerationUsage
  toolCalls : OrdMap String ResponsesToolCall
  sent : List (ProviderEvent ω)

/-- The state of `generate` before the first event. -/
def ResponsesState.empty {ω : Type} : ResponsesState ω := ⟨.empty, .empty, []⟩

/-! ## Reading an event -/

/-- An event as it is read. -/
inductive ResponsesEvent
  | ignored
  | text (delta : String)
  | reasoning (delta : String)
  | functionCallAdded (itemId id name : String)
  | argumentsDelta (itemId arguments : String)
  | argumentsDone (itemId name arguments : String)
  | completed (usage : Option ResponseUsage)

/-- The details of `ResponseUsage`, which hold counters only. -/
def decodeCounters (names : List String) (value : Json) : Option (List (Option Nat)) := do
  let field ← value.structFields names
  names.mapM fun name => Json.optionField Json.asU64 (field name)

/-- The `Deserialize` of `ResponseUsage`. -/
def decodeResponseUsage (value : Json) : Option ResponseUsage := do
  let field ← value.structFields
    ["input_tokens", "output_tokens", "total_tokens", "input_tokens_details", "output_tokens_details"]
  let inputTokens ← Json.optionField Json.asU64 (field "input_tokens")
  let outputTokens ← Json.optionField Json.asU64 (field "output_tokens")
  let totalTokens ← Json.optionField Json.asU64 (field "total_tokens")
  let inputDetails ←
    Json.optionField (decodeCounters ["cached_tokens", "cache_write_tokens"]) (field "input_tokens_details")
  let outputDetails ← Json.optionField (decodeCounters ["reasoning_tokens"]) (field "output_tokens_details")
  pure ⟨inputTokens, outputTokens, totalTokens, inputDetails.bind fun details => details[0]?.join,
    inputDetails.bind fun details => details[1]?.join, outputDetails.bind fun details => details[0]?.join⟩

/-- The `Deserialize` of `CompletedResponse`. -/
def decodeCompletedResponse (value : Json) : Option CompletedResponse := do
  let field ← value.structFields ["status", "usage", "error"]
  let status ← Json.requiredField Json.asStr (field "status")
  let usage ← Json.optionField decodeResponseUsage (field "usage")
  let error ← Json.optionField some (field "error")
  pure ⟨status, usage, error⟩

/-- The `Deserialize` of `DeltaEvent`. -/
def decodeDelta (value : Json) : Except CoreError String :=
  okOr (Json.requiredField Json.asStr (value.get? "delta")) malformedDataError

/-- A text of an object that carries tool-call data. -/
def toolCallText (key : String) (value : Json) : Except CoreError String :=
  okOr ((value.get? key).bind Json.asStr) malformedToolCallError

/-- A function call that is added. -/
def decodeFunctionCallAdded (value : Json) : Except CoreError ResponsesEvent := do
  let item ← okOr (value.get? "item") malformedToolCallError
  let itemId ← toolCallText "id" item
  let callId ← toolCallText "call_id" item
  let name ← toolCallText "name" item
  mapErr (fun _ => invalidToolCallError) (parseToolCallId callId)
  mapErr (fun _ => invalidToolCallError) (parseToolName name)
  pure (.functionCallAdded itemId callId name)

/-- A delta of the arguments. -/
def decodeArgumentsDelta (value : Json) : Except CoreError ResponsesEvent := do
  let itemId ← toolCallText "item_id" value
  let arguments ← toolCallText "delta" value
  pure (.argumentsDelta itemId arguments)

/-- The arguments of a call as a whole. -/
def decodeArgumentsDone (value : Json) : Except CoreError ResponsesEvent := do
  let itemId ← toolCallText "item_id" value
  let name ← toolCallText "name" value
  let arguments ← toolCallText "arguments" value
  pure (.argumentsDone itemId name arguments)

/-- The completion, whose response is checked. -/
def decodeCompleted (value : Json) : Except CoreError ResponsesEvent := do
  let response ← okOr (Json.requiredField decodeCompletedResponse (value.get? "response")) malformedDataError
  rejectIf (response.status ≠ "completed" ∨ response.error.any (!·.isNull) = true)
    (streamingError "provider returned an invalid completion event")
  pure (.completed response.usage)

/-- The item of the event is a function call. -/
def addsFunctionCall (value : Json) : Bool :=
  ((value.get? "item").bind (·.get? "type")).bind Json.asStr = some "function_call"

/-- The `match` on the type of an event. -/
def decodeValue (value : Json) : Except CoreError ResponsesEvent := do
  let eventType ← okOr ((value.get? "type").bind Json.asStr) malformedDataError
  if eventType = "response.output_text.delta" ∨ eventType = "response.refusal.delta" then
    return .text (← decodeDelta value)
  else if eventType = "response.reasoning_summary_text.delta" then
    return .reasoning (← decodeDelta value)
  else if eventType = "response.output_item.added" ∧ addsFunctionCall value = true then
    decodeFunctionCallAdded value
  else if eventType = "response.function_call_arguments.delta" then
    decodeArgumentsDelta value
  else if eventType = "response.function_call_arguments.done" then
    decodeArgumentsDone value
  else if eventType = "response.completed" then
    decodeCompleted value
  else if eventType = "response.failed" ∨ eventType = "response.incomplete" ∨
      eventType = "response.cancelled" ∨ eventType = "error" then
    .error (streamingError "provider reported a streaming failure")
  else
    return .ignored

def eventData (event : List Byte) : Except CoreError (Option String) := do
  let text ← okOr (String.fromUTF8? ⟨event.toArray⟩) malformedDataError
  let dataLines := (eventLines text).filterMap lineData
  let data := trim ("\n".intercalate dataLines)
  pure (if dataLines = [] ∨ data = "" then none else some data)

/-- The part of `process_event` that reads the event. -/
def decodeEvent (parseJson : String → Option Json) (event : List Byte) : Except CoreError ResponsesEvent := do
  match ← eventData event with
  | none => pure .ignored
  | some data => do
    rejectIf (data = "[DONE]") (streamingError "provider stream ended before response.completed")
    decodeValue (← okOr (parseJson data) malformedDataError)

/-! ## Taking an event -/

section
variable {ω : Type}

abbrev Respond (ω α : Type) := Stateful (ResponsesState ω) CoreError α

/-- `send_provider_event`. -/
def send (event : ProviderEvent ω) : Respond ω Unit :=
  Stateful.modify fun state => { state with sent := state.sent ++ [event] }

/-- Sends the event of a delta that is not empty. -/
def sendNonEmpty (delta : String) (event : ProviderEvent ω) : Respond ω Unit :=
  if delta = "" then pure () else send event

def appendToolArguments (target fragment : String) : Except CoreError String := do
  let _ ← okOr ((checkedAdd target.utf8ByteSize fragment.utf8ByteSize).filter fun size =>
    size ≤ maxPendingToolArgumentBytes)
    (streamingError "provider tool-call arguments exceeded its safety limit")
  pure (target ++ fragment)

/-- Stores a call of the tracker. -/
def setCall (itemId : String) (call : ResponsesToolCall) : Respond ω Unit :=
  Stateful.modify fun state => { state with toolCalls := state.toolCalls.insert itemId call }

/-- `tool_calls.calls.get_mut(item_id).filter(..)`. -/
def openCall (itemId : String) (accepts : ResponsesToolCall → Bool) : Respond ω ResponsesToolCall := do
  let state ← Stateful.get
  Stateful.lift (okOr ((state.toolCalls.get? itemId).filter fun call => !call.completed && accepts call)
    unknownToolCallError)

/-- Sends arguments as a delta. -/
def sendArguments (id arguments : String) : Respond ω Unit := do
  Stateful.lift (mapErr (fun _ => invalidToolCallError) (parseToolCallArgumentsDelta arguments))
  send (.toolCallArgumentsDelta id arguments)

/-- A function call that is added. -/
def takeFunctionCallAdded (itemId id name : String) : Respond ω Unit := do
  let state ← Stateful.get
  setCall itemId ⟨id, name, "", false⟩
  Stateful.lift (rejectIf (state.toolCalls.contains itemId = true)
    (streamingError "provider returned duplicate tool-call data"))
  send (.toolCallStarted id name)

/-- A delta of the arguments. -/
def takeArgumentsDelta (itemId arguments : String) : Respond ω Unit := do
  let call ← openCall itemId fun _ => true
  let appended ← Stateful.lift (appendToolArguments call.arguments arguments)
  setCall itemId { call with arguments := appended }
  if arguments = "" then pure () else sendArguments call.id arguments

/-- The check of the arguments as a whole; they are sent when no delta of them came. -/
def settleArguments (itemId : String) (call : ResponsesToolCall) (arguments : String) :
    Respond ω ResponsesToolCall :=
  if call.arguments = "" ∧ arguments ≠ "" then do
    let appended ← Stateful.lift (appendToolArguments call.arguments arguments)
    setCall itemId { call with arguments := appended }
    sendArguments call.id arguments
    pure { call with arguments := appended }
  else do
    Stateful.lift (rejectIf (call.arguments ≠ arguments)
      (streamingError "provider changed completed tool-call arguments"))
    pure call

/-- The arguments of a call as a whole. -/
def takeArgumentsDone (itemId name arguments : String) : Respond ω Unit := do
  let call ← openCall itemId fun call => call.name = name
  let call ← settleArguments itemId call arguments
  setCall itemId { call with completed := true }
  send (.toolCallCompleted call.id)

def updateUsage (source : Option ResponseUsage) (usage : GenerationUsage) : GenerationUsage :=
  match source with
  | none => usage
  | some source =>
    { usage with
      inputTokens := source.inputTokens.or usage.inputTokens
      outputTokens := source.outputTokens.or usage.outputTokens
      cachedReadTokens := source.cachedTokens.or usage.cachedReadTokens
      cachedWriteTokens := source.cacheWriteTokens.or usage.cachedWriteTokens
      reasoningTokens := source.reasoningTokens.or usage.reasoningTokens
      providerRawSummary := mergeUsageSummary usage.providerRawSummary [("total_tokens", source.totalTokens)] }

/-- The completion, with every call completed. -/
def takeCompleted (source : Option ResponseUsage) : Respond ω Unit := do
  let state ← Stateful.get
  Stateful.lift (rejectIf (state.toolCalls.values.any (!·.completed) = true)
    (streamingError "provider completed with an unfinished tool call"))
  Stateful.modify fun state => { state with usage := updateUsage source state.usage }

/-- The part of `process_event` after the event is read. -/
def takeEvent : ResponsesEvent → Respond ω FrameAction
  | .ignored => pure .continue
  | .text delta => do
    sendNonEmpty delta (.textDelta delta)
    pure .continue
  | .reasoning delta => do
    sendNonEmpty delta (.reasoningDelta delta)
    pure .continue
  | .functionCallAdded itemId id name => do
    takeFunctionCallAdded itemId id name
    pure .continue
  | .argumentsDelta itemId arguments => do
    takeArgumentsDelta itemId arguments
    pure .continue
  | .argumentsDone itemId name arguments => do
    takeArgumentsDone itemId name arguments
    pure .continue
  | .completed source => do
    takeCompleted source
    pure .done

def processEvent (parseJson : String → Option Json) (event : List Byte) : Respond ω FrameAction := do
  takeEvent (← Stateful.lift (decodeEvent parseJson event))

/-- `process_event` on one event after the other, up to the completion. -/
def processEvents (parseJson : String → Option Json) : List (List Byte) → Respond ω FrameAction
  | [] => pure .continue
  | event :: events => do
    match ← processEvent parseJson event with
    | .done => pure .done
    | .continue => processEvents parseJson events

end

end LorePia.OpenAiResponses
