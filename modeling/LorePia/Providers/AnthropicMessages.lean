import LorePia.Providers.Stream

/-!
# Anthropic Messages stream (`crates/providers/src/anthropic_messages.rs`)

`process_event` takes one event of the stream, after it is read. The parser and the printer of JSON are
parameters. The events for the receiver, which stays open, are kept in the state; cancellation is left out.
The content blocks and their topology are those of `crates/domain/src/provider.rs`, where a text that a type
checks is the text.
-/

namespace LorePia.Anthropic

open Base

def maxOpaqueReasoningItemBytes : Nat := 64 * 1024
def maxOpaqueReasoningTotalBytes : Nat := 256 * 1024
def maxAnthropicContentBlocks : Nat := 128
def maxAnthropicBlockTextChars : Nat := 64 * 1024
def maxAnthropicToolInputDepth : Nat := 32
def maxAnthropicToolInputNodes : Nat := 4 * 1024
def maxContentBlocks : Nat := 128

/-! ## Content blocks -/

inductive AnthropicContentBlock
  | text (text : String)
  | thinking (thinking signature : String)
  | redactedThinking (data : String)
  | toolUse (id name : String) (input : Json)

namespace AnthropicContentBlock

def isReasoning : AnthropicContentBlock → Bool
  | .thinking .. | .redactedThinking _ => true
  | _ => false

def isText : AnthropicContentBlock → Bool
  | .text _ => true
  | _ => false

def isToolUse : AnthropicContentBlock → Bool
  | .toolUse .. => true
  | _ => false

end AnthropicContentBlock

/-- What is used of the `serde_json` crate. -/
structure Codec where
  parseJson : String → Option Json
  /-- The length of `serde_json::to_vec`. -/
  jsonBytes : Json → Option Nat
  blocksBytes : List AnthropicContentBlock → Option Nat

variable (codec : Codec)

/-- `OpaqueReasoningData::parse`. -/
def parseOpaqueReasoningData (value : String) : Except String Unit :=
  validateBoundedProtocolText "opaque reasoning data" value maxOpaqueReasoningItemBytes maxOpaqueReasoningItemBytes false

/-- `AnthropicBlockText::parse`. -/
def parseBlockText (value : String) : Except String Unit :=
  rejectIf (value.utf8ByteSize > maxOpaqueReasoningTotalBytes ∨ value.length > maxAnthropicBlockTextChars)
    s!"Anthropic block text exceeds the {maxOpaqueReasoningTotalBytes}-byte or {maxAnthropicBlockTextChars}-character limit"

/-- The values directly under a value. -/
def children : Json → List Json
  | .array values => values
  | .object fields => fields.map (·.2)
  | _ => []

/-- The loop of `validate_anthropic_tool_input_shape` with its stack, when so many nodes are still allowed. -/
def shapeLoop : Nat → List (Json × Nat) → Except String Unit
  | _, [] => .ok ()
  | 0, _ :: _ => .error s!"Anthropic tool input exceeds the {maxAnthropicToolInputNodes}-node limit"
  | nodes + 1, (current, depth) :: stack => do
    rejectIf (depth > maxAnthropicToolInputDepth)
      s!"Anthropic tool input exceeds depth {maxAnthropicToolInputDepth}"
    shapeLoop nodes (((children current).map fun value => (value, depth + 1)).reverse ++ stack)

/-- `AnthropicToolInput::from_value`. -/
def toolInputFromValue (value : Json) : Except String Unit := do
  rejectIf (value.isObject = false) "Anthropic tool input must be a JSON object"
  shapeLoop maxAnthropicToolInputNodes [(value, 0)]
  let encoded ← okOr (codec.jsonBytes value) "Anthropic tool input must be valid JSON"
  rejectIf (encoded > maxOpaqueReasoningItemBytes)
    s!"Anthropic tool input exceeds the {maxOpaqueReasoningItemBytes}-byte limit"

/-- No reasoning block comes after a text block. -/
def ReasoningFirst (blocks : List AnthropicContentBlock) : Prop :=
  blocks.Pairwise fun earlier later => earlier.isText = true → later.isReasoning = false

instance (blocks : List AnthropicContentBlock) : Decidable (ReasoningFirst blocks) :=
  inferInstanceAs (Decidable (blocks.Pairwise fun earlier later => earlier.isText = true → later.isReasoning = false))

/-- A complete assistant content, which is kept only when it contains reasoning. -/
structure AnthropicContentBlockTopology where
  blocks : List AnthropicContentBlock
  size : blocks ≠ [] ∧ blocks.length ≤ maxAnthropicContentBlocks
  reasoning : blocks.any (·.isReasoning) = true
  ordered : ReasoningFirst blocks

def serializedBytes (blocks : List AnthropicContentBlock) : Nat := (codec.blocksBytes blocks).getD usizeMax

def AnthropicContentBlockTopology.new (blocks : List AnthropicContentBlock) :
    Except String AnthropicContentBlockTopology :=
  if hsize : blocks ≠ [] ∧ blocks.length ≤ maxAnthropicContentBlocks then
    if hreasoning : blocks.any (·.isReasoning) = true then
      if hordered : ReasoningFirst blocks then do
        rejectIf (serializedBytes codec blocks > maxOpaqueReasoningTotalBytes)
          s!"Anthropic content topology exceeds the {maxOpaqueReasoningTotalBytes}-byte limit"
        pure ⟨blocks, hsize, hreasoning, hordered⟩
      else .error "Anthropic thinking blocks must precede text blocks"
    else .error "Anthropic opaque topology must contain a thinking block"
  else .error s!"Anthropic content topology must contain between 1 and {maxAnthropicContentBlocks} blocks"

/-- The text of a text block. -/
def AnthropicContentBlock.visibleText : AnthropicContentBlock → Option String
  | .text value => some value
  | _ => none

def flattenedText (blocks : List AnthropicContentBlock) : String := String.join (blocks.filterMap (·.visibleText))

/-- `OpaqueReasoningState`; of the formats of the other providers nothing is read. -/
inductive OpaqueReasoningState
  | anthropicMessages (contentBlocks : AnthropicContentBlockTopology)
  | otherFormat

/-! ## Events of the stream -/

inductive ContentBlock
  | text (text : String)
  | thinking (thinking : String) (signature : Option String)
  | toolUse (id name : String) (input : Json)
  | redactedThinking (data : String)
  | other

inductive ContentDelta
  | text (text : String)
  | thinking (thinking : String)
  | inputJson (partialJson : String)
  | signature (signature : String)
  | other

/-- The usage of an event, with the counters of its details. -/
structure StreamUsage where
  inputTokens : Option Nat
  cacheCreationInputTokens : Option Nat
  cacheReadInputTokens : Option Nat
  outputTokens : Option Nat
  thinkingTokens : Option Nat
  ephemeral5mInputTokens : Option Nat
  ephemeral1hInputTokens : Option Nat

/-- The message of a `message_start`; its content must be an empty array. -/
structure MessageStart where
  role : Option String
  content : Option (List Json)
  usage : Option StreamUsage

inductive StreamEvent
  | messageStart (message : MessageStart)
  | contentBlockDelta (index : Nat) (delta : ContentDelta)
  | contentBlockStart (index : Nat) (contentBlock : ContentBlock)
  | contentBlockStop (index : Nat)
  | messageDelta (usage : Option StreamUsage)
  | messageStop
  | error (kind : String)
  | other

/-! ## State -/

inductive ActiveContentBlock
  | text (text : String)
  | thinking (thinking signature : String) (signatureSeen : Bool)
  | redactedThinking (data : String)
  | toolUse (id name inputJson : String)

/-- What `process_event` changes. -/
structure StreamState where
  started : Bool
  messageDeltaSeen : Bool
  activeBlocks : OrdMap Nat ActiveContentBlock
  completedBlocks : OrdMap Nat AnthropicContentBlock
  seenBlocks : Finset Nat
  toolCallIds : Finset String
  usage : GenerationUsage
  sent : List (ProviderEvent OpaqueReasoningState)

/-- `StreamState::default`. -/
def StreamState.empty : StreamState := ⟨false, false, .empty, .empty, ∅, ∅, .empty, []⟩

abbrev Process (α : Type) := Stateful StreamState CoreError α

/-- `send_provider_event`. -/
def send (event : ProviderEvent OpaqueReasoningState) : Process Unit :=
  Stateful.modify fun state => { state with sent := state.sent ++ [event] }

def ensureStarted (state : StreamState) : Except CoreError Unit :=
  rejectIf (state.started = false) (streamingError "provider returned streaming data before message_start")

def ensureNoActiveBlocks (state : StreamState) : Except CoreError Unit :=
  rejectIf (state.activeBlocks.entries ≠ []) (streamingError "provider ended before completing every content block")

def ensureReasoningPrefix (state : StreamState) : Except CoreError Unit :=
  rejectIf (state.completedBlocks.values.any (·.isText) = true)
    (streamingError "provider returned Anthropic reasoning after a visible content block")

/-! ## Starting a block -/

def validateBlockText (value : String) : Except CoreError Unit :=
  rejectIf (value.utf8ByteSize > maxOpaqueReasoningTotalBytes ∨ value.length > maxAnthropicBlockTextChars)
    (streamingError "provider Anthropic text block exceeded its safety limit")

def registerContentBlockIndex (index : Nat) : Process Unit := do
  let state ← Stateful.get
  Stateful.lift (rejectIf (state.messageDeltaSeen = true)
    (streamingError "provider returned a content block after message_delta"))
  Stateful.lift (rejectIf (state.activeBlocks.entries ≠ [])
    (streamingError "provider started overlapping Anthropic content blocks"))
  Stateful.lift (rejectIf (state.seenBlocks.card ≥ maxContentBlocks)
    (streamingError "provider exceeded the 128 content-block limit"))
  let expected ← Stateful.lift (okOr (u32TryFrom state.seenBlocks.card)
    (streamingError "provider content-block index overflowed"))
  Stateful.lift (rejectIf (index ≠ expected.toNat ∨ index ∈ state.seenBlocks)
    (streamingError "provider returned a non-contiguous Anthropic content-block index"))
  Stateful.modify fun state => { state with seenBlocks := insert index state.seenBlocks }

/-- The input of a tool block at its start. -/
def isEmptyObject : Json → Bool
  | .object fields => fields.isEmpty
  | _ => false

/-- A tool block that starts. -/
def openToolUse (id name : String) (input : Json) : Process ActiveContentBlock := do
  Stateful.lift (rejectIf (isEmptyObject input = false)
    (streamingError "Anthropic tool block must begin with an empty input object"))
  Stateful.lift (mapErr (fun _ => streamingError "provider returned an invalid tool-call id") (parseToolCallId id))
  let state ← Stateful.get
  Stateful.lift (rejectIf (id ∈ state.toolCallIds) (streamingError "provider reused an Anthropic tool-call id"))
  Stateful.modify fun state => { state with toolCallIds := insert id state.toolCallIds }
  Stateful.lift (mapErr (fun _ => streamingError "provider returned an invalid tool name") (parseToolName name))
  send (.toolCallStarted id name)
  pure (.toolUse id name "")

/-- The block that starts, as it is kept while it is open. -/
def openContentBlock : ContentBlock → Process ActiveContentBlock
  | .text text => do
    Stateful.lift (rejectIf (text ≠ "") (streamingError "provider returned a non-empty text block start"))
    Stateful.lift (validateBlockText text)
    pure (.text text)
  | .thinking thinking signature => do
    let state ← Stateful.get
    Stateful.lift (ensureReasoningPrefix state)
    Stateful.lift (rejectIf (thinking ≠ "") (streamingError "provider returned a non-empty thinking block start"))
    Stateful.lift (validateBlockText thinking)
    Stateful.lift (rejectIf (signature ≠ some "")
      (streamingError "provider returned an invalid thinking block start"))
    pure (.thinking thinking "" false)
  | .toolUse id name input => openToolUse id name input
  | .redactedThinking data => do
    let state ← Stateful.get
    Stateful.lift (ensureReasoningPrefix state)
    Stateful.lift (mapErr (fun _ => streamingError "provider returned invalid redacted thinking data")
      (parseOpaqueReasoningData data))
    pure (.redactedThinking data)
  | .other => Stateful.fail (streamingError "provider returned an unsupported content block")

/-- Stores an open block. -/
def setActive (index : Nat) (block : ActiveContentBlock) : Process Unit :=
  Stateful.modify fun state => { state with activeBlocks := state.activeBlocks.insert index block }

def startContentBlock (index : Nat) (block : ContentBlock) : Process Unit := do
  registerContentBlockIndex index
  let active ← openContentBlock block
  setActive index active

/-! ## Deltas -/

def appendBlockText (target fragment : String) : Except CoreError String := do
  let bytes ← okOr (checkedAdd target.utf8ByteSize fragment.utf8ByteSize)
    (streamingError "provider Anthropic text block size overflowed")
  let chars ← okOr (checkedAdd target.length fragment.length)
    (streamingError "provider Anthropic text block size overflowed")
  rejectIf (bytes > maxOpaqueReasoningTotalBytes ∨ chars > maxAnthropicBlockTextChars)
    (streamingError "provider Anthropic text block exceeded its safety limit")
  pure (target ++ fragment)

/-- Appends within the size of an opaque item. -/
def appendWithin (message target fragment : String) : Except CoreError String := do
  let _ ← okOr ((checkedAdd target.utf8ByteSize fragment.utf8ByteSize).filter fun length =>
    length ≤ maxOpaqueReasoningItemBytes) (streamingError message)
  pure (target ++ fragment)

def appendPrivateFragment : String → String → Except CoreError String :=
  appendWithin "provider Anthropic opaque block exceeded its safety limit"

def appendToolInputFragment : String → String → Except CoreError String :=
  appendWithin "provider Anthropic tool input exceeded its safety limit"

/-- The event of a piece that is not empty. -/
def nonEmptyEvent (piece : String) (event : ProviderEvent OpaqueReasoningState) :
    Option (ProviderEvent OpaqueReasoningState) := if piece = "" then none else some event

/-- A piece of the arguments of a tool call, which is checked when it is not empty. -/
def checkArgumentsDelta (partialJson : String) : Except CoreError Unit :=
  if partialJson = "" then .ok ()
  else mapErr (fun _ => streamingError "provider returned invalid tool-call argument data")
    (parseToolCallArgumentsDelta partialJson)

/-- The open block after a delta, and the event of the delta. -/
def applyDelta : ActiveContentBlock → ContentDelta →
    Except CoreError (ActiveContentBlock × Option (ProviderEvent OpaqueReasoningState))
  | .text accumulated, .text text => do
    let appended ← appendBlockText accumulated text
    pure (.text appended, nonEmptyEvent text (.textDelta text))
  | .thinking accumulated signature signatureSeen, .thinking thinking => do
    rejectIf (signatureSeen = true) (streamingError "provider returned thinking data after its signature")
    let appended ← appendBlockText accumulated thinking
    pure (.thinking appended signature signatureSeen, nonEmptyEvent thinking (.reasoningDelta thinking))
  | .thinking thinking accumulated signatureSeen, .signature signature => do
    rejectIf (signatureSeen = true ∨ signature = "")
      (streamingError "provider returned an invalid thinking signature sequence")
    let appended ← appendPrivateFragment accumulated signature
    pure (.thinking thinking appended true, none)
  | .toolUse id name accumulated, .inputJson partialJson => do
    let appended ← appendToolInputFragment accumulated partialJson
    checkArgumentsDelta partialJson
    pure (.toolUse id name appended, nonEmptyEvent partialJson (.toolCallArgumentsDelta id partialJson))
  | _, .other => .error (streamingError "provider returned an unsupported content delta")
  | _, _ => .error (streamingError "provider content delta did not match its active block")

/-- Sends an event if there is one. -/
def sendOption : Option (ProviderEvent OpaqueReasoningState) → Process Unit
  | some event => send event
  | none => pure ()

def processContentDelta (index : Nat) (delta : ContentDelta) : Process Unit := do
  let state ← Stateful.get
  let active ← Stateful.lift (okOr (state.activeBlocks.get? index)
    (streamingError "provider returned a delta outside an active content block"))
  let applied ← Stateful.lift (applyDelta active delta)
  setActive index applied.1
  sendOption applied.2

/-! ## Stopping a block -/

/-- The input of a tool block that stops. -/
def completeToolInput (inputJson : String) : Except CoreError Json := do
  let input ← okOr (codec.parseJson (if inputJson = "" then "\x7b\x7d" else inputJson))
    (streamingError "provider returned invalid tool-call arguments")
  mapErr (fun _ => streamingError "provider returned invalid tool-call arguments") (toolInputFromValue codec input)
  pure input

/-- The block that stops, and the identifier of its tool call. -/
def completeBlock : ActiveContentBlock → Except CoreError (AnthropicContentBlock × Option String)
  | .text text => do
    mapErr (fun _ => streamingError "provider returned invalid text block") (parseBlockText text)
    pure (.text text, none)
  | .thinking thinking signature _ => do
    mapErr (fun _ => streamingError "provider returned invalid thinking block") (parseBlockText thinking)
    mapErr (fun _ => streamingError "provider returned invalid thinking signature") (parseOpaqueReasoningData signature)
    pure (.thinking thinking signature, none)
  | .redactedThinking data => .ok (.redactedThinking data, none)
  | .toolUse id name inputJson => do
    let input ← completeToolInput codec inputJson
    pure (.toolUse id name input, some id)

def finishContentBlock (index : Nat) : Process Unit := do
  let state ← Stateful.get
  let active ← Stateful.lift (okOr (state.activeBlocks.get? index)
    (streamingError "provider stopped a content block that was not active"))
  Stateful.modify fun state => { state with activeBlocks := state.activeBlocks.erase index }
  let completed ← Stateful.lift (completeBlock codec active)
  Stateful.modify fun state => { state with completedBlocks := state.completedBlocks.insert index completed.1 }
  Stateful.lift (rejectIf (state.completedBlocks.contains index = true)
    (streamingError "provider reused an Anthropic content-block index"))
  sendOption (completed.2.map .toolCallCompleted)

/-! ## The end of the message -/

/-- The topology that is emitted, if one is. -/
def anthropicTopology (preserveOpaqueReasoningState : Bool) (blocks : List AnthropicContentBlock) :
    Except CoreError (Option AnthropicContentBlockTopology) :=
  if blocks.any (·.isReasoning) = false ∨ preserveOpaqueReasoningState = false then .ok none
  else do
    rejectIf (blocks.any (·.isToolUse) = true)
      (streamingError "provider returned an Anthropic tool-use topology without exact tool results")
    let topology ← mapErr (fun _ => streamingError "provider returned an invalid Anthropic content topology")
      (AnthropicContentBlockTopology.new codec blocks)
    pure (some topology)

def emitAnthropicTopology (preserveOpaqueReasoningState : Bool) : Process Unit := do
  let state ← Stateful.get
  Stateful.lift (rejectIf (state.completedBlocks.entries.length ≠ state.seenBlocks.card)
    (streamingError "provider ended before completing every content block"))
  let topology ← Stateful.lift
    (anthropicTopology codec preserveOpaqueReasoningState state.completedBlocks.values)
  sendOption (topology.map fun topology => .opaqueReasoningState (.anthropicMessages topology))

/-! ## Usage -/

def decreasingUsageError : CoreError := streamingError "provider returned decreasing cumulative usage"

def mergeCumulativeUsage (current next : Option Nat) : Except CoreError (Option Nat) :=
  match next with
  | none => .ok current
  | some next => do
    rejectIf (current.any (next < ·) = true) decreasingUsageError
    pure (some next)

/-- The counters that only the raw summary holds. -/
def rawCounters (source : StreamUsage) : List (String × Option Nat) :=
  [("cache_creation.ephemeral_5m_input_tokens", source.ephemeral5mInputTokens),
    ("cache_creation.ephemeral_1h_input_tokens", source.ephemeral1hInputTokens)]

def validateRawUsageCounters (source : StreamUsage) (current : Option (OrdMap String Nat)) : Except CoreError Unit :=
  (rawCounters source).forM fun counter =>
    rejectIf ((current.bind (·.get? counter.1)).any (fun previous => counter.2.any (· < previous)) = true)
      decreasingUsageError

def updateUsage (source : Option StreamUsage) (usage : GenerationUsage) : Except CoreError GenerationUsage :=
  match source with
  | none => .ok usage
  | some source => do
    let inputTokens ← mergeCumulativeUsage usage.inputTokens source.inputTokens
    let cachedReadTokens ← mergeCumulativeUsage usage.cachedReadTokens source.cacheReadInputTokens
    let cachedWriteTokens ← mergeCumulativeUsage usage.cachedWriteTokens source.cacheCreationInputTokens
    let outputTokens ← mergeCumulativeUsage usage.outputTokens source.outputTokens
    let reasoningTokens ← mergeCumulativeUsage usage.reasoningTokens source.thinkingTokens
    validateRawUsageCounters source usage.providerRawSummary
    pure
      { usage with
        inputTokens, cachedReadTokens, cachedWriteTokens, outputTokens, reasoningTokens
        providerRawSummary := mergeUsageSummary usage.providerRawSummary (rawCounters source) }

/-- Merges the usage of an event. -/
def mergeUsage (source : Option StreamUsage) : Process Unit := do
  let state ← Stateful.get
  let usage ← Stateful.lift (updateUsage source state.usage)
  Stateful.modify fun state => { state with usage }

/-! ## Events -/

def streamError (kind : String) : CoreError :=
  if kind ∈ ["invalid_request_error", "request_too_large"] then
    ⟨.invalidInput, "provider rejected the streaming request", false⟩
  else if kind ∈ ["authentication_error", "permission_error"] then
    ⟨.providerAuthFailed, "provider returned a streaming authentication error", false⟩
  else if kind = "rate_limit_error" then
    ⟨.providerRateLimited, "provider returned a streaming rate-limit error", true⟩
  else if kind ∈ ["overloaded_error", "api_error", "timeout_error"] then
    ⟨.providerUnavailable, "provider returned a transient streaming error", true⟩
  else ⟨.providerUnavailable, "provider returned a streaming error", false⟩

/-- `message_start`. -/
def startMessage (message : MessageStart) : Process Unit := do
  let state ← Stateful.get
  Stateful.lift (rejectIf (state.started = true) (streamingError "provider returned a duplicate message_start event"))
  Stateful.lift (rejectIf (message.role ≠ some "assistant" ∨ message.content.all (!·.isEmpty) = true)
    (streamingError "provider returned an invalid Anthropic message_start"))
  Stateful.modify fun state => { state with started := true }
  mergeUsage message.usage

/-- `message_delta`. -/
def endContent (usage : Option StreamUsage) : Process Unit := do
  let state ← Stateful.get
  Stateful.lift (ensureNoActiveBlocks state)
  Stateful.modify fun state => { state with messageDeltaSeen := true }
  mergeUsage usage

/-- `message_stop`. -/
def stopMessage (preserveOpaqueReasoningState : Bool) : Process Unit := do
  let state ← Stateful.get
  Stateful.lift (ensureNoActiveBlocks state)
  Stateful.lift (rejectIf (state.messageDeltaSeen = false)
    (streamingError "provider returned message_stop before message_delta"))
  emitAnthropicTopology codec preserveOpaqueReasoningState

/-- A step of a message that has started. -/
def whenStarted (step : Process Unit) : Process Unit := do
  let state ← Stateful.get
  Stateful.lift (ensureStarted state)
  step

/-- The `match` of `process_event`. -/
def takeEvent (preserveOpaqueReasoningState : Bool) : StreamEvent → Process Unit
  | .messageStart message => startMessage message
  | .contentBlockStart index contentBlock => whenStarted (startContentBlock index contentBlock)
  | .contentBlockDelta index delta => whenStarted (processContentDelta index delta)
  | .contentBlockStop index => whenStarted (finishContentBlock codec index)
  | .messageDelta usage => whenStarted (endContent usage)
  | .messageStop => whenStarted (stopMessage codec preserveOpaqueReasoningState)
  | .error kind => Stateful.fail (streamError kind)
  | .other => pure ()

/-- The `EventAction` of an event that is taken. -/
def actionOf : StreamEvent → FrameAction
  | .messageStop => .done
  | _ => .continue

/-- `process_event`, after the event is read. -/
def processEvent (preserveOpaqueReasoningState : Bool) (event : StreamEvent) : Process FrameAction := do
  takeEvent codec preserveOpaqueReasoningState event
  pure (actionOf event)

/-- `process_event` on one event after the other, up to the completion. -/
def processEvents (preserveOpaqueReasoningState : Bool) : List StreamEvent → Process FrameAction
  | [] => pure .continue
  | event :: events => do
    match ← processEvent codec preserveOpaqueReasoningState event with
    | .done => pure .done
    | .continue => processEvents preserveOpaqueReasoningState events

/-! ## Replay -/

end LorePia.Anthropic
