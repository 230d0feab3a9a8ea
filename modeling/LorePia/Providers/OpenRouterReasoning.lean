import LorePia.Base.JsonText
import LorePia.Providers.Stream

/-!
# Reasoning details of OpenRouter (`crates/providers/src/openai_compatible.rs`, `crates/domain/src/provider.rs`)

`OpenRouterReasoningTracker` accumulates the reasoning text and the reasoning details of a stream: a fragment is
merged into the last stored detail where their types agree, else stored behind it. Only validated fragments are
stored, so a stored detail is the fields of an object. The fields are private, so zeroing the memory of a string
is left out and `wipe` clears them. `serde_json::to_vec` of a value cannot fail.
-/

namespace LorePia

namespace OpenRouterReasoning

open Base

def maxOpaqueReasoningStateCount : Nat := 32
def maxOpaqueReasoningItemBytes : Nat := 64 * 1024
def maxOpaqueReasoningTotalBytes : Nat := 256 * 1024

/-- The fields of a JSON object. -/
abbrev JsonObject := List (String × Json)

/-- The functions of `serde_json` on texts. -/
structure Library where
  /-- The text of a float. -/
  floatText : F64 → String
  /-- `serde_json::from_str`. -/
  fromStr : String → Option Json

/-- `object.get(field)`. -/
def field (object : JsonObject) (key : String) : Option Json := OrdMap.find key object

/-- `object.get(field).filter(|value| !value.is_null())`. -/
def present (object : JsonObject) (key : String) : Option Json := (field object key).filter fun value => !value.isNull

/-- A field that is there and neither null nor a string. -/
def isMalformedText (value : Option Json) : Bool := value.any fun value => !value.isNull && value.asStr.isNone

/-- A field that is there and neither null nor an index. -/
def isMalformedIndex (value : Option Json) : Bool := value.any fun value => !value.isNull && value.asU64.isNone

/-! ## Details and topologies -/

/-- A canonical detail. -/
structure OpenRouterReasoningDetail where
  text : String
deriving DecidableEq

structure OpenRouterReasoningTopology where
  reasoning : Option String
  reasoningDetails : Option (List OpenRouterReasoningDetail)
deriving DecidableEq

/-- The payload that a detail of a type must have. -/
def requiredPayload : String → Except String (Option String)
  | "reasoning.summary" => .ok (some "summary")
  | "reasoning.encrypted" => .ok (some "data")
  | "reasoning.text" => .ok none
  | _ => .error "OpenRouter reasoning detail type is unsupported"

/-- The check of a format. -/
def validateFormat (format : Json) : Except String Unit :=
  match format.asStr with
  | none => .error "OpenRouter reasoning detail format must be a string or null"
  | some format =>
    rejectIf (format = "" ∨ format.utf8ByteSize > maxToolNameBytes ∨ format.length > maxToolNameChars ∨
        hasControl format = true)
      "OpenRouter reasoning detail format must be a bounded identifier"

/-- `validate_openrouter_reasoning_detail`. -/
def validateReasoningDetail : Json → Except String Unit
  | .object object => do
    let kind ← okOr ((field object "type").bind Json.asStr)
      "OpenRouter reasoning detail must contain a string type"
    match ← requiredPayload kind with
    | none => .ok ()
    | some required =>
      rejectIf (((field object required).bind Json.asStr).isNone = true)
        s!"OpenRouter {kind} detail must contain a string {required}"
    rejectIf (isMalformedText (field object "text") = true) "OpenRouter reasoning text must be a string or null"
    rejectIf (isMalformedText (field object "id") = true) "OpenRouter reasoning detail id must be a string or null"
    forSome (present object "format") validateFormat
    rejectIf (isMalformedIndex (field object "index") = true)
      "OpenRouter reasoning detail index must be a non-negative integer"
    rejectIf (kind = "reasoning.text" ∧ isMalformedText (field object "signature") = true)
      "OpenRouter reasoning text signature must be a string or null"
  | _ => .error "OpenRouter reasoning detail must be a JSON object"

section
variable (lib : Library)

/-- `serde_json::to_string(value)`. -/
def toText (value : Json) : String := String.ofList (Json.print lib.floatText value)

/-- `OpenRouterReasoningDetail::from_value`. -/
def detailFromValue (value : Json) : Except String OpenRouterReasoningDetail := do
  validateReasoningDetail value
  let canonical := toText lib value
  validateBoundedProtocolText "OpenRouter reasoning detail" canonical maxOpaqueReasoningItemBytes
    maxOpaqueReasoningItemBytes false
  return ⟨canonical⟩

/-- `OpenRouterReasoningText::parse`. -/
def parseReasoningText (value : String) : Except String Unit :=
  rejectIf (value.utf8ByteSize > maxOpaqueReasoningTotalBytes ∨ value.length > maxOpaqueReasoningTotalBytes)
    s!"OpenRouter reasoning text exceeds the {maxOpaqueReasoningTotalBytes}-byte or character limit"

/-- `payload_bytes`: the size of the serialized topology. -/
def payloadBytes (topology : OpenRouterReasoningTopology) : Nat :=
  (toText lib (.object
    ((topology.reasoning.map fun reasoning => ("reasoning", Json.string reasoning)).toList ++
      (topology.reasoningDetails.map fun details =>
        ("reasoning_details", Json.array (details.map fun detail => Json.string detail.text))).toList))).utf8ByteSize

/-- The check of a detail at an index. -/
def validateDetailAt (expected : Nat) (detail : OpenRouterReasoningDetail) : Except String Unit := do
  let value ← okOr (lib.fromStr detail.text) "OpenRouter reasoning topology contains malformed details"
  forSome ((value.get? "index").bind Json.asU64) fun index =>
    rejectIf (index ≠ expected) "OpenRouter reasoning detail indexes must follow logical order"

/-- `OpenRouterReasoningTopology::validate`. -/
def validateTopology (topology : OpenRouterReasoningTopology) : Except String Unit := do
  forSome topology.reasoningDetails fun details =>
    rejectIf (details.length > maxOpaqueReasoningStateCount)
      s!"OpenRouter reasoning topology exceeds the {maxOpaqueReasoningStateCount}-detail limit"
  forSome topology.reasoningDetails (forIdx (validateDetailAt lib))
  rejectIf (payloadBytes lib topology > maxOpaqueReasoningTotalBytes)
    s!"OpenRouter reasoning topology exceeds the {maxOpaqueReasoningTotalBytes}-byte limit"

/-- `OpenRouterReasoningTopology::new`. -/
def newTopology (reasoning : Option String) (reasoningDetails : Option (List OpenRouterReasoningDetail)) :
    Except String OpenRouterReasoningTopology := do
  rejectIf (reasoning = none ∧ reasoningDetails = none)
    "OpenRouter reasoning topology must retain an observed field"
  forSome reasoning parseReasoningText
  let topology : OpenRouterReasoningTopology := ⟨reasoning, reasoningDetails⟩
  validateTopology lib topology
  return topology

end

/-! ## Fragments -/

def malformedDetails : CoreError := streamingError "provider returned malformed OpenRouter reasoning details"
def conflictingMetadata : CoreError :=
  streamingError "provider returned conflicting OpenRouter reasoning metadata"
def oversizedDetails : CoreError := streamingError "provider returned oversized OpenRouter reasoning details"

/-- The payload of a fragment of a type. -/
def payloadField (kind : String) : String :=
  if kind = "reasoning.text" then "text" else if kind = "reasoning.summary" then "summary" else "data"

/-- `validate_openrouter_reasoning_fragment`: the fields of a valid fragment and its type. -/
def validateReasoningFragment : Json → Except CoreError (JsonObject × String)
  | .object object => do
    let kind ← okOr ((field object "type").bind Json.asStr) malformedDetails
    rejectIf (kind ≠ "reasoning.text" ∧ kind ≠ "reasoning.summary" ∧ kind ≠ "reasoning.encrypted")
      (streamingError "provider returned unsupported OpenRouter reasoning details")
    rejectIf (isMalformedText (field object "id") = true ∨ isMalformedText (field object "format") = true)
      (streamingError "provider returned malformed OpenRouter reasoning metadata")
    rejectIf (isMalformedIndex (field object "index") = true)
      (streamingError "provider returned malformed OpenRouter reasoning index")
    rejectIf (isMalformedText (field object (payloadField kind)) = true ∨
        (kind = "reasoning.text" ∧ isMalformedText (field object "signature") = true))
      (streamingError "provider returned malformed OpenRouter reasoning payload")
    return (object, kind)
  | _ => .error malformedDetails

/-- Two values that are there and differ. -/
def conflicts : Option Json → Option Json → Bool
  | some left, some right => !Json.same left right
  | _, _ => false

/-- `left == right` of two optional values. -/
def sameField : Option Json → Option Json → Bool
  | some left, some right => Json.same left right
  | none, none => true
  | _, _ => false

/-- `can_merge_openrouter_fragments`. -/
def canMergeFragments (previous incoming : JsonObject) : Except CoreError Bool :=
  if sameField (field previous "type") (field incoming "type") = false then .ok false
  else do
    let previousIndex := (field previous "index").bind Json.asU64
    let incomingIndex := (field incoming "index").bind Json.asU64
    let idConflict := conflicts (present previous "id") (present incoming "id")
    match previousIndex, incomingIndex with
    | some left, some right => do
      rejectIf (left ≠ right) conflictingMetadata
      rejectIf (idConflict = true) conflictingMetadata
    | _, _ => rejectIf (idConflict = true) conflictingMetadata
    rejectIf (conflicts (present previous "format") (present incoming "format") = true) conflictingMetadata
    rejectIf (conflicts (present previous "signature") (present incoming "signature") = true) conflictingMetadata
    return true

/-- The payload of a fragment behind that of the stored detail. -/
def mergePayload (previous : JsonObject) (payload : String) (fragment : String) : Except CoreError JsonObject :=
  match field previous payload with
  | none => .ok (OrdMap.insertList payload (.string ("" ++ fragment)) previous)
  | some (.string value) => .ok (OrdMap.insertList payload (.string (value ++ fragment)) previous)
  | some .null => .ok (OrdMap.insertList payload (.string fragment) previous)
  | some _ => .error (streamingError "provider returned conflicting OpenRouter reasoning payload")

/-- The fields that a merge passes over. -/
def isMerged (key : String) : Bool := key = "type" || key = "text" || key = "summary"

/-- A field of a fragment merged into the stored detail. -/
def mergeField (previous : JsonObject) (entry : String × Json) : Except CoreError JsonObject :=
  if isMerged entry.1 || entry.2.isNull then .ok previous
  else
    match present previous entry.1 with
    | some existing => if Json.same existing entry.2 then .ok previous else .error conflictingMetadata
    | none => .ok (OrdMap.insertList entry.1 entry.2 previous)

/-- `merge_openrouter_fragment` of a fragment of the type `kind`. -/
def mergeFragment (previous incoming : JsonObject) (kind : String) : Except CoreError JsonObject := do
  let payload := if kind = "reasoning.text" then "text" else "summary"
  let previous ← match (field incoming payload).bind Json.asStr with
    | some fragment => mergePayload previous payload fragment
    | none => .ok previous
  incoming.foldlM mergeField previous

/-! ## The tracker -/

/-- `OpenRouterReasoningTracker`. -/
structure ReasoningTracker where
  reasoning : Option String
  reasoningDetailsObserved : Bool
  details : List JsonObject

/-- `OpenRouterReasoningTracker::default()`. -/
def ReasoningTracker.empty : ReasoningTracker := ⟨none, false, []⟩

abbrev Tracked := Stateful ReasoningTracker CoreError

def wipe : Tracked Unit := Stateful.modify fun _ => .empty

/-- `self.wipe(); return Err(error)`. -/
def wipeAndFail {α : Type} (error : CoreError) : Tracked α := do
  wipe
  Stateful.fail error

/-- `if let Err(error) = x { self.wipe(); return Err(error); }`. -/
def wipeOnError (x : Tracked Unit) : Tracked Unit := fun tracker =>
  match x.run tracker with
  | (.ok (), tracker) => (.ok (), tracker)
  | (.error error, tracker) => (wipeAndFail error).run tracker

section
variable (lib : Library)

/-- The size of a stored detail. -/
def detailBytes (detail : JsonObject) : Nat := (toText lib (.object detail)).utf8ByteSize

/-- The sum of the sizes of the details, each within its limit. -/
def totalBytes (initial : Nat) (details : List JsonObject) : Option Nat :=
  details.foldlM (fun total detail =>
    if detailBytes lib detail > maxOpaqueReasoningItemBytes then none
    else checkedAdd total (detailBytes lib detail)) initial

def validateDetailBounds : Tracked Unit := do
  let tracker ← Stateful.get
  if tracker.details.length > maxOpaqueReasoningStateCount then
    wipeAndFail (streamingError "provider returned too many OpenRouter reasoning details")
  else
    match totalBytes lib ((tracker.reasoning.map String.utf8ByteSize).getD 0) tracker.details with
    | none => wipeAndFail oversizedDetails
    | some total => if total > maxOpaqueReasoningTotalBytes then wipeAndFail oversizedDetails else pure ()

/-- The details with a fragment merged into the last one, or stored behind it. -/
def absorb (details : List JsonObject) (object : JsonObject) (kind : String) : Except CoreError (List JsonObject) :=
  match details.getLast? with
  | none => .ok (details ++ [object])
  | some previous =>
    if kind = "reasoning.text" ∨ kind = "reasoning.summary" then do
      if ← canMergeFragments previous object then
        return details.dropLast ++ [← mergeFragment previous object kind]
      else return details ++ [object]
    else .ok (details ++ [object])

def observeDetail (detail : Json) : Tracked Unit := do
  let (object, kind) ← Stateful.lift (validateReasoningFragment detail)
  let tracker ← Stateful.get
  let details ← Stateful.lift (absorb tracker.details object kind)
  Stateful.modify fun tracker => { tracker with details := details }
  validateDetailBounds lib

/-- The loop of `observe` over the details. -/
def observeDetails : List Json → Tracked Unit
  | [] => pure ()
  | detail :: details => do
    wipeOnError (observeDetail lib detail)
    observeDetails details

/-- The part of `observe` on the reasoning text. -/
def observeReasoning (reasoning : String) : Tracked Unit := do
  Stateful.modify fun tracker => { tracker with reasoning := some (tracker.reasoning.getD "" ++ reasoning) }
  let tracker ← Stateful.get
  if (tracker.reasoning.getD "").utf8ByteSize > maxOpaqueReasoningTotalBytes then
    wipeAndFail (streamingError "provider returned oversized OpenRouter reasoning")
  else validateDetailBounds lib

/-- The part of `observe` on the reasoning details. -/
def observeValue (value : Json) : Tracked Unit := do
  Stateful.modify fun tracker => { tracker with reasoningDetailsObserved := true }
  match value with
  | .array details =>
    if details.length > maxOpaqueReasoningStateCount then
      wipeAndFail (streamingError "provider returned too many OpenRouter reasoning fragments")
    else observeDetails lib details
  | _ => wipeAndFail malformedDetails

def observe (reasoning : Option String) (reasoningDetails : Option Json) (enabled : Bool) : Tracked Unit :=
  if enabled = false then pure ()
  else do
    match reasoning with
    | some reasoning => observeReasoning lib reasoning
    | none => pure ()
    match reasoningDetails with
    | some value => observeValue lib value
    | none => pure ()

/-- The typed details of a tracker. -/
def typedDetails (details : List JsonObject) : Except CoreError (List OpenRouterReasoningDetail) :=
  details.mapM fun detail =>
    mapErr (fun _ => streamingError "provider returned incomplete OpenRouter reasoning details")
      (detailFromValue lib (.object detail))

/-- `finish`: the topologies of the events. -/
def finish (hasToolCalls : Bool) : Tracked (List OpenRouterReasoningTopology) := do
  let tracker ← Stateful.get
  let observed := tracker.reasoning.isSome || tracker.reasoningDetailsObserved
  if hasToolCalls && observed then
    wipeAndFail (streamingError "provider returned reasoning continuity with unsupported tool topology")
  else if observed = false then return []
  else
    match typedDetails lib tracker.details with
    | .error error => wipeAndFail error
    | .ok typed => do
      -- `self.reasoning.take()`
      Stateful.modify fun tracker => { tracker with reasoning := none }
      match newTopology lib tracker.reasoning (if tracker.reasoningDetailsObserved then some typed else none) with
      | .error _ =>
        wipeAndFail (streamingError "provider returned invalid OpenRouter reasoning topology")
      | .ok topology => do
        Stateful.modify fun tracker => { tracker with reasoningDetailsObserved := false, details := [] }
        return [topology]

/-- What the delta of a choice says of the reasoning. -/
structure ReasoningDelta where
  visibleReasoning : Option String
  reasoningDetails : Option Json

/-- The tracker in `emit_choice_deltas`, over the choices of a stream, and in `observe_finish_reasons`. -/
def session (enabled : Bool) (deltas : List ReasoningDelta) (hasToolCalls : Bool) :
    Tracked (List OpenRouterReasoningTopology) := do
  deltas.forM fun delta => observe lib delta.visibleReasoning delta.reasoningDetails enabled
  finish lib hasToolCalls

end

end OpenRouterReasoning

end LorePia
