import LorePia.Base.OrdMap
import LorePia.Orchestration.Resolver

/-!
# Verifying and resealing plans (`crates/orchestration/src/resolver.rs`)

`verify_resolved_prompt_plan`, the content reseal of the `ResolvedPrompt` transform phase and the
evidence reseal. Both reseals clone a verified plan, replace what they may and verify the result.
-/

namespace LorePia

open Base

def verifyResolvedPromptPlan (lib : Externals) (plan : ResolvedPromptPlan) : Resolve Unit := do
  mapErr (fun error => .invalid error.display) (plan.validate lib)
  let hash ← canonicalPlanHash lib plan
  rejectIf (hash ≠ plan.planHash) .planHashMismatch

/-- The last steps of both reseals: set the hash, verify, return. -/
def sealVerified (lib : Externals) (plan : ResolvedPromptPlan) : Resolve ResolvedPromptPlan := do
  let hash ← canonicalPlanHash lib plan
  verifyResolvedPromptPlan lib { plan with planHash := hash }
  return { plan with planHash := hash }

/-! ## Contents -/

/-- A message whose content a transform may not change. -/
def fixedContent (message : ResolvedPromptMessage) : Bool :=
  message.authority = .application || message.blockKind = .latestUserTurn

/-- The content replacement of one message. -/
def resealMessage (est : TokenEstimator) (item : ResolvedPromptMessage × String) :
    Resolve ResolvedPromptMessage := do
  rejectIf item.2.isEmpty
    (.invalid "resolved prompt transform cannot produce an empty message")
  return { item.1 with content := item.2, estimatedTokens := est.estimateMessage item.2 }

/-- The fold of the per-block token totals. -/
def blockTokens (messages : List ResolvedPromptMessage) : OrdMap PromptBlockId UInt32 :=
  messages.foldl (fun totals message =>
    totals.insert message.blockId (match totals.get? message.blockId with
      | some total => satAdd total message.estimatedTokens
      | none => message.estimatedTokens)) .empty

/-- The original plan with its messages replaced and every derived field recomputed. -/
def resealedPlan (original : ResolvedPromptPlan) (messages : List ResolvedPromptMessage) :
    ResolvedPromptPlan :=
  let estimatedInputTokens := satSum (messageTokens messages)
  let totals := blockTokens messages
  { original with
    effectiveMessages := messages
    trace := { original.trace with
      blocks := original.trace.blocks.map fun block =>
        { block with finalEstimatedTokens := (totals.get? block.blockId).getD 0 }
      estimatedInputTokens := estimatedInputTokens }
    preview :=
      { effectiveMessages := messages
        cacheDirectives := original.cacheDirectives
        estimatedInputTokens := estimatedInputTokens
        availableInputTokens := original.trace.availableInputTokens } }

def resealResolvedPromptPlanWithEstimator (est : TokenEstimator) (lib : Externals)
    (original : ResolvedPromptPlan) (transformedContents : List String) :
    Resolve ResolvedPromptPlan := do
  verifyResolvedPromptPlan lib original
  rejectIf (original.trace.estimatorId ≠ est.id)
    (.invalid (s!"resolved plan estimator `{original.trace.estimatorId}` does not match " ++
      s!"reseal estimator `{est.id}`"))
  rejectIf (transformedContents.length ≠ original.effectiveMessages.length)
    (.invalid "resolved prompt transform must preserve the exact message count")
  rejectIf ((original.effectiveMessages.zip transformedContents).any
      fun item => item.2 ≠ item.1.content && fixedContent item.1)
    (.invalid "resolved prompt transform cannot change application or latest-user content")
  let messages ← mapIdx (fun _ item => resealMessage est item)
    (original.effectiveMessages.zip transformedContents)
  let latestUserTokens := satSum (messageTokens
    (messages.filter fun message => message.blockKind = .latestUserTurn))
  rejectIf (latestUserTokens > original.trace.availableInputTokens)
    (.latestUserMessageExceedsBudget latestUserTokens original.trace.availableInputTokens)
  let estimatedInputTokens := satSum (messageTokens messages)
  rejectIf (estimatedInputTokens > original.trace.availableInputTokens)
    (.overflowRejected estimatedInputTokens original.trace.availableInputTokens)
  sealVerified lib (resealedPlan original messages)

def resealResolvedPromptPlan (lib : Externals) (original : ResolvedPromptPlan)
    (transformedContents : List String) : Resolve ResolvedPromptPlan :=
  resealResolvedPromptPlanWithEstimator utf8TokenEstimator lib original transformedContents

/-! ## Evidence -/

/-- Sets the source revision of the first trace of a block; `None` when there is none. -/
def setSourceRevision (blockId : PromptBlockId) (revision : String) :
    List BlockResolutionTrace → Option (List BlockResolutionTrace)
  | [] => none
  | trace :: rest =>
    if trace.blockId = blockId then
      some ({ trace with source := { trace.source with sourceRevision := some revision } } :: rest)
    else (setSourceRevision blockId revision rest).map (trace :: ·)

/-- The loop over the source revisions. -/
def setSourceRevisions : List (PromptBlockId × String) → List BlockResolutionTrace →
    Resolve (List BlockResolutionTrace)
  | [], traces => .ok traces
  | (blockId, revision) :: rest, traces => do
    let traces ← okOr (setSourceRevision blockId revision traces)
      (.invalid s!"source revision references unknown prompt block `{blockId}`")
    setSourceRevisions rest traces

/-- The evidence of one trace. -/
def resealMemoryEvidence (memoryEvidence : List PromptMemorySelectionEvidence)
    (trace : BlockResolutionTrace) : Resolve BlockResolutionTrace :=
  if trace.blockKind ≠ .retrievedMemory then .ok trace
  else do
    rejectIf (trace.memoryRecordIds.any fun recordId =>
        !memoryEvidence.any (fun item => item.recordId = recordId))
      (.invalid "memory trace selection has no matching engine evidence")
    return { trace with
      memoryEvidence := memoryEvidence.map (excludeUnselected trace.memoryRecordIds) }

def resealPromptResolutionEvidence (lib : Externals) (original : ResolvedPromptPlan)
    (sourceRevisions : OrdMap PromptBlockId String)
    (memoryEvidence : List PromptMemorySelectionEvidence) : Resolve ResolvedPromptPlan := do
  verifyResolvedPromptPlan lib original
  let traces ← setSourceRevisions sourceRevisions.entries original.trace.blocks
  let traces ← mapIdx (fun _ trace => resealMemoryEvidence memoryEvidence trace) traces
  sealVerified lib { original with trace := { original.trace with blocks := traces } }

end LorePia
