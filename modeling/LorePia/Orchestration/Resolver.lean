import LorePia.Orchestration.Materialize

/-!
# The prompt resolver (`crates/orchestration/src/resolver.rs`)

`PromptResolver::resolve`: materialize every block, enforce the block maxima and the global budget,
map every message to a provider role, place the cache directives and seal the plan. The stages of
the source's one function are separate definitions here.
-/

namespace LorePia

open Base

/-! ## Reduction -/

def reductionPhase (block : PromptBlock) : Nat :=
  match block.kind, block.overflowPolicy with
  | _, .dropBlock => 0
  | .worldKnowledge, _ => 1
  | _, .reduceKnowledgeEntries => 1
  | .historySlice, .summarize => 2
  | .dialogueExamples, _ => 3
  | .historySlice, _ => 4
  | _, _ => 5

/-- The message that replaces a summarized block. -/
def summaryDraft (b : MaterializedBlock) (summary : String) : DraftMessage where
  requestedRole := roleForBlock b.block
  authority := b.block.authority
  content := summary
  sourceMessageIds := b.messages.flatMap (·.sourceMessageIds)
  sourceMemoryRecordIds := []
  provenance := b.block.provenance
  origins := []

/-- The `Summarize` policy of `reduce_block`. -/
def summarizeBlock (est : TokenEstimator) (request : PromptResolveRequest) (b : MaterializedBlock)
    (targetTokens : UInt32) : Resolve MaterializedBlock := do
  let before := b.estimatedTokensWith est
  let summary ← okOr request.context.conversationSummary
    (.materialization b.block.id "summarize overflow requires a precomputed summary")
  let summaryTokens := est.estimateMessage summary
  rejectIf (summaryTokens ≥ before ∨ summaryTokens > targetTokens)
    (.overflowRejected before targetTokens)
  return { b with
    messages := [summaryDraft b summary]
    status := .summarized
    explanation := "raw history replaced by a precomputed summary" }

/-- The `ReduceKnowledgeEntries` policy of `reduce_block`. -/
def reduceKnowledgeEntries (est : TokenEstimator) (b : MaterializedBlock) (targetTokens : UInt32) :
    Resolve MaterializedBlock := do
  let b := popEntries est targetTokens b.messages.length b
  rejectIf (b.estimatedTokensWith est > targetTokens)
    (.overflowRejected (b.estimatedTokensWith est) targetTokens)
  return { b with
    status := .reducedItems, explanation := "lower-ranked knowledge entries removed" }

def reduceBlock (est : TokenEstimator) (request : PromptResolveRequest) (b : MaterializedBlock)
    (targetTokens : UInt32) : Resolve MaterializedBlock :=
  if b.estimatedTokensWith est ≤ targetTokens then .ok b
  else match b.block.overflowPolicy with
    | .reject => .error (.overflowRejected (b.estimatedTokensWith est) targetTokens)
    | .dropBlock =>
      .ok { b with
        messages := []
        status := .droppedForBudget
        explanation := "optional block dropped for token budget" }
    | .trimHead =>
      .ok { b with
        messages := trimMessages est .head b.messages targetTokens
        status := .trimmedHead
        explanation := "oldest text trimmed for token budget" }
    | .trimTail =>
      .ok { b with
        messages := trimMessages est .tail b.messages targetTokens
        status := .trimmedTail
        explanation := "trailing text trimmed for token budget" }
    | .keepLatestItems =>
      .ok { b with
        messages := keepLatestItems est b.messages targetTokens
        status := .reducedItems
        explanation := "oldest history items removed for token budget" }
    | .summarize => summarizeBlock est request b targetTokens
    | .reduceKnowledgeEntries => reduceKnowledgeEntries est b targetTokens

/-- `overflow_trace.push(..)` of a reduction from `before` tokens. -/
def MaterializedBlock.pushOverflow (b : MaterializedBlock) (est : TokenEstimator) (before : UInt32)
    (explanation : String) : MaterializedBlock :=
  { b with
    overflowTrace := b.overflowTrace ++
      [{ blockId := b.block.id
         policy := b.block.overflowPolicy
         tokensBefore := before
         tokensAfter := b.estimatedTokensWith est
         explanation := explanation }] }

def enforceBlockMaximum (est : TokenEstimator) (request : PromptResolveRequest)
    (b : MaterializedBlock) : Resolve MaterializedBlock :=
  match b.block.tokenPolicy.maxTokens with
  | none => .ok b
  | some maximum =>
    let before := b.estimatedTokensWith est
    if before ≤ maximum then .ok b
    else do
      let b ← reduceBlock est request b maximum
      rejectIf (b.estimatedTokensWith est > maximum)
        (.overflowRejected (b.estimatedTokensWith est) maximum)
      return b.pushOverflow est before "applied the block maximum"

/-! ## The global budget -/

/-- A candidate of the budget loop: its sort key and its position in the block list. -/
structure BudgetCandidate where
  phase : Nat
  priority : UInt16
  originalIndex : Nat
  index : Nat
deriving DecidableEq

/-- The order of the candidates: phase, priority, latest block first (`Reverse`), position. -/
def BudgetCandidate.le (a b : BudgetCandidate) : Bool :=
  a.phase < b.phase || (a.phase = b.phase && (a.priority < b.priority ||
    (a.priority = b.priority && (b.originalIndex < a.originalIndex ||
      (a.originalIndex = b.originalIndex && decide (a.index ≤ b.index))))))

/-- The candidate for the block at position `index`. -/
def budgetCandidate (block : MaterializedBlock) (index : Nat) : BudgetCandidate where
  phase := reductionPhase block.block
  priority := block.block.tokenPolicy.priority
  originalIndex := block.originalIndex
  index := index

/-- The candidates in the order they are reduced: every block but the latest user turn. -/
def budgetCandidates (blocks : List MaterializedBlock) : List BudgetCandidate :=
  stableSort BudgetCandidate.le
    ((blocks.zipIdx.filter fun item => item.1.block.kind ≠ .latestUserTurn).map
      fun item => budgetCandidate item.1 item.2)

/-- The tokens that the budget loop leaves a block. -/
def protectedTokens (policy : TokenPolicy) : UInt32 :=
  max (policy.minTokens.getD 0) (policy.reserveTokens.getD 0)

/-- The target for a block when `total` tokens are in use and `availableTokens` may be. -/
def budgetTarget (est : TokenEstimator) (b : MaterializedBlock) (total availableTokens : UInt32) :
    UInt32 :=
  max (satSub (b.estimatedTokensWith est) (satSub total availableTokens))
    (protectedTokens b.block.tokenPolicy)

/-- A block that the budget loop passes over. -/
def budgetSkips (est : TokenEstimator) (b : MaterializedBlock) : Bool :=
  b.estimatedTokensWith est = 0 || b.block.overflowPolicy = .reject

/-- One round of the budget loop: the reduced block and the new total. -/
def budgetStep (est : TokenEstimator) (request : PromptResolveRequest) (availableTokens : UInt32)
    (b : MaterializedBlock) (total : UInt32) : Resolve (MaterializedBlock × UInt32) :=
  if budgetSkips est b then .ok (b, total)
  else do
    let before := b.estimatedTokensWith est
    let b ← reduceBlock est request b (budgetTarget est b total availableTokens)
    let after := b.estimatedTokensWith est
    return (b.pushOverflow est before "applied the global context budget",
      satSub total (satSub before after))

/-- The budget loop over the candidates' positions. -/
def budgetLoop (est : TokenEstimator) (request : PromptResolveRequest) (availableTokens : UInt32) :
    List Nat → List MaterializedBlock → UInt32 → Resolve (List MaterializedBlock × UInt32)
  | [], blocks, total => .ok (blocks, total)
  | index :: rest, blocks, total =>
    if total ≤ availableTokens then .ok (blocks, total)
    else match blocks[index]? with
      -- every candidate's position is in range
      | none => budgetLoop est request availableTokens rest blocks total
      | some b => do
        let (b, total) ← budgetStep est request availableTokens b total
        budgetLoop est request availableTokens rest (blocks.set index b) total

def enforceGlobalBudget (est : TokenEstimator) (request : PromptResolveRequest)
    (blocks : List MaterializedBlock) (availableTokens : UInt32) :
    Resolve (List MaterializedBlock) := do
  let total := totalTokens est blocks
  if total ≤ availableTokens then return blocks
  else
    let (blocks, total) ← budgetLoop est request availableTokens
      ((budgetCandidates blocks).map (·.index)) blocks total
    rejectIf (total > availableTokens) (.overflowRejected total availableTokens)
    return blocks

/-! ## Roles -/

/-- The provider role a hint names. -/
def desiredRole : RoleHint → Option ProviderMessageRole
  | .system => some .system
  | .developer => some .developer
  | .user => some .user
  | .assistant => some .assistant
  | .providerDefault => none

/-- The unsupported-role part of `map_role`. -/
def mapUnsupportedRole (requested : RoleHint) (desired : ProviderMessageRole)
    (contract : ProviderPromptContract) : Except RoleHint (ProviderMessageRole × String) :=
  match desired, contract.unsupportedRolePolicy with
  | .developer, .mapDeveloperToSystem =>
    if contract.supportedRoles.contains .system then
      .ok (.system, "developer role mapped to system because the provider lacks developer")
    else .error requested
  | .system, .mapSystemToDeveloper =>
    if contract.supportedRoles.contains .developer then
      .ok (.developer, "system role mapped to developer because the provider lacks system")
    else .error requested
  | _, .useProviderDefault =>
    .ok (contract.providerDefaultRole, "unsupported role mapped to the provider default")
  | _, _ => .error requested

def mapRole (requested : RoleHint) (authority : InstructionAuthority)
    (contract : ProviderPromptContract) : Except RoleHint (ProviderMessageRole × String) :=
  if authority = .importedContent ∧ (requested = .system ∨ requested = .developer) then
    if contract.supportedRoles.contains .user then
      .ok (.user, "imported content privileged role downgraded to user")
    else .error requested
  else match desiredRole requested with
    | none => .ok (contract.providerDefaultRole, "provider-default role selected")
    | some desired =>
      if contract.supportedRoles.contains desired then
        .ok (desired, "requested role is supported")
      else mapUnsupportedRole requested desired contract

/-! ## Emission -/

/-- The drafts of the plan, each with its block. -/
def emissionOrder (blocks : List MaterializedBlock) : List (PromptBlock × DraftMessage) :=
  blocks.flatMap fun b => b.messages.map fun draft => (b.block, draft)

/-- One round of the emission loop; `index` is the number of messages emitted before. -/
def emitMessage (est : TokenEstimator) (provider : ProviderPromptContract) (index : Nat)
    (item : PromptBlock × DraftMessage) : Resolve (RoleMappingTrace × ResolvedPromptMessage) := do
  let (block, draft) := item
  let (effectiveRole, explanation) ← mapErr (fun role => .unsupportedRole block.id role)
    (mapRole draft.requestedRole draft.authority provider)
  let sequence ← okOr (u32TryFrom index) (.invalid "too many messages")
  return (
    { blockId := block.id
      requestedRole := draft.requestedRole
      effectiveRole := effectiveRole
      explanation := explanation },
    { sequence := sequence
      blockId := block.id
      blockKind := block.kind
      requestedRole := draft.requestedRole
      effectiveRole := effectiveRole
      authority := draft.authority
      content := draft.content
      estimatedTokens := est.estimateMessage draft.content
      sourceMessageIds := draft.sourceMessageIds
      provenance := draft.provenance })

/-- The status and explanation of a cache boundary, and whether it takes one of the provider's
explicit boundaries. -/
def cacheStatus (provider : ProviderPromptContract) (boundary : CacheBoundary)
    (sequence : Option UInt32) (appliedCount : UInt32) :
    CacheDirectiveStatus × String × Option String × Bool :=
  if sequence.isNone then
    (.removedWithBlock, "the referenced block produced no final message", none, false)
  else if boundary.mode = .automatic then
    (.applied, "provider automatic cache policy retained", none, false)
  else if !provider.supportsExplicitCache then
    let warning :=
      s!"cache boundary `{boundary.id}` ignored because the provider lacks explicit caching"
    (.ignoredUnsupported, warning, some warning, false)
  else if appliedCount ≥ provider.maxCacheBoundaries then
    let warning :=
      s!"cache boundary `{boundary.id}` ignored because the provider limit was reached"
    (.ignoredLimit, warning, some warning, false)
  else (.applied, "explicit provider cache boundary applied", none, true)

/-- The boundary loop of `resolve_cache_directives`. -/
def cacheLoop (provider : ProviderPromptContract) (messages : List ResolvedPromptMessage) :
    UInt32 → List CacheBoundary → List ResolvedCacheDirective × List String
  | _, [] => ([], [])
  | appliedCount, boundary :: rest =>
    let sequence := (messages.reverse.find?
      (fun message => message.blockId = boundary.afterBlockId)).map (·.sequence)
    let (status, explanation, warning, applies) :=
      cacheStatus provider boundary sequence appliedCount
    let (directives, warnings) := cacheLoop provider messages
      (if applies then satAdd appliedCount 1 else appliedCount) rest
    ({ boundaryId := boundary.id
       afterBlockId := boundary.afterBlockId
       afterMessageSequence := sequence
       roleFilter := boundary.roleFilter
       ttl := boundary.ttl
       mode := boundary.mode
       status := status
       explanation := explanation } :: directives, warning.toList ++ warnings)

def resolveCacheDirectives (request : PromptResolveRequest)
    (messages : List ResolvedPromptMessage) : List ResolvedCacheDirective × List String :=
  cacheLoop request.provider messages 0 request.preset.cacheBoundaries

/-! ## Traces and the plan hash -/

/-- A record's evidence, as excluded unless its id is selected. -/
def excludeUnselected (selectedIds : List MemoryRecordId)
    (evidence : PromptMemorySelectionEvidence) : PromptMemorySelectionEvidence :=
  if selectedIds.contains evidence.recordId then evidence
  else { evidence with
    selected := false
    lane := none
    exclusionReason := some (evidence.exclusionReason.getD removedByBudget) }

def MaterializedBlock.trace (b : MaterializedBlock) (est : TokenEstimator) :
    BlockResolutionTrace :=
  let selectedMemoryIds := sortedSet (b.messages.flatMap (·.sourceMemoryRecordIds))
  { blockId := b.block.id
    blockKind := b.block.kind
    source :=
      { authority := b.block.authority
        sourceKind := b.block.provenance.sourceKind
        sourceId := b.block.provenance.sourceId
        sourceRevision := none
        sourceHash := b.block.provenance.sourceHash }
    status := b.status
    originalEstimatedTokens := b.originalTokens
    finalEstimatedTokens := b.estimatedTokensWith est
    producedMessageCount := u32FromSat b.messages.length
    explanation := b.explanation
    knowledgeEvidence := b.knowledgeEvidence
    memoryRecordIds := selectedMemoryIds
    memoryEvidence := b.memoryEvidence.map (excludeUnselected selectedMemoryIds) }

/-- The hash material of a plan: every field but the hash. -/
def ResolvedPromptPlan.material (plan : ResolvedPromptPlan) : PlanHashMaterial where
  schemaVersion := plan.schemaVersion
  presetId := plan.presetId
  generationPresetId := plan.generationPresetId
  effectiveMessages := plan.effectiveMessages
  cacheDirectives := plan.cacheDirectives
  trace := plan.trace
  preview := plan.preview

def canonicalPlanHash (lib : Externals) (plan : ResolvedPromptPlan) : Resolve String := do
  let canonical ← mapErr .planSerialization (lib.planToVec plan.material)
  return hexEncode (lib.sha256 canonical).toList

/-! ## Resolution -/

/-- The order of the materialized blocks: zone, position in the preset, id. -/
def blockLe (left right : MaterializedBlock) : Bool :=
  left.block.placementZone.rank < right.block.placementZone.rank ||
    (left.block.placementZone.rank = right.block.placementZone.rank &&
      (left.originalIndex < right.originalIndex ||
        (left.originalIndex = right.originalIndex && decide (left.block.id ≤ right.block.id))))

/-- `max_context_tokens.saturating_sub(reserved_output_tokens)`. -/
def PromptResolveRequest.availableTokens (request : PromptResolveRequest) : UInt32 :=
  satSub request.maxContextTokens request.reservedOutputTokens

/-- The first stage of `resolve`: the materialized blocks in emission order. -/
def materializeBlocks (est : TokenEstimator) (lib : Externals) (request : PromptResolveRequest) :
    Resolve (List MaterializedBlock) := do
  let blocks ← mapIdx (materializeBlock est lib request) request.preset.blocks
  return stableSort blockLe blocks

/-- The tokens of the latest user turn. -/
def latestTokens (est : TokenEstimator) (blocks : List MaterializedBlock) : UInt32 :=
  wrapSum ((blocks.filter fun b => b.block.kind = .latestUserTurn).map
    (·.estimatedTokensWith est))

/-- The second stage of `resolve`: every block within its maximum, the latest turn within the
budget. -/
def boundBlocks (est : TokenEstimator) (request : PromptResolveRequest)
    (blocks : List MaterializedBlock) : Resolve (List MaterializedBlock) := do
  let blocks ← mapIdx (fun _ b => enforceBlockMaximum est request b) blocks
  rejectIf (latestTokens est blocks > request.availableTokens)
    (.latestUserMessageExceedsBudget (latestTokens est blocks) request.availableTokens)
  return blocks

/-- An effective message that carries the latest user turn. -/
def carriesLatestUser (message : ResolvedPromptMessage) : Bool :=
  message.blockKind = .latestUserTurn && message.effectiveRole = .user && !message.content.isEmpty

/-- The plan of `resolve` before its hash is set. -/
def draftPlan (est : TokenEstimator) (request : PromptResolveRequest)
    (blocks : List MaterializedBlock) (emitted : List (RoleMappingTrace × ResolvedPromptMessage)) :
    ResolvedPromptPlan :=
  let effectiveMessages := emitted.map (·.2)
  let (cacheDirectives, cacheWarnings) := resolveCacheDirectives request effectiveMessages
  let estimatedInputTokens := wrapSum (messageTokens effectiveMessages)
  { schemaVersion := promptPlanSchemaVersion
    presetId := request.preset.id
    generationPresetId := request.generationPresetId
    effectiveMessages := effectiveMessages
    cacheDirectives := cacheDirectives
    trace :=
      { estimatorId := est.id
        sessionSeed := request.context.sessionSeed
        contextSnapshot := request.context.contextSnapshot
        maxContextTokens := request.maxContextTokens
        reservedOutputTokens := request.reservedOutputTokens
        availableInputTokens := request.availableTokens
        estimatedInputTokens := estimatedInputTokens
        blocks := blocks.map (·.trace est)
        roleMappings := emitted.map (·.1)
        overflow := blocks.flatMap (·.overflowTrace)
        warnings := cacheWarnings }
    preview :=
      { effectiveMessages := effectiveMessages
        cacheDirectives := cacheDirectives
        estimatedInputTokens := estimatedInputTokens
        availableInputTokens := request.availableTokens }
    planHash := "" }

/-- The last stage of `resolve`: emit the messages of the reduced blocks and seal the plan. -/
def sealPlan (est : TokenEstimator) (lib : Externals) (request : PromptResolveRequest)
    (blocks : List MaterializedBlock) : Resolve ResolvedPromptPlan := do
  let emitted ← mapIdx (emitMessage est request.provider) (emissionOrder blocks)
  rejectIf (¬ (emitted.map (·.2)).any carriesLatestUser)
    (.invalid "resolved plan does not contain the latest user message")
  let plan := draftPlan est request blocks emitted
  return { plan with planHash := ← canonicalPlanHash lib plan }

/-- The blocks of a request as the budget leaves them: all of `resolve` before emission. -/
def resolveBlocks (est : TokenEstimator) (lib : Externals) (request : PromptResolveRequest) :
    Resolve (List MaterializedBlock) := do
  let blocks ← materializeBlocks est lib request
  let blocks ← boundBlocks est request blocks
  enforceGlobalBudget est request blocks request.availableTokens

def resolve (est : TokenEstimator) (lib : Externals) (request : PromptResolveRequest) :
    Resolve ResolvedPromptPlan := do
  mapErr (fun error => .invalid error.display) (request.validate lib)
  let blocks ← resolveBlocks est lib request
  sealPlan est lib request blocks

def resolvePromptPlan (lib : Externals) (request : PromptResolveRequest) :
    Resolve ResolvedPromptPlan :=
  resolve utf8TokenEstimator lib request

end LorePia
