import LorePia.Orchestration.Interaction

/-!
# The interaction engine (`crates/orchestration/src/interactions.rs`)

`InteractionEngine::compile_with_options` checks and orders the rules, `handle_event` runs them one
after the other on a candidate state that is kept only when all actions of a rule succeed, and the
proposal operations decide or expire what the rules asked approval for. `RuleRun` is the state of the
rule loop. A rule's failure is recorded in its trace and does not end the loop.
-/

namespace LorePia

open Base

/-! ## Seeds and dice -/

/-- The odd constant that `mix_seed` and `SplitMix64::next` add. -/
def splitMixStep : UInt64 := 0x9e3779b97f4a7c15

def mixSeed (left right : UInt64) : UInt64 :=
  left ^^^ (right + splitMixStep + (left <<< (6 : UInt64)) + (left >>> (2 : UInt64)))

def stableHash (bytes : List UInt8) : UInt64 :=
  bytes.foldl (fun hash byte => (hash ^^^ byte.toUInt64) * 0x00000100000001b3) 0xcbf29ce484222325

def variableScopeSeed : VariableScope → UInt64
  | .app => 1 | .user => 2 | .persona => 3 | .character => 4 | .conversation => 5
  | .branch => 6 | .session => 7 | .turn => 8 | .module => 9

/-- The discriminant that `event_seed` mixes in. -/
def InteractionEvent.discriminant : InteractionEvent → UInt64
  | .conversationOpened => 1
  | .conversationStarted => 2
  | .beforeGeneration => 3
  | .afterGeneration => 4
  | .messageCommitted => 5
  | .userAction _ => 6
  | .variableChanged _ => 7
  | .knowledgeActivated _ => 8

def eventSeed (seed : UInt64) (event : InteractionEvent) (revision : UInt64) : UInt64 :=
  let mixed := mixSeed (mixSeed seed event.discriminant) revision
  match event with
  | .userAction actionId => mixSeed mixed (stableHash (stringBytes actionId))
  | .variableChanged v =>
    let ns : UInt64 := match v.ns with
      | none => 0
      | some ns => stableHash (stringBytes ns)
    mixSeed (mixSeed (mixSeed mixed (variableScopeSeed v.scope)) ns) (stableHash (stringBytes v.id))
  | .knowledgeActivated entryId => mixSeed mixed (stableHash (stringBytes entryId))
  | .conversationOpened | .conversationStarted | .beforeGeneration | .afterGeneration
  | .messageCommitted => mixed

/-- `SplitMix64::next` on the advanced state. -/
def splitMix (state : UInt64) : UInt64 :=
  let value := (state ^^^ (state >>> 30)) * 0xbf58476d1ce4e5b9
  let value := (value ^^^ (value >>> 27)) * 0x94d049bb133111eb
  value ^^^ (value >>> 31)

/-- The values at and above it are drawn again. -/
def rejectionLimit (upper : UInt64) : UInt64 := UInt64.ofNat usizeMax - UInt64.ofNat usizeMax % upper

/-- The loop of `SplitMix64::next_bounded`, with fuel: the roll and the state after it. -/
def nextBoundedLoop (upperExclusive : UInt32) : Nat → UInt64 → UInt32 × UInt64
  | 0, state => (0, state)
  | fuel + 1, state =>
    let state := state + splitMixStep
    let value := splitMix state
    if value < rejectionLimit upperExclusive.toUInt64 then
      (UInt32.ofNat (value.toNat % upperExclusive.toNat), state)
    else nextBoundedLoop upperExclusive fuel state

/-- `SplitMix64::next_bounded`. The generator has period `2 ^ 64`, so the loop ends within one. -/
def nextBounded (upperExclusive : UInt32) (state : UInt64) : UInt32 × UInt64 :=
  nextBoundedLoop upperExclusive (2 ^ 64) state

/-- The loop of `roll_dice` for `count` more dice. -/
def rollLoop (sides : UInt32) : Nat → UInt64 → List UInt32 → Int → Interaction (List UInt32 × Int)
  | 0, _, rolls, total => .ok (rolls, total)
  | count + 1, state, rolls, total => do
    let drawn := nextBounded sides state
    let roll := drawn.1 + 1
    let total ← okOr (checkedAddI64 total roll.toNat) ⟨.numericOverflow, "dice total overflowed"⟩
    rollLoop sides count drawn.2 (rolls ++ [roll]) total

def rollDice (expression : DiceExpression) (seed : UInt64) : Interaction (List UInt32 × Int) :=
  rollLoop expression.sides expression.count.toNat seed [] expression.modifier

/-! ## Actions -/

def validateDice (expression : DiceExpression) (limits : InteractionLimits) : Interaction Unit := do
  rejectIf (expression.count = 0 ∨ expression.count > limits.maxDiceCount ∨ expression.sides < 2 ∨
      expression.sides > limits.maxDiceSides)
    ⟨.invalidAction, "dice expression is outside the configured count or side limits"⟩
  let maximum := (checkedMulI64 expression.count.toNat expression.sides.toNat).bind fun value =>
    checkedAddI64 value expression.modifier
  let minimum := checkedAddI64 expression.count.toNat expression.modifier
  rejectIf (maximum.isNone ∨ minimum.isNone) ⟨.invalidAction, "dice expression total can overflow"⟩

/-- `matches!(source_kind, ImportedPackage | ImportedStandard)`. -/
def Provenance.isImported (provenance : Provenance) : Bool :=
  provenance.sourceKind = .importedPackage || provenance.sourceKind = .importedStandard

def validateWriteTarget (target : VariableRef) (provenance : Provenance)
    (limits : InteractionLimits) : Interaction Unit := do
  checkVariableRef target limits
  if provenance.isImported then
    let expected ← okOr provenance.sourceId ⟨.importedScopeViolation,
      "imported rules that write variables require a provenance source ID"⟩
    rejectIf (target.scope ≠ .module ∨ target.ns ≠ some expected) ⟨.importedScopeViolation,
      "an imported rule may write only its own namespaced module variables"⟩
  else .ok ()

/-- One choice of a `PresentChoices` action; returns the ids seen. -/
def validateChoice (limits : InteractionLimits) (ids : List String) (choice : ChoiceSpec) :
    Interaction (List String) := do
  validateIdentifier "choice id" choice.id limits
  validateNativePlainText choice.label limits
  checkVariableValue choice.value limits
  forSome choice.enabledWhen fun condition => checkCondition condition limits
  rejectIf (choice.id ∈ ids) ⟨.invalidAction, s!"duplicate choice id `{choice.id}`"⟩
  return ids ++ [choice.id]

def validateAction (action : InteractionAction) (provenance : Provenance)
    (limits : InteractionLimits) : Interaction Unit :=
  match action with
  | .setVariable target value => do
    validateWriteTarget target provenance limits
    match value with
    | .literal value => checkVariableValue value limits
    | .varRef v => checkVariableRef v limits
  | .incrementVariable target _ => validateWriteTarget target provenance limits
  | .activateKnowledge entryId => validateIdentifier "knowledge entry id" entryId limits
  | .showAsset assetId _ | .playAudio assetId => validateIdentifier "asset id" assetId limits
  | .presentChoices choices => do
    rejectIf (choices.isEmpty ∨ choices.length > limits.maxChoices)
      ⟨.invalidAction, "choice count is empty or exceeds the configured limit"⟩
    let _ ← choices.foldlM (validateChoice limits) []
    .ok ()
  | .appendVisibleSystemEvent text => checkTemplate text limits
  | .rollDice expression target => do
    validateDice expression limits
    forSome target fun target => validateWriteTarget target provenance limits
  | .requestUserApproval proposal => do
    validateIdentifier "proposal id" proposal.id limits
    validateRequiredNativePlainText "proposal title" proposal.title maxInteractionProposalTitleChars
      limits
    checkTemplate proposal.body limits
    rejectIf (proposal.expiresAfterSeconds = some 0)
      ⟨.invalidAction, "approval expiry must be greater than zero"⟩

def validateEvent (event : InteractionEvent) (limits : InteractionLimits) : Interaction Unit :=
  match event with
  | .userAction actionId => validateIdentifier "action id" actionId limits
  | .variableChanged v => checkVariableRef v limits
  | .knowledgeActivated entryId => validateIdentifier "knowledge entry id" entryId limits
  | .conversationOpened | .conversationStarted | .beforeGeneration | .afterGeneration
  | .messageCommitted => .ok ()

def resolveValue (expression : ValueExpr) (vars : VariableMap) : Interaction VariableValue :=
  match expression with
  | .literal value => .ok value
  | .varRef v => okOr (vars.get v) ⟨.missingVariable, s!"source variable `{v.id}` does not exist"⟩

/-- `set_variable`: the state and the effects it pushes. -/
def setVariable (state : InteractionState) (target : VariableRef) (value : VariableValue) :
    InteractionState × List InteractionEffect :=
  let previous := state.vars.get target
  ({ state with vars := state.vars.insert target value },
    if previous.any fun current => current.eq value then []
    else [.variableSet target previous value])

/-- The bytes that `proposal_record_id` hashes. -/
def proposalRecordBytes (ruleSetId : InteractionRuleSetId) (ruleId : InteractionRuleId)
    (proposalId : String) (sourceRevision : UInt64) : List UInt8 :=
  hashField (stringBytes "lorepia.interaction-proposal.v1") ++ hashField (stringBytes ruleSetId) ++
    hashField (stringBytes ruleId) ++ hashField (stringBytes proposalId) ++
      beBytes64 sourceRevision.toNat

def proposalRecordId (lib : Externals) (ruleSetId : InteractionRuleSetId) (ruleId : InteractionRuleId)
    (proposalId : String) (sourceRevision : UInt64) : InteractionProposalRecordId :=
  hexEncode (lib.sha256 (proposalRecordBytes ruleSetId ruleId proposalId sourceRevision)).toList

/-- Where an action comes from (`ActionApplication`). -/
structure ActionSource where
  ruleSetId : InteractionRuleSetId
  ruleId : InteractionRuleId
  provenance : Provenance
  context : InteractionContext
  seed : UInt64
  effectOrdinalBase : Nat

/-- The deadline of a proposal requested at `eventEpochSeconds`. -/
def proposalDeadline (eventEpochSeconds : Int) (expiresAfterSeconds : Option UInt32) :
    Interaction (Option Int) :=
  match expiresAfterSeconds with
  | none => .ok none
  | some seconds => do
    let expires ← okOr (checkedAddI64 eventEpochSeconds seconds.toNat)
      ⟨.numericOverflow, "proposal expiration time overflowed"⟩
    return some expires

def appendPendingProposal (lib : Externals) (limits : InteractionLimits) (source : ActionSource)
    (state : InteractionState) (proposal : ProposalSpec) (renderedBody : String) :
    Interaction InteractionState := do
  validateEpochSeconds "interaction event time" source.context.eventEpochSeconds
  validateRequiredNativePlainText "proposal title" proposal.title maxInteractionProposalTitleChars limits
  validateRequiredNativePlainText "proposal body" renderedBody maxInteractionProposalBodyChars limits
  rejectIf (state.proposals.length ≥ limits.maxProposals)
    ⟨.proposalLimitExceeded, "interaction proposal audit limit has been reached"⟩
  rejectIf ((state.proposals.filter fun existing => existing.status = .pending).length ≥
      limits.maxPendingProposals)
    ⟨.proposalLimitExceeded, "pending interaction proposal limit has been reached"⟩
  rejectIf (state.proposals.any fun existing =>
      existing.proposalId = proposal.id && existing.status = .pending)
    ⟨.duplicateProposal, s!"proposal ID `{proposal.id}` already has a pending request"⟩
  let expiresAt ← proposalDeadline source.context.eventEpochSeconds proposal.expiresAfterSeconds
  let recordId := proposalRecordId lib source.ruleSetId source.ruleId proposal.id state.revision
  rejectIf (state.proposals.any fun existing => existing.id = recordId)
    ⟨.duplicateProposal, "deterministic proposal record was already created"⟩
  return { state with proposals := state.proposals ++ [{
    id := recordId
    ruleSetId := source.ruleSetId
    ruleId := source.ruleId
    proposalId := proposal.id
    title := proposal.title
    body := renderedBody
    status := .pending
    sourceInteractionStateRevision := state.revision
    requestedAtEpochSeconds := source.context.eventEpochSeconds
    expiresAtEpochSeconds := expiresAt
    decidedAtEpochSeconds := none }] }

/-- One choice of a `PresentChoices` action: the enabled ones are rendered. -/
def renderChoice (state : InteractionState) (context : InteractionContext)
    (limits : InteractionLimits) (rendered : List ChoiceSpec) (choice : ChoiceSpec) :
    Interaction (List ChoiceSpec) := do
  let enabled ← match choice.enabledWhen with
    | some condition => evaluateConditionAst condition state.vars context.modelCapabilities limits
    | none => .ok true
  return if enabled then rendered ++ [choice] else rendered

/-- The integer that `IncrementVariable` adds to. -/
def incrementBase (target : VariableRef) : Option VariableValue → Interaction Int
  | some (.integer value) => .ok value
  | none => .ok 0
  | some _ => .error ⟨.typeMismatch, s!"increment target `{target.id}` is not an integer"⟩

/-- The match of `apply_actions`: the state after the action and the effects it pushes. -/
def performAction (lib : Externals) (limits : InteractionLimits) (source : ActionSource)
    (state : InteractionState) (index : Nat) (action : InteractionAction) :
    Interaction (InteractionState × List InteractionEffect) :=
  match action with
  | .setVariable target value => do
    let value ← resolveValue value state.vars
    return setVariable state target value
  | .incrementVariable target amount => do
    let current ← incrementBase target (state.vars.get target)
    let value ← okOr (checkedAddI64 current amount)
      ⟨.numericOverflow, s!"increment target `{target.id}` overflowed"⟩
    return setVariable state target (.integer value)
  | .activateKnowledge entryId =>
    if entryId ∈ state.manuallyActiveKnowledge then .ok (state, [])
    else .ok ({ state with
        manuallyActiveKnowledge :=
          (state.manuallyActiveKnowledge ++ [entryId]).insertionSort (· ≤ ·) },
      [.knowledgeActivated entryId])
  | .showAsset assetId region => .ok (state, [.assetShown assetId region])
  | .playAudio assetId => .ok (state, [.audioRequested assetId])
  | .presentChoices choices => do
    let rendered ← choices.foldlM (renderChoice state source.context limits) []
    return (state, if rendered.isEmpty then [] else [.choicesPresented rendered])
  | .appendVisibleSystemEvent text => do
    let rendered ← renderInteractionTemplate lib text state.vars source.context limits
    return (state, [.visibleSystemEvent rendered])
  | .rollDice expression target => do
    let (rolls, total) ← rollDice expression (mixSeed source.seed (UInt64.ofNat index))
    let (state, effects) := match target with
      | some target => setVariable state target (.integer total)
      | none => (state, [])
    return (state, effects ++ [InteractionEffect.diceRolled expression rolls total target])
  | .requestUserApproval proposal => do
    let body ← renderInteractionTemplate lib proposal.body state.vars source.context limits
    let state ← appendPendingProposal lib limits source state proposal body
    return (state, [.approvalRequested source.ruleSetId source.ruleId proposal.id proposal.title body
      proposal.expiresAfterSeconds])

structure InteractionDerivedEvent where
  event : InteractionEvent
  sourceRuleSetId : InteractionRuleSetId
  sourceRuleId : InteractionRuleId
  sourceActionOrdinal : UInt32
  sourceEffectOrdinal : UInt32
deriving DecidableEq

/-- The event that an effect is dispatched as, if any. -/
def InteractionEffect.derivedEvent : InteractionEffect → Option InteractionEvent
  | .variableSet target _ _ => some (.variableChanged target)
  | .knowledgeActivated entryId => some (.knowledgeActivated entryId)
  | .assetShown .. | .audioRequested .. | .choicesPresented .. | .visibleSystemEvent ..
  | .diceRolled .. | .approvalRequested .. => none

/-- One effect of the derived-event loop, with its index among the rule's effects. -/
def deriveEvent (source : ActionSource) (index : Nat) (derived : List InteractionDerivedEvent)
    (item : InteractionEffect × Nat) : Interaction (List InteractionDerivedEvent) :=
  match item.1.derivedEvent with
  | none => .ok derived
  | some event => do
    let actionOrdinal ← okOr (u32TryFrom index)
      ⟨.numericOverflow, "interaction action ordinal overflowed"⟩
    let effectOrdinal ← okOr ((checkedAdd source.effectOrdinalBase item.2).bind u32TryFrom)
      ⟨.numericOverflow, "interaction effect ordinal overflowed"⟩
    return derived ++ [⟨event, source.ruleSetId, source.ruleId, actionOrdinal, effectOrdinal⟩]

/-- What the actions of a rule have done so far. -/
structure ActionProgress where
  state : InteractionState
  effects : List InteractionEffect
  derivedEvents : List InteractionDerivedEvent

/-- One action of `apply_actions`. -/
def applyAction (lib : Externals) (limits : InteractionLimits) (source : ActionSource)
    (progress : ActionProgress) (item : InteractionAction × Nat) : Interaction ActionProgress := do
  validateAction item.1 source.provenance limits
  let (state, pushed) ← performAction lib limits source progress.state item.2 item.1
  let effects := progress.effects ++ pushed
  let derivedEvents ← (pushed.zipIdx progress.effects.length).foldlM (deriveEvent source item.2)
    progress.derivedEvents
  rejectIf (state.vars.values.length > limits.maxVariables)
    ⟨.stateLimitExceeded, "interaction variable count exceeds the configured limit"⟩
  rejectIf (state.manuallyActiveKnowledge.length > maxKnowledgeEntries)
    ⟨.stateLimitExceeded, "active knowledge count exceeds the canonical domain limit"⟩
  rejectIf (state.proposals.length > limits.maxProposals)
    ⟨.proposalLimitExceeded, "interaction proposal count exceeds the configured limit"⟩
  rejectIf (effects.length > limits.maxEffects)
    ⟨.effectLimitExceeded, "interaction effect limit exceeded"⟩
  return ⟨state, effects, derivedEvents⟩

def applyActions (lib : Externals) (limits : InteractionLimits) (source : ActionSource)
    (actions : List InteractionAction) (state : InteractionState) : Interaction ActionProgress :=
  actions.zipIdx.foldlM (applyAction lib limits source) ⟨state, [], []⟩

/-! ## Compilation -/

structure CompiledRule where
  setId : InteractionRuleSetId
  rule : InteractionRule
  approvedForExecution : Bool
  setActionLimit : Nat

structure InteractionEngine where
  rules : List CompiledRule
  limits : InteractionLimits

def importedSourceId (provenance : Provenance) : Interaction (Option String) :=
  if provenance.isImported then do
    let sourceId ← okOr provenance.sourceId
      ⟨.invalidIdentifier, "imported interaction content requires a provenance source ID"⟩
    return some sourceId
  else .ok none

def ruleProvenanceIsApproved (setProvenance ruleProvenance : Provenance)
    (approvedImportSourceIds : List String) : Interaction Bool := do
  let setSource ← importedSourceId setProvenance
  let ruleSource ← importedSourceId ruleProvenance
  match setSource with
  | some setSource =>
    rejectIf (ruleSource ≠ some setSource) ⟨.importedScopeViolation,
      "an imported interaction rule set may contain only rules from the same imported source"⟩
    return setSource ∈ approvedImportSourceIds
  | none => return ruleSource.all fun source => source ∈ approvedImportSourceIds

/-- What `compile_with_options` has collected: the set ids and rule ids seen, and the rules. -/
structure CompileState where
  setIds : List InteractionRuleSetId
  ids : List InteractionRuleId
  rules : List CompiledRule

/-- One rule of a set. -/
def compileRule (limits : InteractionLimits) (approvedImportSourceIds : List String)
    (set : InteractionRuleSet) (state : CompileState) (rule : InteractionRule) :
    Interaction CompileState := do
  validateIdentifier "interaction rule id" rule.id limits
  validatePlainText "interaction rule name" rule.name limits
  rejectIf (rule.id ∈ state.ids)
    ⟨.duplicateRuleId, s!"duplicate interaction rule id `{rule.id}`"⟩
  validateEvent rule.event limits
  forSome rule.condition fun condition => checkCondition condition limits
  rejectIf (rule.actions.length > limits.maxActionsPerRule) ⟨.invalidAction,
    s!"rule `{rule.id}` has {rule.actions.length} actions; limit is {limits.maxActionsPerRule}"⟩
  rule.actions.forM fun action => validateAction action rule.provenance limits
  let approved ← ruleProvenanceIsApproved set.provenance rule.provenance approvedImportSourceIds
  return { state with
    ids := state.ids ++ [rule.id]
    rules := state.rules ++ [⟨set.id, rule, approved, set.maxActionsPerEvent.toNat⟩] }

/-- One rule set. -/
def compileSet (limits : InteractionLimits) (approvedImportSourceIds : List String)
    (state : CompileState) (set : InteractionRuleSet) : Interaction CompileState := do
  validateIdentifier "interaction rule set id" set.id limits
  validatePlainText "interaction rule set name" set.name limits
  rejectIf (set.id ∈ state.setIds)
    ⟨.duplicateRuleSetId, s!"duplicate interaction rule set id `{set.id}`"⟩
  rejectIf (set.maxActionsPerEvent.toNat = 0 ∨ set.maxActionsPerEvent.toNat > limits.maxActionsPerEvent)
    ⟨.invalidLimits, s!"rule set `{set.id}` action limit must be within 1..={limits.maxActionsPerEvent}"⟩
  set.rules.foldlM (compileRule limits approvedImportSourceIds set)
    { state with setIds := state.setIds ++ [set.id] }

/-- The order of the rules: priority, then id. -/
def ruleLe (left right : CompiledRule) : Bool :=
  lexLe [compare left.rule.priority right.rule.priority, compare left.rule.id right.rule.id]

def compileWithOptions (ruleSets : List InteractionRuleSet) (limits : InteractionLimits)
    (approvedImportSourceIds : List String) : Interaction InteractionEngine := do
  limits.validate
  rejectIf (ruleSets.length > limits.maxRuleSets) ⟨.tooManyRuleSets,
    s!"interaction rule set count {ruleSets.length} exceeds limit {limits.maxRuleSets}"⟩
  let totalRules ← okOr (ruleSets.foldlM (fun count set => checkedAdd count set.rules.length) 0)
    ⟨.tooManyRules, "interaction rule count overflowed"⟩
  rejectIf (totalRules > limits.maxRules)
    ⟨.tooManyRules, s!"interaction rule count {totalRules} exceeds limit {limits.maxRules}"⟩
  let compiled ← ruleSets.foldlM (compileSet limits approvedImportSourceIds) ⟨[], [], []⟩
  return ⟨stableSort ruleLe compiled.rules, limits⟩

/-! ## Stored states -/

/-- The variables of `validate_interaction_state`; returns the references seen. -/
def validateBinding (limits : InteractionLimits) (seen : List VariableRef)
    (binding : VariableBinding) : Interaction (List VariableRef) := do
  checkVariableRef binding.var limits
  checkVariableValue binding.value limits
  rejectIf (binding.var ∈ seen)
    ⟨.stateLimitExceeded, "interaction state contains duplicate variable bindings"⟩
  return seen ++ [binding.var]

/-- The active knowledge of `validate_interaction_state`; returns the ids seen. -/
def validateActiveKnowledge (limits : InteractionLimits) (seen : List KnowledgeEntryId)
    (entryId : KnowledgeEntryId) : Interaction (List KnowledgeEntryId) := do
  validateIdentifier "knowledge entry id" entryId limits
  rejectIf (entryId ∈ seen)
    ⟨.stateLimitExceeded, "interaction state contains duplicate active knowledge IDs"⟩
  return seen ++ [entryId]

/-- The decision time of a stored proposal. -/
def validateDecisionTime (proposal : InteractionProposalRecord) (decidedAt : Int) :
    Interaction Unit := do
  validateEpochSeconds "proposal decision time" decidedAt
  rejectIf (decidedAt < proposal.requestedAtEpochSeconds ∨ (proposal.status ≠ .expired ∧
      proposal.expiresAtEpochSeconds.any fun expiresAt => decide (decidedAt ≥ expiresAt)))
    ⟨.invalidTimestamp, "proposal decision time is outside its valid lifetime"⟩

/-- The ids that the proposal loop has seen. -/
structure ProposalsSeen where
  recordIds : List InteractionProposalRecordId
  pendingIds : List String
  pendingCount : Nat

/-- The status of a stored proposal: it must match its decision time. -/
def validateProposalStatus (proposal : InteractionProposalRecord) (seen : ProposalsSeen) :
    Interaction ProposalsSeen :=
  match proposal.status with
  | .pending => do
    rejectIf proposal.decidedAtEpochSeconds.isSome
      ⟨.proposalNotPending, "pending proposal has a decision timestamp"⟩
    rejectIf (proposal.proposalId ∈ seen.pendingIds)
      ⟨.duplicateProposal, "interaction state contains duplicate pending proposal IDs"⟩
    return { seen with
      pendingIds := seen.pendingIds ++ [proposal.proposalId]
      pendingCount := satAddUsize seen.pendingCount 1 }
  | .approved | .rejected => do
    rejectIf proposal.decidedAtEpochSeconds.isNone
      ⟨.proposalNotPending, "decided proposal is missing its decision timestamp"⟩
    return seen
  | .expired => do
    rejectIf ((proposal.expiresAtEpochSeconds.any fun expiresAt =>
        proposal.decidedAtEpochSeconds.any fun expiredAt => decide (expiredAt ≥ expiresAt)) = false)
      ⟨.invalidTimestamp, "expired proposal lacks a terminal timestamp at or after its deadline"⟩
    return seen

/-- One proposal of `validate_interaction_state`. -/
def validateProposal (lib : Externals) (limits : InteractionLimits) (revision : UInt64)
    (seen : ProposalsSeen) (proposal : InteractionProposalRecord) : Interaction ProposalsSeen := do
  validateIdentifier "proposal record id" proposal.id limits
  validateIdentifier "proposal rule set id" proposal.ruleSetId limits
  validateIdentifier "proposal rule id" proposal.ruleId limits
  validateIdentifier "proposal id" proposal.proposalId limits
  validateLegacyStoredProposalText "proposal title" proposal.title maxInteractionProposalTitleChars
  validateLegacyStoredProposalText "proposal body" proposal.body maxInteractionProposalBodyChars
  validateEpochSeconds "proposal request time" proposal.requestedAtEpochSeconds
  rejectIf (proposal.sourceInteractionStateRevision > revision) ⟨.stateLimitExceeded,
    "proposal source revision exceeds the durable interaction state revision"⟩
  rejectIf (proposal.expiresAtEpochSeconds.any fun expiresAt =>
      decide (expiresAt < proposal.requestedAtEpochSeconds))
    ⟨.invalidTimestamp, "proposal expiration must not predate its request time"⟩
  forSome proposal.decidedAtEpochSeconds (validateDecisionTime proposal)
  let seen ← validateProposalStatus proposal seen
  rejectIf (proposalRecordId lib proposal.ruleSetId proposal.ruleId proposal.proposalId
      proposal.sourceInteractionStateRevision ≠ proposal.id)
    ⟨.duplicateProposal, "proposal record ID does not match its deterministic binding"⟩
  rejectIf (proposal.id ∈ seen.recordIds)
    ⟨.duplicateProposal, "interaction state contains a duplicate proposal record ID"⟩
  return { seen with recordIds := seen.recordIds ++ [proposal.id] }

def validateInteractionState (lib : Externals) (state : InteractionState)
    (limits : InteractionLimits) : Interaction Unit := do
  rejectIf (state.vars.values.length > limits.maxVariables)
    ⟨.stateLimitExceeded, "interaction variable count exceeds the configured limit"⟩
  let _ ← state.vars.values.foldlM (validateBinding limits) []
  rejectIf (state.manuallyActiveKnowledge.length > maxKnowledgeEntries)
    ⟨.stateLimitExceeded, "active knowledge count exceeds the canonical domain limit"⟩
  let _ ← state.manuallyActiveKnowledge.foldlM (validateActiveKnowledge limits) []
  rejectIf (state.proposals.length > limits.maxProposals)
    ⟨.proposalLimitExceeded, "interaction proposal count exceeds the configured limit"⟩
  let seen ← state.proposals.foldlM (validateProposal lib limits state.revision) ⟨[], [], 0⟩
  rejectIf (seen.pendingCount > limits.maxPendingProposals)
    ⟨.proposalLimitExceeded, "pending interaction proposal count exceeds the configured limit"⟩

/-! ## Events -/

inductive InteractionRuleStatus
  | applied | conditionFalse | disabled | pendingImportApproval | eventDidNotMatch
  | actionBudgetExceeded | failed
deriving DecidableEq

structure InteractionRuleTrace where
  ruleId : InteractionRuleId
  status : InteractionRuleStatus
  actionCount : UInt32
  effectCount : UInt32
  stateChanged : Bool
  error : Option InteractionFailure
deriving DecidableEq

structure InteractionOutcome where
  state : InteractionState
  effects : List InteractionEffect
  derivedEvents : List InteractionDerivedEvent
  trace : List InteractionRuleTrace
  stateChanged : Bool

def ruleTrace (rule : InteractionRule) (status : InteractionRuleStatus) : InteractionRuleTrace :=
  ⟨rule.id, status, 0, 0, false, none⟩

def failedTrace (rule : InteractionRule) (error : InteractionFailure) : InteractionRuleTrace :=
  ⟨rule.id, .failed, 0, 0, false, some error⟩

/-- The state of the rule loop. -/
structure RuleRun where
  state : InteractionState
  effects : List InteractionEffect
  derivedEvents : List InteractionDerivedEvent
  executedActions : Nat
  executedActionsBySet : OrdMap InteractionRuleSetId Nat

/-- The state of the loop before the first rule. -/
def RuleRun.start (state : InteractionState) : RuleRun := ⟨state, [], [], 0, .empty⟩

/-- How the loop leaves a rule: with a trace entry only, or with its effects committed. -/
inductive RuleVerdict
  | skip (trace : InteractionRuleTrace)
  | commit (run : RuleRun) (trace : InteractionRuleTrace)

/-- The condition of a rule: a trace entry when it does not hold. -/
def checkRuleCondition (engine : InteractionEngine) (context : InteractionContext)
    (state : InteractionState) (rule : InteractionRule) : Except InteractionRuleTrace Unit :=
  match rule.condition with
  | none => .ok ()
  | some condition =>
    match evaluateConditionAst condition state.vars context.modelCapabilities engine.limits with
    | .ok true => .ok ()
    | .ok false => .error (ruleTrace rule .conditionFalse)
    | .error error => .error (failedTrace rule error)

def budgetTrace (rule : InteractionRule) : InteractionRuleTrace :=
  ⟨rule.id, .actionBudgetExceeded, 0, 0, false,
    some ⟨.invalidAction, "interaction action budget for this event was exhausted"⟩⟩

/-- The checks before the actions of a rule run: the trace entry of the first that fails, or the
action counts after the rule. -/
def admitRule (engine : InteractionEngine) (event : InteractionEvent) (context : InteractionContext)
    (run : RuleRun) (compiled : CompiledRule) : Except InteractionRuleTrace (Nat × Nat) := do
  let rule := compiled.rule
  rejectIf (rule.enabled = false) (ruleTrace rule .disabled)
  rejectIf (compiled.approvedForExecution = false) (ruleTrace rule .pendingImportApproval)
  rejectIf (rule.event ≠ event) (ruleTrace rule .eventDidNotMatch)
  checkRuleCondition engine context run.state rule
  let nextActionCount := satAddUsize run.executedActions rule.actions.length
  let nextSetActionCount :=
    satAddUsize ((run.executedActionsBySet.get? compiled.setId).getD 0) rule.actions.length
  rejectIf (nextActionCount > engine.limits.maxActionsPerEvent ∨
    nextSetActionCount > compiled.setActionLimit) (budgetTrace rule)
  return (nextActionCount, nextSetActionCount)

/-- The actions of an admitted rule. -/
def executeRule (lib : Externals) (engine : InteractionEngine) (context : InteractionContext)
    (seed : UInt64) (run : RuleRun) (compiled : CompiledRule) : Interaction ActionProgress := do
  let rule := compiled.rule
  let progress ← applyActions lib engine.limits
    ⟨compiled.setId, rule.id, rule.provenance, context,
      mixSeed seed (stableHash (stringBytes rule.id)), run.effects.length⟩ rule.actions run.state
  rejectIf (satAddUsize run.effects.length progress.effects.length > engine.limits.maxEffects)
    ⟨.effectLimitExceeded, "interaction effect limit exceeded"⟩
  return progress

/-- One rule of the loop of `handle_event`. -/
def runRule (lib : Externals) (engine : InteractionEngine) (event : InteractionEvent)
    (context : InteractionContext) (seed : UInt64) (run : RuleRun) (compiled : CompiledRule) :
    RuleVerdict :=
  match admitRule engine event context run compiled with
  | .error trace => .skip trace
  | .ok (nextActionCount, nextSetActionCount) =>
    match executeRule lib engine context seed run compiled with
    | .error error => .skip (failedTrace compiled.rule error)
    | .ok progress => .commit {
        state := progress.state
        effects := run.effects ++ progress.effects
        derivedEvents := run.derivedEvents ++ progress.derivedEvents
        executedActions := nextActionCount
        executedActionsBySet := run.executedActionsBySet.insert compiled.setId nextSetActionCount }
      ⟨compiled.rule.id, .applied, u32FromSat compiled.rule.actions.length,
        u32FromSat progress.effects.length, !progress.state.eq run.state, none⟩

/-- The loop of `handle_event`; a rule that stops after its match ends it. -/
def runRules (lib : Externals) (engine : InteractionEngine) (event : InteractionEvent)
    (context : InteractionContext) (seed : UInt64) :
    List CompiledRule → RuleRun → RuleRun × List InteractionRuleTrace
  | [], run => (run, [])
  | compiled :: rest, run =>
    match runRule lib engine event context seed run compiled with
    | .skip trace =>
      let (final, traces) := runRules lib engine event context seed rest run
      (final, trace :: traces)
    | .commit next trace =>
      if compiled.rule.stopAfterMatch then (next, [trace])
      else
        let (final, traces) := runRules lib engine event context seed rest next
        (final, trace :: traces)

/-- The next revision. -/
def nextRevision (state : InteractionState) : Interaction UInt64 :=
  okOr (checkedSucc state.revision) ⟨.numericOverflow, "interaction state revision overflowed"⟩

/-- The revision after the rules took a state to another: it advances when the states differ. -/
def eventRevision (before after : InteractionState) : Interaction UInt64 :=
  if after.eq before then .ok after.revision else nextRevision before

def handleEvent (lib : Externals) (engine : InteractionEngine) (state : InteractionState)
    (event : InteractionEvent) (context : InteractionContext) : Interaction InteractionOutcome := do
  validateInteractionState lib state engine.limits
  validateEvent event engine.limits
  validateEpochSeconds "interaction event time" context.eventEpochSeconds
  let seed := eventSeed context.deterministicSeed event state.revision
  let result := runRules lib engine event context seed engine.rules (.start state)
  let revision ← eventRevision state result.1.state
  return {
    state := { result.1.state with revision := revision }
    effects := result.1.effects
    derivedEvents := result.1.derivedEvents
    trace := result.2
    stateChanged := !result.1.state.eq state }

/-! ## Proposals -/

structure InteractionProposalDecisionOutcome where
  state : InteractionState
  proposal : InteractionProposalRecord
  eventAfterCommit : Option InteractionEvent

structure InteractionProposalExpiryOutcome where
  state : InteractionState
  expiredProposals : List InteractionProposalRecord

/-- The compare-and-swap check on the revision. -/
def checkRevision (state : InteractionState) (expectedRevision : UInt64) : Interaction Unit :=
  rejectIf (state.revision ≠ expectedRevision) ⟨.revisionConflict,
    s!"interaction state revision is {state.revision}; expected {expectedRevision}"⟩

/-- The index of the pending proposal with this id. -/
def findPending (state : InteractionState) (proposalId : String) : Interaction Nat :=
  okOr (state.proposals.findIdx? fun proposal =>
      proposal.proposalId = proposalId && proposal.status = .pending)
    (if state.proposals.any fun proposal => proposal.proposalId = proposalId then
      ⟨.proposalNotPending, s!"interaction proposal `{proposalId}` is no longer pending"⟩
    else ⟨.unknownProposal, s!"interaction proposal `{proposalId}` does not exist"⟩)

/-- A proposal settled at a time. -/
def InteractionProposalRecord.settle (proposal : InteractionProposalRecord)
    (status : InteractionProposalStatus) (now : Int) : InteractionProposalRecord :=
  { proposal with status := status, decidedAtEpochSeconds := some now }

/-- `proposal.expires_at_epoch_seconds.is_some_and(|expires_at| now >= expires_at)`. -/
def InteractionProposalRecord.due (proposal : InteractionProposalRecord) (now : Int) : Bool :=
  proposal.expiresAtEpochSeconds.any fun expiresAt => decide (now ≥ expiresAt)

/-- A pending proposal past its deadline. -/
def InteractionProposalRecord.isDue (proposal : InteractionProposalRecord) (now : Int) : Bool :=
  proposal.status = .pending && proposal.due now

/-- The proposals with the due ones expired. -/
def expireDue (now : Int) (proposals : List InteractionProposalRecord) : List InteractionProposalRecord :=
  proposals.map fun proposal =>
    if proposal.isDue now then proposal.settle .expired now else proposal

def expirePendingProposals (lib : Externals) (state : InteractionState) (expectedRevision : UInt64)
    (now : Int) : Interaction InteractionProposalExpiryOutcome := do
  defaultInteractionLimits.validate
  validateInteractionState lib state defaultInteractionLimits
  validateEpochSeconds "proposal expiry time" now
  checkRevision state expectedRevision
  if state.proposals.any (·.isDue now) = false then return ⟨state, []⟩
  else
    let revision ← nextRevision state
    let next := { state with proposals := expireDue now state.proposals, revision := revision }
    validateInteractionState lib next defaultInteractionLimits
    return ⟨next, (state.proposals.filter (·.isDue now)).map (·.settle .expired now)⟩

/-- The state with the proposal at `index` settled. -/
def settleAt (state : InteractionState) (index : Nat) (status : InteractionProposalStatus) (now : Int)
    (revision : UInt64) : InteractionState :=
  { state with
    proposals := state.proposals.modify index (·.settle status now)
    revision := revision }

def expirePendingProposal (lib : Externals) (state : InteractionState) (proposalId : String)
    (expectedRevision : UInt64) (now : Int) : Interaction InteractionProposalExpiryOutcome := do
  defaultInteractionLimits.validate
  validateInteractionState lib state defaultInteractionLimits
  validateIdentifier "proposal id" proposalId defaultInteractionLimits
  validateEpochSeconds "proposal expiry time" now
  checkRevision state expectedRevision
  let index ← findPending state proposalId
  let current ← okOr state.proposals[index]? ⟨.unknownProposal, ""⟩
  rejectIf (now < current.requestedAtEpochSeconds)
    ⟨.invalidTimestamp, "proposal expiry time precedes its request time"⟩
  rejectIf (current.due now = false)
    ⟨.invalidTimestamp, s!"interaction proposal `{proposalId}` is not due"⟩
  let revision ← nextRevision state
  let next := settleAt state index .expired now revision
  validateInteractionState lib next defaultInteractionLimits
  return ⟨next, [current.settle .expired now]⟩

/-- The status that a decision gives. -/
def InteractionProposalDecision.status : InteractionProposalDecision → InteractionProposalStatus
  | .approve => .approved
  | .reject => .rejected

def decidePending (lib : Externals) (state : InteractionState) (proposalId : String)
    (decision : InteractionProposalDecision) (expectedRevision : UInt64) (now : Int) :
    Interaction InteractionProposalDecisionOutcome := do
  defaultInteractionLimits.validate
  validateInteractionState lib state defaultInteractionLimits
  validateIdentifier "proposal id" proposalId defaultInteractionLimits
  validateEpochSeconds "proposal decision time" now
  checkRevision state expectedRevision
  let index ← findPending state proposalId
  let current ← okOr state.proposals[index]? ⟨.unknownProposal, ""⟩
  rejectIf (now < current.requestedAtEpochSeconds)
    ⟨.invalidTimestamp, "proposal decision time precedes its request time"⟩
  rejectIf (current.due now)
    ⟨.proposalExpired, s!"interaction proposal `{proposalId}` has expired"⟩
  let revision ← nextRevision state
  return ⟨settleAt state index decision.status now revision, current.settle decision.status now,
    if decision = .approve then some (.userAction current.proposalId) else none⟩

end LorePia
