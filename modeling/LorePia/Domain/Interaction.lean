import LorePia.Domain.Knowledge

/-!
# Interaction documents (`crates/domain/src/orchestration.rs`)

Interaction rules, effects, proposals and the interaction state, the canonical native text contract
(`validate_interaction_native_text`) and the checks at the durable boundary
(`InteractionRuleSet::validate`, `InteractionState::validate`). An `i64` is an integer, a revision is
a `u64`.
-/

namespace LorePia

open Base

abbrev InteractionRuleId := String
abbrev InteractionRuleSetId := String
abbrev InteractionProposalRecordId := String

def maxInteractionRules : Nat := 512
def maxInteractionProposals : Nat := 256
def maxInteractionNativeTextChars : Nat := 8192
def maxInteractionNativeTextBytes : Nat := 16384
def maxInteractionProposalTitleChars : Nat := 1024
def maxInteractionProposalBodyChars : Nat := 16384

/-! ## Rules -/

inductive InteractionEvent
  | conversationOpened
  | conversationStarted
  | beforeGeneration
  | afterGeneration
  | messageCommitted
  | userAction (actionId : String)
  | variableChanged (var : VariableRef)
  | knowledgeActivated (entryId : KnowledgeEntryId)
deriving DecidableEq

inductive ValueExpr
  | literal (value : VariableValue)
  | varRef (var : VariableRef)

structure ChoiceSpec where
  id : String
  label : String
  value : VariableValue
  enabledWhen : Option ConditionExpr

structure ProposalSpec where
  id : String
  title : String
  body : SafeTemplate
  expiresAfterSeconds : Option UInt32

structure DiceExpression where
  count : UInt16
  sides : UInt32
  modifier : Int
deriving DecidableEq

inductive UiRegion
  | message | background | characterPortrait | statusPanel | audio
deriving DecidableEq

inductive InteractionAction
  | setVariable (target : VariableRef) (value : ValueExpr)
  | incrementVariable (target : VariableRef) (amount : Int)
  | activateKnowledge (entryId : KnowledgeEntryId)
  | showAsset (assetId : AssetId) (region : UiRegion)
  | playAudio (assetId : AssetId)
  | presentChoices (choices : List ChoiceSpec)
  | appendVisibleSystemEvent (text : SafeTemplate)
  | rollDice (expression : DiceExpression) (target : Option VariableRef)
  | requestUserApproval (proposal : ProposalSpec)

structure InteractionRule where
  id : InteractionRuleId
  name : String
  enabled : Bool
  importedAuthorEnabled : Bool
  event : InteractionEvent
  condition : Option ConditionExpr
  actions : List InteractionAction
  priority : Int
  stopAfterMatch : Bool
  provenance : Provenance

structure InteractionRuleSet where
  id : InteractionRuleSetId
  name : String
  schemaVersion : UInt32
  rules : List InteractionRule
  maxActionsPerEvent : UInt32
  provenance : Provenance

/-! ## State -/

inductive InteractionProposalStatus
  | pending | approved | rejected | expired
deriving DecidableEq

structure InteractionProposalRecord where
  id : InteractionProposalRecordId
  ruleSetId : InteractionRuleSetId
  ruleId : InteractionRuleId
  proposalId : String
  title : String
  body : String
  status : InteractionProposalStatus
  sourceInteractionStateRevision : UInt64
  requestedAtEpochSeconds : Int
  expiresAtEpochSeconds : Option Int
  decidedAtEpochSeconds : Option Int
deriving DecidableEq

inductive InteractionProposalDecision
  | approve | reject
deriving DecidableEq

structure InteractionState where
  vars : VariableMap
  manuallyActiveKnowledge : List KnowledgeEntryId
  proposals : List InteractionProposalRecord
  revision : UInt64

inductive InteractionEffect
  | variableSet (target : VariableRef) (previous : Option VariableValue) (value : VariableValue)
  | knowledgeActivated (entryId : KnowledgeEntryId)
  | assetShown (assetId : AssetId) (region : UiRegion)
  | audioRequested (assetId : AssetId)
  | choicesPresented (choices : List ChoiceSpec)
  | visibleSystemEvent (text : String)
  | diceRolled (expression : DiceExpression) (rolls : List UInt32) (total : Int)
      (target : Option VariableRef)
  | approvalRequested (ruleSetId : InteractionRuleSetId) (ruleId : InteractionRuleId)
      (proposalId title body : String) (expiresAfterSeconds : Option UInt32)

/-- The bindings with the first one of `v` set to `value`. -/
def setBinding (v : VariableRef) (value : VariableValue) : List VariableBinding → List VariableBinding
  | [] => []
  | binding :: rest =>
    if binding.var = v then { binding with value := value } :: rest
    else binding :: setBinding v value rest

/-- `VariableMap::insert`: replaces a binding in place; a new one is sorted in. -/
def VariableMap.insert (m : VariableMap) (v : VariableRef) (value : VariableValue) : VariableMap :=
  if m.values.any (fun binding => binding.var = v) then ⟨setBinding v value m.values⟩
  else
    ⟨stableSort (fun left right => decide (left.var ≤ right.var)) (m.values ++ [⟨v, value⟩])⟩

/-- `PartialEq` of variable bindings. -/
def VariableBinding.eq (left right : VariableBinding) : Bool :=
  left.var = right.var && left.value.eq right.value

/-- `PartialEq` of lists. -/
def listEq {α : Type} (eq : α → α → Bool) : List α → List α → Bool
  | [], [] => true
  | a :: l, b :: k => eq a b && listEq eq l k
  | _, _ => false

/-- `PartialEq` of states. -/
def InteractionState.eq (left right : InteractionState) : Bool :=
  listEq VariableBinding.eq left.vars.values right.vars.values &&
    left.manuallyActiveKnowledge = right.manuallyActiveKnowledge &&
    left.proposals = right.proposals && left.revision = right.revision

/-! ## Native text -/

/-- `character.is_control()`: the category `Cc`. -/
def isControl (c : Char) : Bool := c.toNat < 32 || (127 ≤ c.toNat && c.toNat ≤ 159)

/-- `character.is_control() && !matches!(character, '\n' | '\r' | '\t')`. -/
def isDisallowedControl (c : Char) : Bool := isControl c && c ≠ '\n' && c ≠ '\r' && c ≠ '\t'

/-- `value.to_ascii_lowercase()`. -/
def toAsciiLowercase (value : String) : String :=
  String.ofList (value.toList.map fun c => if isAsciiUppercase c then Char.ofNat (c.toNat + 32) else c)

/-- Text that a client could take for markup or a script. -/
def looksLikeMarkup (value : String) : Bool :=
  let normalized := toAsciiLowercase value
  (containsText normalized "<" && containsText normalized ">") ||
    containsText normalized "javascript:" || containsText normalized "data:text/html"

def validateInteractionNativeText (path value : String) : Validation Unit := do
  rejectIf (value.utf8ByteSize > maxInteractionNativeTextBytes ∨
      value.length > maxInteractionNativeTextChars)
    ⟨path, s!"must contain at most {maxInteractionNativeTextChars} Unicode scalars and {maxInteractionNativeTextBytes} UTF-8 bytes"⟩
  rejectIf (value.toList.any isDisallowedControl) ⟨path, "contains disallowed control characters"⟩
  rejectIf (looksLikeMarkup value) ⟨path, "must remain plain native text"⟩

/-! ## The durable boundary -/

/-- One rule of `InteractionRuleSet::validate`. -/
def validateRuleEntry (maxActionsPerEvent : UInt32) (index : Nat) (rule : InteractionRule) :
    Validation Unit := do
  validateId s!"rules[{index}].id" rule.id
  rejectIf (rule.actions.isEmpty ∨ rule.actions.length > maxActionsPerEvent.toNat)
    ⟨s!"rules[{index}].actions", "must be non-empty and within the event action limit"⟩
  forSome rule.condition fun condition => validateCondition condition s!"rules[{index}].condition"

def InteractionRuleSet.validate (set : InteractionRuleSet) : Validation Unit := do
  validateId "id" set.id
  validateText "name" set.name 1 maxNameChars
  rejectIf (set.schemaVersion = 0 ∨ set.rules.length > maxInteractionRules)
    ⟨"rules", s!"schema must be positive and rules at most {maxInteractionRules}"⟩
  rejectIf (set.maxActionsPerEvent = 0 ∨ set.maxActionsPerEvent > 1024)
    ⟨"max_actions_per_event", "must be between 1 and 1024"⟩
  forIdx (validateRuleEntry set.maxActionsPerEvent) set.rules

/-- The timestamps of a proposal at `path`. -/
def validateProposalTimes (proposal : InteractionProposalRecord) (path : String) : Validation Unit :=
  match proposal.status, proposal.decidedAtEpochSeconds with
  | .pending, none => .ok ()
  | .pending, some _ => .error ⟨s!"{path}.decided_at_epoch_seconds",
      "pending proposals must not have a terminal timestamp"⟩
  | .expired, decided =>
    rejectIf ((proposal.expiresAtEpochSeconds.any fun expires =>
        decided.any fun decided => decide (decided ≥ expires)) = false)
      ⟨s!"{path}.decided_at_epoch_seconds",
        "expired proposals require an expiration and a terminal timestamp at or after it"⟩
  | .approved, decided | .rejected, decided =>
    rejectIf ((decided.any fun decided => decide (decided ≥ proposal.requestedAtEpochSeconds) &&
        proposal.expiresAtEpochSeconds.all fun expires => decide (decided < expires)) = false)
      ⟨s!"{path}.decided_at_epoch_seconds",
        "approved and rejected proposals require a timestamp within their valid lifetime"⟩

def validateInteractionProposal (proposal : InteractionProposalRecord) (path : String) :
    Validation Unit := do
  validateId s!"{path}.id" proposal.id
  validateId s!"{path}.rule_set_id" proposal.ruleSetId
  validateId s!"{path}.rule_id" proposal.ruleId
  validateId s!"{path}.proposal_id" proposal.proposalId
  validateText s!"{path}.title" proposal.title 1 maxInteractionProposalTitleChars
  validateText s!"{path}.body" proposal.body 1 maxInteractionProposalBodyChars
  rejectIf (proposal.requestedAtEpochSeconds < 0)
    ⟨s!"{path}.requested_at_epoch_seconds", "must be a non-negative Unix timestamp"⟩
  rejectIf (proposal.expiresAtEpochSeconds.any fun expires =>
      decide (expires < proposal.requestedAtEpochSeconds))
    ⟨s!"{path}.expires_at_epoch_seconds", "must not predate the request"⟩
  validateProposalTimes proposal path

/-- The pending proposals' ids. -/
def pendingProposalIds (proposals : List InteractionProposalRecord) : List String :=
  (proposals.filter fun proposal => proposal.status = .pending).map (·.proposalId)

/-- One proposal of `InteractionState::validate`. -/
def validateStateProposal (revision : UInt64) (index : Nat) (proposal : InteractionProposalRecord) :
    Validation Unit := do
  validateInteractionProposal proposal s!"proposals[{index}]"
  rejectIf (proposal.sourceInteractionStateRevision > revision)
    ⟨s!"proposals[{index}].source_interaction_state_revision",
      "must not exceed the current interaction state revision"⟩

def InteractionState.validate (state : InteractionState) : Validation Unit := do
  validateVariableMap state.vars "variables"
  rejectIf (state.manuallyActiveKnowledge.length > maxKnowledgeEntries)
    ⟨"manually_active_knowledge", s!"must contain at most {maxKnowledgeEntries} entries"⟩
  rejectIf (hasDuplicate state.manuallyActiveKnowledge)
    ⟨"manually_active_knowledge", "entry identifiers must be unique"⟩
  rejectIf (state.proposals.length > maxInteractionProposals)
    ⟨"proposals", s!"must contain at most {maxInteractionProposals} records"⟩
  forIdx (validateStateProposal state.revision) state.proposals
  rejectIf (hasDuplicate (state.proposals.map (·.id)))
    ⟨"proposals", "record identifiers must be unique"⟩
  rejectIf (hasDuplicate (pendingProposalIds state.proposals))
    ⟨"proposals", "only one pending record may exist for a proposal id"⟩

end LorePia
