import LorePia.Domain.Discovery

/-!
# The transitions of provider discovery (`crates/domain/src/discovery.rs`)

`apply` evaluates one action against a session. The transition table is written by action, each with the
states it is legal in. The fresh identifier of an event and the constant outcome of a receipt are left out.
-/

namespace LorePia.Discovery

open Base

abbrev DiscoveryApply (α : Type) := Except DiscoveryTransitionError α

/-- The session after an action, the effect and the warning. -/
structure DiscoverySuccessor where
  next : ProviderDiscoverySession
  effect : DiscoveryEffect := .none
  warning : Option DiscoveryWarning := none

/-- A payload check. -/
def checkAction (check : DiscoveryCheck Unit) : DiscoveryApply Unit := mapErr .invalidAction check

/-- An action that is legal in some states. -/
def legalIn (states : List DiscoveryState) (current : ProviderDiscoverySession)
    (action : ProviderDiscoveryAction) (arm : DiscoveryApply DiscoverySuccessor) :
    DiscoveryApply DiscoverySuccessor :=
  if current.state ∈ states then arm else .error (.invalidTransition current.state action.kind)

def clearRecoveryMarkers (session : ProviderDiscoverySession) : ProviderDiscoverySession :=
  { session with
    recovery := none
    unknownOperation := none
    activeEffectApproval := none }

def isOperationCompletion (state : DiscoveryState) : ProviderDiscoveryAction → Bool
  | .knownProviderCandidatesResolved _ => state = .resolvingKnownProvider
  | .documentsFetched _ => state = .fetchingDocuments
  | .evidenceExtracted _ => state = .extractingEvidence
  | .assistantResumedWithEvidence _ _ => state = .extractingEvidence
  | .manifestDraftBuilt _ =>
    state = .buildingDeterministicManifestDraft || state = .buildingAssistantManifestDraft
  | .assistantRequestedMoreEvidence _ => state = .buildingAssistantManifestDraft
  | .manifestValidated _ _ => state = .validatingManifest
  | .modelsListed _ _ => state = .listingModels
  | .probesCompleted => state = .probingCapabilities
  | _ => false

def validateSuppliedEvidenceIds (evidenceIds : List EvidenceId) : DiscoveryCheck Unit := do
  rejectIf (evidenceIds = [] ∨ evidenceIds.length > 4096)
    ⟨"evidence_ids", "must contain between 1 and 4096 evidence references"⟩
  rejectIf (¬ evidenceIds.Nodup) ⟨"evidence_ids", "must not contain duplicate evidence references"⟩

def canonicalOriginForHttpUrl (lib : DiscoveryLibrary) (value : HttpUrl) : DiscoveryCheck CanonicalOrigin := do
  let url ← mapErr (fun error => ⟨"site_url", error⟩) (lib.parseUrl value)
  mapErr (fun error => ⟨"site_url", error⟩) (CanonicalOrigin.parse lib url.origin)

/-- `source_allowed` of the fresh evidence. -/
def sourceAllowed (lib : DiscoveryLibrary) (input : SanitizedDiscoveryInput)
    (source : DiscoveryFreshEvidenceSource) : DiscoveryCheck Bool :=
  match input.connectionOptions.networkMode with
  | .public_ => .ok true
  | .localLoopback => do
    let origin ← canonicalOriginForHttpUrl lib input.siteUrl
    pure (source.origin = origin)
  | .approvedLocalNetwork =>
    match source with
    | .sanitizedCurl origin =>
      .ok (input.connectionOptions.localNetworkApproval.any fun approval => origin = approval.origin)
    | _ => .ok false

/-- The commit attempt, which a saga needs. -/
def requireCommitAttempt (session : ProviderDiscoverySession) (reason : String) :
    DiscoveryApply DiscoveryCommitAttemptId :=
  okOr session.commitAttemptId (.invalidSession ⟨"commit_attempt_id", reason⟩)

/-- The approval that an effect is restarted with. -/
def requireApproval (session : ProviderDiscoverySession) (reason : String) :
    DiscoveryApply DiscoveryApprovalBinding :=
  okOr session.activeEffectApproval (.invalidSession ⟨"active_effect_approval", reason⟩)

def effectForOperation (session : ProviderDiscoverySession) : DiscoveryOperationKind → DiscoveryApply DiscoveryEffect
  | .resolveKnownProvider => .ok .resolveKnownProvider
  | .fetchDocuments => .ok .fetchDocuments
  | .extractEvidence => .ok .extractEvidence
  | .buildDeterministicManifestDraft => .ok .buildDeterministicManifestDraft
  | .buildAssistantManifestDraft => do
    let approval ← requireApproval session "is required to restart assistant manifest generation"
    pure (.buildAssistantManifestDraft approval)
  | .validateManifest => .ok .validateManifest
  | .listModels => .ok .listModels
  | .probeCapabilities => do
    let approval ← requireApproval session "is required to restart capability probes"
    pure (.probeCapabilities approval)
  | .atomicCommit => do
    let attempt ← requireCommitAttempt session "is required to restart a commit"
    let plan ← okOr session.commitPlanSha256
      (.invalidSession ⟨"commit_plan_sha256", "is required to restart a commit"⟩)
    pure (.commitAtomically attempt plan)
  | .compensation => do
    let attempt ← requireCommitAttempt session "is required to resume compensation"
    pure (.runCompensation attempt)

/-! ## The transition table -/

/-- An approved billable effect; `building` is the state that it starts. -/
def approveEffect (current : ProviderDiscoverySession) (approval : DiscoveryApprovalBinding)
    (building : DiscoveryState) (effect : DiscoveryApprovalBinding → DiscoveryEffect) : DiscoverySuccessor where
  next := { current with activeEffectApproval := some approval, state := building }
  effect := effect approval

def manifestValidated (current : ProviderDiscoverySession) (manifestSha256 : String) (approvalRequired : Bool) :
    DiscoveryApply DiscoverySuccessor := do
  checkAction (validateSha256 "manifest_sha256" manifestSha256)
  checkAction (rejectIf (current.manifestSha256.any (· ≠ manifestSha256) = true)
    ⟨"manifest_sha256", "validated manifest does not match the persisted draft"⟩)
  if approvalRequired then
    pure { next := { current with
      manifestSha256 := some manifestSha256, state := .awaitingCredentialOriginApproval } }
  else
    pure
      { next := { current with manifestSha256 := some manifestSha256, state := .listingModels }
        effect := .listModels }

/-- A compensation that is started. -/
def startCompensation (current next : ProviderDiscoverySession) : DiscoveryApply DiscoverySuccessor := do
  let attempt ← requireCommitAttempt current "is required to compensate"
  pure
    { next := { next with state := .compensating }
      effect := .runCompensation attempt
      warning := some .compensationRequired }

/-- The end of a saga without a commit. -/
def endWithoutCommit (current next : ProviderDiscoverySession) : ProviderDiscoverySession :=
  { next with
    state := if current.cancellationPending then .cancelled else .failed
    cancellationPending := false
    activeEffectApproval := none }

/-- The commit is known to be complete. -/
def commitCompleted (current next : ProviderDiscoverySession) (connectionId : ProviderConnectionId) :
    DiscoveryApply DiscoverySuccessor :=
  if current.cancellationPending then startCompensation current next
  else .ok { next := { next with
    state := .ready, committedConnectionId := some connectionId, cancellationPending := false } }

/-- `ConfirmedNoEffect`. -/
def resolveNoEffect (current : ProviderDiscoverySession) : DiscoveryApply DiscoverySuccessor := do
  let operation ← okOr current.unknownOperation
    (.invalidSession ⟨"unknown_operation", "is required to reconcile"⟩)
  if current.cancellationPending then
    if operation = .atomicCommit ∨ operation = .compensation then
      pure
        { next := { current with
            unknownOperation := none
            state := .interrupted
            recovery := some ⟨.compensating, .compensation⟩ }
          warning := some .explicitRestartRequired }
    else
      pure { next := { current with
        unknownOperation := none, state := .cancelled, recovery := none, cancellationPending := false } }
  else
    pure
      { next := { current with
          unknownOperation := none
          state := .interrupted
          recovery := some ⟨stateForOperation operation, operation⟩ }
        warning := some .explicitRestartRequired }

def resolveUnknownOutcome (current : ProviderDiscoverySession) (action : ProviderDiscoveryAction) :
    DiscoveryUnknownOutcomeResolution → DiscoveryApply DiscoverySuccessor
  | .confirmedNoEffect => resolveNoEffect current
  | .confirmedCommitCompleted connectionId => do
    rejectIf (current.unknownOperation ≠ some .atomicCommit) (.invalidTransition current.state action.kind)
    commitCompleted current { current with unknownOperation := none } connectionId
  | .confirmedCompensated => do
    rejectIf (current.unknownOperation ≠ some .compensation ∧ current.unknownOperation ≠ some .atomicCommit)
      (.invalidTransition current.state action.kind)
    pure { next := endWithoutCommit current { current with unknownOperation := none } }
  | .manuallyReconciledAsFailed =>
    .ok { next := endWithoutCommit current { current with unknownOperation := none } }

def restartInterrupted (current : ProviderDiscoverySession) : DiscoveryApply DiscoverySuccessor := do
  let checkpoint ← okOr current.recovery (.invalidSession ⟨"recovery", "is required to restart"⟩)
  let effect ← effectForOperation current checkpoint.operation
  pure
    { next := { current with state := checkpoint.interruptedState, recovery := none, unknownOperation := none }
      effect }

def applyStateAction (lib : DiscoveryLibrary) (current : ProviderDiscoverySession)
    (action : ProviderDiscoveryAction) : DiscoveryApply DiscoverySuccessor :=
  match action with
  | .begin => legalIn [.draft] current action (.ok
      { next := { current with state := .resolvingKnownProvider }, effect := .resolveKnownProvider })
  | .knownProviderCandidatesResolved candidateCount => legalIn [.resolvingKnownProvider] current action (
      if candidateCount = 0 then
        .ok { next := { current with state := .fetchingDocuments }, effect := .fetchDocuments }
      else .ok { next := { current with state := .awaitingTemplateSelection } })
  | .selectTemplate _ => legalIn [.awaitingTemplateSelection] current action (.ok
      { next := { current with state := .validatingManifest }, effect := .validateManifest })
  | .continueWithoutTemplate => legalIn [.awaitingTemplateSelection] current action (.ok
      { next := { current with state := .fetchingDocuments }, effect := .fetchDocuments })
  | .documentsFetched _ => legalIn [.fetchingDocuments] current action (.ok
      { next := { current with state := .extractingEvidence }, effect := .extractEvidence })
  | .evidenceExtracted resolution => legalIn [.extractingEvidence] current action (
      match resolution with
      | .deterministicDraftAvailable => .ok
        { next := { current with state := .buildingDeterministicManifestDraft }
          effect := .buildDeterministicManifestDraft }
      | .assistantRecommended => .ok { next := { current with state := .awaitingAssistantConsent } }
      | .moreEvidenceRequired => .ok { next := { current with state := .awaitingMoreEvidence } })
  | .assistantResumedWithEvidence approvalId grant => legalIn [.extractingEvidence] current action (do
      checkAction (validateSha256 "approval_grant_sha256" grant)
      checkAction (DiscoveryApprovalBinding.validate ⟨approvalId, grant⟩)
      pure (approveEffect current ⟨approvalId, grant⟩ .buildingAssistantManifestDraft .buildAssistantManifestDraft))
  | .supplyMoreEvidence evidenceIds => legalIn [.awaitingMoreEvidence] current action (do
      checkAction (validateSuppliedEvidenceIds evidenceIds)
      pure { next := { current with state := .extractingEvidence }, effect := .extractEvidence })
  | .supplyFreshEvidence evidenceIds source => legalIn [.awaitingMoreEvidence] current action (do
      checkAction (validateSuppliedEvidenceIds evidenceIds)
      let allowed ← mapErr .invalidAction (sourceAllowed lib current.input source)
      rejectIf (allowed = false)
        (.invalidAction ⟨"fresh_evidence.source.origin", "is outside the session network authority"⟩)
      pure { next := { current with state := .extractingEvidence }, effect := .extractEvidence })
  | .requestAssistant => legalIn [.awaitingMoreEvidence] current action (.ok
      { next := { current with state := .awaitingAssistantConsent } })
  | .approveAssistant approvalId grant => legalIn [.awaitingAssistantConsent] current action (do
      checkAction (validateSha256 "approval_grant_sha256" grant)
      pure (approveEffect current ⟨approvalId, grant⟩ .buildingAssistantManifestDraft .buildAssistantManifestDraft))
  | .declineAssistant => legalIn [.awaitingAssistantConsent] current action (.ok
      { next := { current with state := .awaitingMoreEvidence }, warning := some .assistantDeclined })
  | .manifestDraftBuilt manifestSha256 =>
      legalIn [.buildingDeterministicManifestDraft, .buildingAssistantManifestDraft] current action (do
        checkAction (validateSha256 "manifest_sha256" manifestSha256)
        pure
          { next := { current with
              manifestSha256 := some manifestSha256
              activeEffectApproval := none
              state := .validatingManifest }
            effect := .validateManifest })
  | .assistantCheckpointed _ => legalIn [.buildingAssistantManifestDraft] current action (.ok { next := current })
  | .assistantRequestedMoreEvidence questionCount =>
      legalIn [.buildingAssistantManifestDraft] current action (do
        checkAction (rejectIf (questionCount = 0 ∨ questionCount > 128)
          ⟨"assistant_more_evidence.question_count", "must contain between 1 and 128 questions"⟩)
        pure { next := { current with activeEffectApproval := none, state := .awaitingMoreEvidence } })
  | .manifestValidated manifestSha256 approvalRequired => legalIn [.validatingManifest] current action (
      manifestValidated current manifestSha256 approvalRequired)
  | .approveCredentialOrigin _ => legalIn [.awaitingCredentialOriginApproval] current action (.ok
      { next := { current with state := .listingModels }, effect := .listModels })
  | .modelsListed _ probeCandidateCount => legalIn [.listingModels] current action (
      if probeCandidateCount = 0 then .ok { next := { current with state := .awaitingReview } }
      else .ok { next := { current with state := .awaitingProbeConsent } })
  | .approveProbes approvalId grant => legalIn [.awaitingProbeConsent] current action (do
      checkAction (validateSha256 "approval_grant_sha256" grant)
      pure (approveEffect current ⟨approvalId, grant⟩ .probingCapabilities .probeCapabilities))
  | .skipProbes => legalIn [.awaitingProbeConsent] current action (.ok
      { next := { current with state := .awaitingReview }, warning := some .probesSkipped })
  | .probesCompleted => legalIn [.probingCapabilities] current action (.ok
      { next := { current with activeEffectApproval := none, state := .awaitingReview } })
  | .approveReview _ commitAttemptId commitPlanSha256 _ => legalIn [.awaitingReview] current action (do
      checkAction (validateSha256 "commit_plan_sha256" commitPlanSha256)
      pure
        { next := { current with
            commitPlanSha256 := some commitPlanSha256
            commitAttemptId := some commitAttemptId
            state := .committing }
          effect := .commitAtomically commitAttemptId commitPlanSha256 })
  | .commitSucceeded connectionId => legalIn [.committing] current action (
      commitCompleted current current connectionId)
  | .commitFailedBeforeApply failure => legalIn [.committing] current action (do
      checkAction failure.validate
      pure { next := { endWithoutCommit current current with failure := some failure } })
  | .compensationFailed failure => legalIn [.compensating] current action (do
      rejectIf (current.failure ≠ none) (.invalidTransition current.state action.kind)
      checkAction failure.validate
      pure { next := { current with failure := some failure } })
  | .resumeCompensation => legalIn [.compensating] current action (do
      rejectIf (current.failure = none) (.invalidTransition current.state action.kind)
      let attempt ← requireCommitAttempt current "is required to resume compensation"
      pure { next := { current with failure := none }, effect := .runCompensation attempt })
  | .compensationRequired => legalIn [.committing] current action (startCompensation current current)
  | .compensationSucceeded => legalIn [.compensating] current action (do
      rejectIf (current.failure ≠ none) (.invalidTransition current.state action.kind)
      pure { next := endWithoutCommit current current })
  | .externalOutcomeBecameUnknown => legalIn [.committing, .compensating] current action (do
      rejectIf (current.state = .compensating ∧ current.failure ≠ none)
        (.invalidTransition current.state action.kind)
      let operation ← okOr current.state.operation (.invalidTransition current.state action.kind)
      pure
        { next := { current with
            state := .unknownOutcome, unknownOperation := some operation, recovery := none }
          warning := some .unknownExternalOutcome })
  | .restartInterrupted => legalIn [.interrupted] current action (restartInterrupted current)
  | .resolveUnknownOutcome _ resolution => legalIn [.unknownOutcome] current action (
      resolveUnknownOutcome current action resolution)
  | .interrupt _ _ => .error (.invalidTransition current.state action.kind)
  | .fail _ => .error (.invalidTransition current.state action.kind)
  | .cancel => .error (.invalidTransition current.state action.kind)

/-! ## The actions that are legal in many states -/

/-- `Cancel`. -/
def cancelSession (current : ProviderDiscoverySession) : DiscoveryApply DiscoverySuccessor :=
  if current.state.isTerminal then
    .error (.invalidTransition current.state ProviderDiscoveryAction.cancel.kind)
  else
    match current.state with
    | .unknownOutcome => .error .unknownOutcomeRequiresReconciliation
    | .compensating => .ok
      { next := { current with cancellationPending := true }, warning := some .compensationRequired }
    | state =>
      match state.operation with
      | some operation =>
        if current.cancellationPending then .ok { next := current }
        else .ok
          { next := { current with cancellationPending := true }, effect := .requestCancellation operation }
      | none => .ok { next := clearRecoveryMarkers { current with state := .cancelled } }

/-- `Interrupt`. -/
def interruptSession (current : ProviderDiscoverySession) (operation : DiscoveryOperationKind)
    (outcome : DiscoveryInterruptionOutcome) : DiscoveryApply DiscoverySuccessor := do
  rejectIf (current.state.operation ≠ some operation ∨ (current.state = .compensating ∧ current.failure ≠ none))
    (.invalidTransition current.state (ProviderDiscoveryAction.interrupt operation outcome).kind)
  match outcome with
  | .confirmedNoExternalEffect =>
    if current.cancellationPending then
      if operation = .atomicCommit ∨ operation = .compensation then
        pure
          { next := { current with
              state := .interrupted
              recovery := some ⟨.compensating, .compensation⟩
              unknownOperation := none }
            warning := some .explicitRestartRequired }
      else
        pure { next := clearRecoveryMarkers { current with state := .cancelled, cancellationPending := false } }
    else
      pure
        { next := { current with
            state := .interrupted
            recovery := some ⟨current.state, operation⟩
            unknownOperation := none }
          warning := some .explicitRestartRequired }
  | .externalOutcomeUnknown =>
    pure
      { next := { current with
          state := .unknownOutcome, recovery := none, unknownOperation := some operation }
        warning := some .unknownExternalOutcome }

/-- `Fail`. -/
def failSession (current : ProviderDiscoverySession) (failure : DiscoveryFailure) :
    DiscoveryApply DiscoverySuccessor := do
  rejectIf (current.state.isTerminal = true ∨ current.state = .committing ∨ current.state = .compensating ∨
      current.state = .unknownOutcome)
    (.invalidTransition current.state (ProviderDiscoveryAction.fail failure).kind)
  checkAction failure.validate
  pure { next := clearRecoveryMarkers { current with
    state := if current.cancellationPending then .cancelled else .failed
    failure := some failure
    cancellationPending := false } }

/-- Any other action; a completion that arrives after a cancellation is discarded. -/
def completeOrApply (lib : DiscoveryLibrary) (current : ProviderDiscoverySession)
    (action : ProviderDiscoveryAction) : DiscoveryApply DiscoverySuccessor :=
  if current.cancellationPending = true ∧ current.state.operation ≠ none ∧ current.state ≠ .committing ∧
      current.state ≠ .compensating then do
    rejectIf (isOperationCompletion current.state action = false) (.invalidTransition current.state action.kind)
    pure { next := clearRecoveryMarkers { current with state := .cancelled, cancellationPending := false } }
  else applyStateAction lib current action

/-- The match of `apply` on the action. -/
def successor (lib : DiscoveryLibrary) (current : ProviderDiscoverySession) :
    ProviderDiscoveryAction → DiscoveryApply DiscoverySuccessor
  | .cancel => cancelSession current
  | .interrupt operation outcome => interruptSession current operation outcome
  | .fail failure => failSession current failure
  | action => completeOrApply lib current action

/-! ## `apply` -/

inductive DiscoveryProgressPhase
  | providerCandidates
  | documents
  | evidence
  | models
  | probes

structure DiscoveryProgress where
  phase : DiscoveryProgressPhase
  completed : Nat
  total : Option Nat

def progressForAction : ProviderDiscoveryAction → Option DiscoveryProgress
  | .knownProviderCandidatesResolved candidateCount =>
    some ⟨.providerCandidates, candidateCount, some candidateCount⟩
  | .documentsFetched evidenceCount => some ⟨.documents, evidenceCount, none⟩
  | .modelsListed modelCount _ => some ⟨.models, modelCount, some modelCount⟩
  | .probesCompleted => some ⟨.probes, 1, some 1⟩
  | _ => none

inductive DiscoveryActionRequired
  | selectTemplate
  | supplyMoreEvidence
  | approveAssistant
  | approveCredentialOrigin
  | approveProbes
  | review
  | restartInterrupted (operation : DiscoveryOperationKind)
  | reconcileUnknownOutcome (operation : DiscoveryOperationKind)

def actionRequiredFor (session : ProviderDiscoverySession) : Option DiscoveryActionRequired :=
  match session.state with
  | .awaitingTemplateSelection => some .selectTemplate
  | .awaitingMoreEvidence => some .supplyMoreEvidence
  | .awaitingAssistantConsent => some .approveAssistant
  | .awaitingCredentialOriginApproval => some .approveCredentialOrigin
  | .awaitingProbeConsent => some .approveProbes
  | .awaitingReview => some .review
  | .interrupted => session.recovery.map fun checkpoint => .restartInterrupted checkpoint.operation
  | .unknownOutcome => session.unknownOperation.map .reconcileUnknownOutcome
  | _ => none

def providerDiscoveryEventVersion : Nat := 2

structure ProviderDiscoveryEvent where
  version : Nat
  sessionId : DiscoverySessionId
  sequence : Nat
  sessionRevision : Nat
  state : DiscoveryState
  progress : Option DiscoveryProgress
  actionRequired : Option DiscoveryActionRequired
  warning : Option DiscoveryWarning
  actionId : DiscoveryActionId
  failure : Option DiscoveryFailure

structure DiscoveryActionReceipt where
  actionId : DiscoveryActionId
  sessionId : DiscoverySessionId
  actionKind : String
  requestSha256 : String
  expectedRevision : Nat
  resultingRevision : Nat
  eventSequence : Nat

structure DiscoveryTransition where
  previousRevision : Nat
  session : ProviderDiscoverySession
  event : ProviderDiscoveryEvent
  receipt : DiscoveryActionReceipt
  effect : DiscoveryEffect

/-- The transition that `apply` returns for an accepted action. -/
def transitionTo (current : ProviderDiscoverySession) (envelope : DiscoveryActionEnvelope)
    (built : DiscoverySuccessor) (next : ProviderDiscoverySession) : DiscoveryTransition where
  previousRevision := current.revision
  session := next
  event :=
    { version := providerDiscoveryEventVersion
      sessionId := current.id
      sequence := current.nextEventSequence
      sessionRevision := next.revision
      state := next.state
      progress := progressForAction envelope.action
      actionRequired := actionRequiredFor next
      warning := built.warning
      actionId := envelope.id
      failure := next.failure }
  receipt :=
    { actionId := envelope.id
      sessionId := current.id
      actionKind := envelope.action.kind
      requestSha256 := envelope.requestSha256
      expectedRevision := envelope.expectedRevision
      resultingRevision := next.revision
      eventSequence := current.nextEventSequence }
  effect := built.effect

def ProviderDiscoverySession.apply (lib : DiscoveryLibrary) (current : ProviderDiscoverySession)
    (envelope : DiscoveryActionEnvelope) : DiscoveryApply DiscoveryTransition := do
  mapErr .invalidSession (current.validate lib)
  mapErr .invalidAction envelope.validate
  rejectIf (envelope.expectedRevision ≠ current.revision)
    (.revisionConflict envelope.expectedRevision current.revision)
  let built ← successor lib current envelope.action
  let revision ← okOr (checkedAdd current.revision 1) .revisionExhausted
  let nextEventSequence ← okOr (checkedAdd current.nextEventSequence 1) .sequenceExhausted
  let next := { built.next with revision, nextEventSequence }
  mapErr .invalidSession (next.validate lib)
  pure (transitionTo current envelope built next)

end LorePia.Discovery
