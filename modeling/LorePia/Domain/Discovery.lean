import LorePia.Domain.Content
import LorePia.Providers.UrlPolicy

/-!
# Provider discovery contracts (`crates/domain/src/discovery.rs`)

The sanitized input, the session with its validator, and the actions, effects and errors of the state
machine. Identifiers are texts, timestamps numbers. URL parsing and the `Debug` form of a text are parameters.
-/

namespace LorePia.Discovery

open Base

abbrev DiscoveryActionId := String
abbrev DiscoveryApprovalId := String
abbrev DiscoveryCandidateId := String
abbrev DiscoveryCommitAttemptId := String
abbrev DiscoverySessionId := String
abbrev ProviderConnectionId := String
abbrev EvidenceId := String
abbrev HttpUrl := String

def defaultProviderDiscoveryTimeoutSeconds : Nat := 60
def maxProviderDiscoveryConnectionValues : Nat := 256
def maxProviderDiscoveryConnectionTextChars : Nat := 8 * 1024

/-- `DiscoveryContractError::InvalidField`. -/
structure DiscoveryContractError where
  field : String
  reason : String
deriving DecidableEq

abbrev DiscoveryCheck (α : Type) := Except DiscoveryContractError α

/-- What the `url` crate reads of a URL. -/
structure ParsedUrl where
  scheme : String
  host : Option String
  username : String
  password : Option String
  path : String
  query : Option String
  fragment : Option String
  origin : String

/-- The parts of other crates. -/
structure DiscoveryLibrary where
  /-- `Url::parse`. -/
  parseUrl : String → Except String ParsedUrl
  /-- The `Debug` form of a text. -/
  debugText : String → String

/-- `CanonicalOrigin`, by its text. -/
structure CanonicalOrigin where
  value : String
deriving DecidableEq

def CanonicalOrigin.parse (lib : DiscoveryLibrary) (value : String) : Except String CanonicalOrigin := do
  let url ← lib.parseUrl value
  rejectIf (url.scheme ≠ "http" ∧ url.scheme ≠ "https") "only http and https origins are supported"
  rejectIf (url.host = none) "origin must contain a host"
  rejectIf (url.username ≠ "" ∨ url.password ≠ none) "origin must not contain embedded credentials"
  rejectIf (url.path ≠ "/" ∨ url.query ≠ none ∨ url.fragment ≠ none)
    "origin must not contain a path, query, or fragment"
  pure ⟨url.origin⟩

/-! ## Checks of texts -/

def validateSha256 (field value : String) : DiscoveryCheck Unit :=
  rejectIf (value.utf8ByteSize ≠ 64 ∨ value.toList.all isLowerHexDigit = false)
    ⟨field, "must be a lowercase hexadecimal SHA-256 digest"⟩

def validateBoundedText (field value : String) (maxChars : Nat) (reason : String) : DiscoveryCheck Unit :=
  rejectIf (value = "" ∨ trim value ≠ value ∨ value.length > maxChars ∨ hasControl value = true) ⟨field, reason⟩

def validateOpaqueReference (field value : String) : DiscoveryCheck Unit :=
  rejectIf (value = "" ∨ value.utf8ByteSize > 256 ∨ trim value ≠ value ∨ hasControl value = true)
    ⟨field, "must be a bounded opaque reference"⟩

def textStartsWith (text start : String) : Bool := start.toList.isPrefixOf text.toList

def textEndsWith (text stop : String) : Bool := stop.toList.isSuffixOf text.toList

def isAsciiAlphanumeric (c : Char) : Bool :=
  (48 ≤ c.toNat && c.toNat ≤ 57) || (65 ≤ c.toNat && c.toNat ≤ 90) || (97 ≤ c.toNat && c.toNat ≤ 122)

def isSensitiveConfigurationKey (key : String) : Bool :=
  let normalized := toAsciiLowercase (String.ofList (key.toList.filter isAsciiAlphanumeric))
  normalized = "authorization" || normalized = "apikey" || textEndsWith normalized "apikey" ||
    containsText normalized "password" || containsText normalized "secret" || textEndsWith normalized "token" ||
    containsText normalized "credential" || normalized = "cookie"

def secretPrefixes : List String :=
  ["sk-proj-", "sk-ant-", "sk-or-", "sk-", "AIza", "xoxb-", "xoxp-", "ghp_", "github_pat_", "AKIA"]

def looksLikeCredentialMaterial (value : String) : Bool :=
  let lower := toAsciiLowercase value
  textStartsWith lower "bearer " || textStartsWith lower "basic " ||
    ["api_key=", "apikey=", "access_token=", "secret=", "password=", "-----begin private key-----",
      "-----begin rsa private key-----"].any (containsText lower) ||
    secretPrefixes.any (textStartsWith value)

def validateRedactedUrl (lib : DiscoveryLibrary) (field : String) (value : HttpUrl) : DiscoveryCheck Unit := do
  let url ← mapErr (fun error => ⟨field, error⟩) (lib.parseUrl value)
  rejectIf (url.query ≠ none ∨ url.fragment ≠ none)
    ⟨field, "persisted discovery URLs must not contain a query or fragment"⟩

/-! ## Connection options -/

inductive ConnectionConfigValue
  | text (value : String)
  | integer (value : Int)
  | boolean (value : Bool)

structure ConnectionConfigEntry where
  key : String
  value : ConnectionConfigValue

inductive ProviderNetworkMode
  | public_
  | localLoopback
  | approvedLocalNetwork
deriving DecidableEq

structure ProviderLocalNetworkApproval where
  origin : CanonicalOrigin
  addresses : List IpAddr

structure ProviderDiscoveryConnectionOptions where
  values : List ConnectionConfigEntry
  timeoutSeconds : Nat
  networkMode : ProviderNetworkMode
  localNetworkApproval : Option ProviderLocalNetworkApproval
  localNetworkApprovedAt : Option Int

def validateConnectionOptionEntry (entry : ConnectionConfigEntry) : DiscoveryCheck Unit := do
  validateBoundedText "connection_options.values.key" entry.key 128
    "must be a nonempty trimmed key of at most 128 characters"
  rejectIf (isSensitiveConfigurationKey entry.key = true)
    ⟨"connection_options.values.key", "credential-like keys are forbidden; use credential_ref"⟩
  match entry.value with
  | .text value =>
    rejectIf (trim value ≠ value ∨ value.length > maxProviderDiscoveryConnectionTextChars ∨
        hasControl value = true) ⟨s!"connection_options.values[{entry.key}]",
      s!"text must be trimmed, control-free, and at most {maxProviderDiscoveryConnectionTextChars} characters"⟩
    rejectIf (looksLikeCredentialMaterial value = true) ⟨s!"connection_options.values[{entry.key}]",
      "credential-like material is forbidden; use credential_ref"⟩
  | _ => pure ()

/-- A byte of an IPv4 address. -/
def octet (address : Ipv4Addr) (index : Nat) : Nat := (address.extractLsb' (8 * (3 - index)) 8).toNat

/-- The `Display` form of an IPv4 address. -/
def displayIpv4 (address : Ipv4Addr) : String :=
  s!"{octet address 0}.{octet address 1}.{octet address 2}.{octet address 3}"

/-- Groups of an IPv6 address in lowercase hexadecimal. -/
def displayGroups (groups : List Nat) : String :=
  ":".intercalate (groups.map fun group => String.ofList (Nat.toDigits 16 group))

/-- The number of zero groups at the start. -/
def zeroRun (groups : List Nat) : Nat := (groups.takeWhile (· = 0)).length

/-- The first longest run of zero groups: its start and its length. -/
def longestZeroRun (groups : List Nat) : Nat × Nat :=
  (List.range groups.length).foldl (fun best start =>
    if zeroRun (groups.drop start) > best.2 then (start, zeroRun (groups.drop start)) else best) (0, 0)

/-- The `Display` form of an IPv6 address. -/
def displayIpv6 (address : Ipv6Addr) : String :=
  match ipv4Mapped address with
  | some mapped => "::ffff:" ++ displayIpv4 mapped
  | none =>
    let groups := (segmentsBefore address 8).map BitVec.toNat
    let run := longestZeroRun groups
    if run.2 > 1 then
      displayGroups (groups.take run.1) ++ "::" ++ displayGroups (groups.drop (run.1 + run.2))
    else displayGroups groups

def displayAddress : IpAddr → String
  | .v4 address => displayIpv4 address
  | .v6 address => displayIpv6 address

def isPrivateNetworkAddress : IpAddr → Bool
  | .v4 address => inPrefix address 0x0a000000 8 || inPrefix address 0xac100000 12 || inPrefix address 0xc0a80000 16
  | .v6 address => segment address 0 &&& 0xfe00 == 0xfc00

def validateLocalNetworkApproval (approval : ProviderLocalNetworkApproval) : DiscoveryCheck Unit := do
  let field := "connection_options.local_network_approval.addresses"
  rejectIf (approval.addresses.length < 1 ∨ approval.addresses.length > 16)
    ⟨field, "must contain from 1 to 16 exact private IP addresses"⟩
  let _ ← approval.addresses.foldlM (fun seen address => do
    rejectIf (isPrivateNetworkAddress address = false)
      ⟨field, s!"{displayAddress address} is not an RFC1918 IPv4 or ULA IPv6 address"⟩
    rejectIf (address ∈ seen) ⟨field, s!"contains duplicate address {displayAddress address}"⟩
    pure (address :: seen)) []

def ProviderDiscoveryConnectionOptions.validate (lib : DiscoveryLibrary)
    (options : ProviderDiscoveryConnectionOptions) : DiscoveryCheck Unit := do
  rejectIf (options.timeoutSeconds < 1 ∨ options.timeoutSeconds > 600)
    ⟨"connection_options.timeout_seconds", "must be from 1 to 600 seconds"⟩
  rejectIf (options.values.length > maxProviderDiscoveryConnectionValues) ⟨"connection_options.values",
    s!"exceeds the {maxProviderDiscoveryConnectionValues}-entry limit"⟩
  let _ ← options.values.foldlM (fun keys entry => do
    validateConnectionOptionEntry entry
    rejectIf (entry.key ∈ keys)
      ⟨"connection_options.values", s!"contains duplicate key {lib.debugText entry.key}"⟩
    pure (entry.key :: keys)) []
  match options.networkMode, options.localNetworkApproval, options.localNetworkApprovedAt with
  | .approvedLocalNetwork, some approval, _ => validateLocalNetworkApproval approval
  | .approvedLocalNetwork, none, _ => .error ⟨"connection_options.local_network_approval",
      "is required for approved_local_network mode"⟩
  | _, some _, _ => .error ⟨"connection_options.local_network_approval",
      "must be absent unless network_mode is approved_local_network"⟩
  | _, none, some _ => .error ⟨"connection_options.local_network_approved_at",
      "must be absent unless network_mode is approved_local_network"⟩
  | _, none, none => .ok ()

/-! ## Input -/

structure SanitizedDiscoveryInput where
  connectionId : ProviderConnectionId
  displayName : String
  siteUrl : HttpUrl
  docsUrl : Option HttpUrl
  credentialRef : Option String
  connectionOptions : ProviderDiscoveryConnectionOptions
  suppliedEvidenceIds : List EvidenceId

/-- The credential slot is the one of the connection. -/
def validateCredentialRef (connectionId : ProviderConnectionId) (credentialRef : String) :
    DiscoveryCheck Unit := do
  validateOpaqueReference "credential_ref" credentialRef
  rejectIf (credentialRef ≠ connectionId)
    ⟨"credential_ref", "must use the selected connection identifier as its native slot"⟩

def SanitizedDiscoveryInput.validate (lib : DiscoveryLibrary) (input : SanitizedDiscoveryInput) :
    DiscoveryCheck Unit := do
  validateBoundedText "connection_id" input.connectionId 128
    "must be a bounded trimmed opaque connection identifier"
  validateBoundedText "display_name" input.displayName 120
    "must be a nonempty trimmed display name of at most 120 characters"
  validateRedactedUrl lib "site_url" input.siteUrl
  forSome input.docsUrl (validateRedactedUrl lib "docs_url")
  forSome input.credentialRef (validateCredentialRef input.connectionId)
  input.connectionOptions.validate lib
  rejectIf (input.suppliedEvidenceIds.length > 4096)
    ⟨"supplied_evidence_ids", "exceeds the 4096 evidence-reference limit"⟩

/-! ## States -/

inductive DiscoveryState
  | draft
  | resolvingKnownProvider
  | awaitingTemplateSelection
  | fetchingDocuments
  | extractingEvidence
  | awaitingMoreEvidence
  | awaitingAssistantConsent
  | buildingDeterministicManifestDraft
  | buildingAssistantManifestDraft
  | validatingManifest
  | awaitingCredentialOriginApproval
  | listingModels
  | awaitingProbeConsent
  | probingCapabilities
  | awaitingReview
  | committing
  | compensating
  | ready
  | failed
  | cancelled
  | interrupted
  | unknownOutcome
deriving DecidableEq

inductive DiscoveryOperationKind
  | resolveKnownProvider
  | fetchDocuments
  | extractEvidence
  | buildDeterministicManifestDraft
  | buildAssistantManifestDraft
  | validateManifest
  | listModels
  | probeCapabilities
  | atomicCommit
  | compensation
deriving DecidableEq

def DiscoveryState.isTerminal : DiscoveryState → Bool
  | .ready => true
  | .failed => true
  | .cancelled => true
  | _ => false

def DiscoveryState.operation : DiscoveryState → Option DiscoveryOperationKind
  | .resolvingKnownProvider => some .resolveKnownProvider
  | .fetchingDocuments => some .fetchDocuments
  | .extractingEvidence => some .extractEvidence
  | .buildingDeterministicManifestDraft => some .buildDeterministicManifestDraft
  | .buildingAssistantManifestDraft => some .buildAssistantManifestDraft
  | .validatingManifest => some .validateManifest
  | .listingModels => some .listModels
  | .probingCapabilities => some .probeCapabilities
  | .committing => some .atomicCommit
  | .compensating => some .compensation
  | _ => none

def stateForOperation : DiscoveryOperationKind → DiscoveryState
  | .resolveKnownProvider => .resolvingKnownProvider
  | .fetchDocuments => .fetchingDocuments
  | .extractEvidence => .extractingEvidence
  | .buildDeterministicManifestDraft => .buildingDeterministicManifestDraft
  | .buildAssistantManifestDraft => .buildingAssistantManifestDraft
  | .validateManifest => .validatingManifest
  | .listModels => .listingModels
  | .probeCapabilities => .probingCapabilities
  | .atomicCommit => .committing
  | .compensation => .compensating

inductive DiscoveryInterruptionOutcome
  | confirmedNoExternalEffect
  | externalOutcomeUnknown
deriving DecidableEq

structure DiscoveryRecoveryCheckpoint where
  interruptedState : DiscoveryState
  operation : DiscoveryOperationKind
deriving DecidableEq

structure DiscoveryFailure where
  code : String
  messageKey : String
  recoverable : Bool
deriving DecidableEq

/-- The check of one identifier of a failure. -/
def validateStableIdentifier (field value : String) : DiscoveryCheck Unit :=
  rejectIf (value = "" ∨ value.utf8ByteSize > 128 ∨
      value.toList.all (fun c => isAsciiAlphanumeric c || c = '.' || c = '_' || c = '-') = false)
    ⟨field, "must be a bounded stable identifier"⟩

def DiscoveryFailure.validate (failure : DiscoveryFailure) : DiscoveryCheck Unit := do
  validateStableIdentifier "failure.code" failure.code
  validateStableIdentifier "failure.message_key" failure.messageKey

structure DiscoveryApprovalBinding where
  approvalId : DiscoveryApprovalId
  grantSha256 : String
deriving DecidableEq

def DiscoveryApprovalBinding.validate (binding : DiscoveryApprovalBinding) : DiscoveryCheck Unit :=
  validateSha256 "approval_binding.grant_sha256" binding.grantSha256

/-! ## Sessions -/

structure ProviderDiscoverySession where
  id : DiscoverySessionId
  input : SanitizedDiscoveryInput
  state : DiscoveryState
  revision : Nat
  nextEventSequence : Nat
  recovery : Option DiscoveryRecoveryCheckpoint
  unknownOperation : Option DiscoveryOperationKind
  manifestSha256 : Option String
  commitPlanSha256 : Option String
  commitAttemptId : Option DiscoveryCommitAttemptId
  committedConnectionId : Option ProviderConnectionId
  cancellationPending : Bool
  activeEffectApproval : Option DiscoveryApprovalBinding
  failure : Option DiscoveryFailure

def ProviderDiscoverySession.new (lib : DiscoveryLibrary) (id : DiscoverySessionId)
    (input : SanitizedDiscoveryInput) : DiscoveryCheck ProviderDiscoverySession := do
  input.validate lib
  pure
    { id, input
      state := .draft
      revision := 0
      nextEventSequence := 1
      recovery := none
      unknownOperation := none
      manifestSha256 := none
      commitPlanSha256 := none
      commitAttemptId := none
      committedConnectionId := none
      cancellationPending := false
      activeEffectApproval := none
      failure := none }

/-- The effects that are billed. -/
def DiscoveryOperationKind.isBillable : DiscoveryOperationKind → Bool
  | .buildAssistantManifestDraft => true
  | .probeCapabilities => true
  | _ => false

/-- `approval_required` of the validator. -/
def ProviderDiscoverySession.approvalRequired (session : ProviderDiscoverySession) : Bool :=
  match session.state with
  | .buildingAssistantManifestDraft => true
  | .probingCapabilities => true
  | .interrupted => session.recovery.any (·.operation.isBillable)
  | _ => false

/-- `approval_allowed` of the validator. -/
def ProviderDiscoverySession.approvalAllowed (session : ProviderDiscoverySession) : Bool :=
  session.approvalRequired ||
    (session.state = .unknownOutcome && session.unknownOperation.any (·.isBillable))

/-- The failure of a session. -/
def validateSessionFailure (state : DiscoveryState) (failure : DiscoveryFailure) : DiscoveryCheck Unit := do
  failure.validate
  rejectIf (state ≠ .compensating ∧ state ≠ .failed ∧ state ≠ .cancelled)
    ⟨"failure", "is only valid for compensating, failed, or cancelled sessions"⟩

/-- The recovery checkpoint of a session. -/
def validateRecovery (state : DiscoveryState) (recovery : Option DiscoveryRecoveryCheckpoint) :
    DiscoveryCheck Unit :=
  if state = .interrupted then do
    let checkpoint ← okOr recovery ⟨"recovery", "interrupted sessions require a recovery checkpoint"⟩
    rejectIf (checkpoint.interruptedState.operation ≠ some checkpoint.operation)
      ⟨"recovery.operation", "must match the interrupted state"⟩
  else rejectIf (recovery ≠ none) ⟨"recovery", "is only valid while interrupted"⟩

/-- The unknown operation of a session. -/
def validateUnknownOperation (state : DiscoveryState) (operation : Option DiscoveryOperationKind) :
    DiscoveryCheck Unit :=
  if state = .unknownOutcome then
    rejectIf (operation = none)
      ⟨"unknown_operation", "unknown outcomes must identify the interrupted operation"⟩
  else rejectIf (operation ≠ none) ⟨"unknown_operation", "is only valid for unknown outcomes"⟩

def ProviderDiscoverySession.validate (lib : DiscoveryLibrary) (session : ProviderDiscoverySession) :
    DiscoveryCheck Unit := do
  session.input.validate lib
  rejectIf (session.nextEventSequence = 0) ⟨"next_event_sequence", "must be positive"⟩
  forSome session.commitPlanSha256 (validateSha256 "commit_plan_sha256")
  forSome session.manifestSha256 (validateSha256 "manifest_sha256")
  forSome session.activeEffectApproval DiscoveryApprovalBinding.validate
  forSome session.failure (validateSessionFailure session.state)
  validateRecovery session.state session.recovery
  validateUnknownOperation session.state session.unknownOperation
  rejectIf ((session.approvalRequired = true ∧ session.activeEffectApproval = none) ∨
      (session.approvalAllowed = false ∧ session.activeEffectApproval ≠ none))
    ⟨"active_effect_approval", "must exist exactly while an approved billable effect is active or recoverable"⟩
  rejectIf ((session.state = .committing ∨ session.state = .compensating) ∧
      (session.commitPlanSha256 = none ∨ session.commitAttemptId = none))
    ⟨"commit", "commit and compensation states require a plan and attempt"⟩
  rejectIf (session.state = .ready ∧ session.committedConnectionId = none)
    ⟨"committed_connection_id", "ready sessions must identify the committed connection"⟩

/-! ## Actions and effects -/

inductive DiscoveryFreshEvidenceSource
  | documentUrl (origin : CanonicalOrigin)
  | sanitizedCurl (origin : CanonicalOrigin)

def DiscoveryFreshEvidenceSource.origin : DiscoveryFreshEvidenceSource → CanonicalOrigin
  | .documentUrl origin => origin
  | .sanitizedCurl origin => origin

inductive DiscoveryAssistantCheckpoint
  | ready
  | awaitingAssistant
  | awaitingToolResult
  | awaitingMoreEvidence
  | awaitingRetryConsent
  | draftReady

inductive DiscoveryEvidenceResolution
  | deterministicDraftAvailable
  | assistantRecommended
  | moreEvidenceRequired

inductive DiscoveryUnknownOutcomeResolution
  | confirmedNoEffect
  | confirmedCommitCompleted (connectionId : ProviderConnectionId)
  | confirmedCompensated
  | manuallyReconciledAsFailed

inductive ProviderDiscoveryAction
  | begin
  | knownProviderCandidatesResolved (candidateCount : Nat)
  | selectTemplate (candidateId : DiscoveryCandidateId)
  | continueWithoutTemplate
  | documentsFetched (evidenceCount : Nat)
  | evidenceExtracted (resolution : DiscoveryEvidenceResolution)
  | supplyMoreEvidence (evidenceIds : List EvidenceId)
  | supplyFreshEvidence (evidenceIds : List EvidenceId) (source : DiscoveryFreshEvidenceSource)
  | requestAssistant
  | approveAssistant (approvalId : DiscoveryApprovalId) (approvalGrantSha256 : String)
  | declineAssistant
  | assistantCheckpointed (checkpoint : DiscoveryAssistantCheckpoint)
  | assistantRequestedMoreEvidence (questionCount : Nat)
  | assistantResumedWithEvidence (approvalId : DiscoveryApprovalId) (approvalGrantSha256 : String)
  | manifestDraftBuilt (manifestSha256 : String)
  | manifestValidated (manifestSha256 : String) (credentialOriginApprovalRequired : Bool)
  | approveCredentialOrigin (approvalId : DiscoveryApprovalId)
  | modelsListed (modelCount probeCandidateCount : Nat)
  | approveProbes (approvalId : DiscoveryApprovalId) (approvalGrantSha256 : String)
  | skipProbes
  | probesCompleted
  | approveReview (approvalId : DiscoveryApprovalId) (commitAttemptId : DiscoveryCommitAttemptId)
    (commitPlanSha256 graphSha256 : String)
  | commitSucceeded (connectionId : ProviderConnectionId)
  | commitFailedBeforeApply (failure : DiscoveryFailure)
  | compensationRequired
  | compensationSucceeded
  | compensationFailed (failure : DiscoveryFailure)
  | resumeCompensation
  | externalOutcomeBecameUnknown
  | interrupt (operation : DiscoveryOperationKind) (outcome : DiscoveryInterruptionOutcome)
  | restartInterrupted
  | resolveUnknownOutcome (approvalId : DiscoveryApprovalId) (resolution : DiscoveryUnknownOutcomeResolution)
  | fail (failure : DiscoveryFailure)
  | cancel

def ProviderDiscoveryAction.kind : ProviderDiscoveryAction → String
  | .begin => "begin"
  | .knownProviderCandidatesResolved _ => "known_provider_candidates_resolved"
  | .selectTemplate _ => "select_template"
  | .continueWithoutTemplate => "continue_without_template"
  | .documentsFetched _ => "documents_fetched"
  | .evidenceExtracted _ => "evidence_extracted"
  | .supplyMoreEvidence _ => "supply_more_evidence"
  | .supplyFreshEvidence _ _ => "supply_fresh_evidence"
  | .requestAssistant => "request_assistant"
  | .approveAssistant _ _ => "approve_assistant"
  | .declineAssistant => "decline_assistant"
  | .assistantCheckpointed _ => "assistant_checkpointed"
  | .assistantRequestedMoreEvidence _ => "assistant_requested_more_evidence"
  | .assistantResumedWithEvidence _ _ => "assistant_resumed_with_evidence"
  | .manifestDraftBuilt _ => "manifest_draft_built"
  | .manifestValidated _ _ => "manifest_validated"
  | .approveCredentialOrigin _ => "approve_credential_origin"
  | .modelsListed _ _ => "models_listed"
  | .approveProbes _ _ => "approve_probes"
  | .skipProbes => "skip_probes"
  | .probesCompleted => "probes_completed"
  | .approveReview _ _ _ _ => "approve_review"
  | .commitSucceeded _ => "commit_succeeded"
  | .commitFailedBeforeApply _ => "commit_failed_before_apply"
  | .compensationRequired => "compensation_required"
  | .compensationSucceeded => "compensation_succeeded"
  | .compensationFailed _ => "compensation_failed"
  | .resumeCompensation => "resume_compensation"
  | .externalOutcomeBecameUnknown => "external_outcome_became_unknown"
  | .interrupt _ _ => "interrupt"
  | .restartInterrupted => "restart_interrupted"
  | .resolveUnknownOutcome _ _ => "resolve_unknown_outcome"
  | .fail _ => "fail"
  | .cancel => "cancel"

structure DiscoveryActionEnvelope where
  id : DiscoveryActionId
  expectedRevision : Nat
  requestSha256 : String
  action : ProviderDiscoveryAction

def DiscoveryActionEnvelope.validate (envelope : DiscoveryActionEnvelope) : DiscoveryCheck Unit := do
  validateSha256 "request_sha256" envelope.requestSha256
  match envelope.action with
  | .approveAssistant _ grant => validateSha256 "approval_grant_sha256" grant
  | .approveProbes _ grant => validateSha256 "approval_grant_sha256" grant
  | _ => .ok ()

inductive DiscoveryEffect
  | none
  | resolveKnownProvider
  | fetchDocuments
  | extractEvidence
  | buildDeterministicManifestDraft
  | buildAssistantManifestDraft (approval : DiscoveryApprovalBinding)
  | validateManifest
  | listModels
  | probeCapabilities (approval : DiscoveryApprovalBinding)
  | requestCancellation (operation : DiscoveryOperationKind)
  | commitAtomically (commitAttemptId : DiscoveryCommitAttemptId) (planSha256 : String)
  | runCompensation (commitAttemptId : DiscoveryCommitAttemptId)
deriving DecidableEq

inductive DiscoveryWarning
  | assistantDeclined
  | probesSkipped
  | compensationRequired
  | explicitRestartRequired
  | unknownExternalOutcome
deriving DecidableEq

inductive DiscoveryTransitionError
  | revisionConflict (expected actual : Nat)
  | invalidTransition (state : DiscoveryState) (action : String)
  | unknownOutcomeRequiresReconciliation
  | revisionExhausted
  | sequenceExhausted
  | invalidSession (error : DiscoveryContractError)
  | invalidAction (error : DiscoveryContractError)
deriving DecidableEq

end LorePia.Discovery
