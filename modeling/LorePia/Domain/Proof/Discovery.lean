import LorePia.Base.Execution
import LorePia.Domain.DiscoveryApply

/-!
# What an accepted discovery action does

`Valid` is what the validator of a session checks. `Held` names the operation that a session runs, is
interrupted in or does not know the outcome of. `Accepted` says once, for every action, what the successor
of a valid session is and which effect comes with it (`successor_accepted`).
-/

namespace LorePia.Discovery

open Base

variable {lib : DiscoveryLibrary} {s next : ProviderDiscoverySession} {action : ProviderDiscoveryAction}
  {effect : DiscoveryEffect} {built : DiscoverySuccessor}

/-! ## States and operations -/

/-- The operations of the commit saga. -/
def DiscoveryOperationKind.isSaga : DiscoveryOperationKind → Bool
  | .atomicCommit => true
  | .compensation => true
  | _ => false

theorem isSaga_iff {operation : DiscoveryOperationKind} :
    operation.isSaga = true ↔ operation = .atomicCommit ∨ operation = .compensation := by
  cases operation <;> simp [DiscoveryOperationKind.isSaga]

theorem isBillable_of_isSaga {operation : DiscoveryOperationKind} (h : operation.isSaga = true) :
    operation.isBillable = false := by
  obtain rfl | rfl := isSaga_iff.1 h
  · rfl
  · rfl

theorem operation_eq_some {state : DiscoveryState} {operation : DiscoveryOperationKind} :
    state.operation = some operation ↔ state = stateForOperation operation := by
  constructor
  · intro h
    cases state <;> cases h <;> rfl
  · rintro rfl
    cases operation <;> rfl

/-- The states before the saga in which nothing is billed. -/
def DiscoveryState.isQuiet : DiscoveryState → Bool
  | .buildingAssistantManifestDraft => false
  | .probingCapabilities => false
  | .committing => false
  | .compensating => false
  | .ready => false
  | .failed => false
  | .cancelled => false
  | .interrupted => false
  | .unknownOutcome => false
  | _ => true

/-- The effects that are neither billed nor persistent. -/
def DiscoveryEffect.isQuiet : DiscoveryEffect → Bool
  | .buildAssistantManifestDraft _ => false
  | .probeCapabilities _ => false
  | .requestCancellation _ => false
  | .commitAtomically _ _ => false
  | .runCompensation _ => false
  | _ => true

/-! ## Valid sessions -/

/-- What `ProviderDiscoverySession::validate` checks. -/
structure Valid (lib : DiscoveryLibrary) (s : ProviderDiscoverySession) : Prop where
  input : s.input.validate lib = .ok ()
  sequence : s.nextEventSequence ≠ 0
  plan : ∀ p, s.commitPlanSha256 = some p → validateSha256 "commit_plan_sha256" p = .ok ()
  manifest : ∀ m, s.manifestSha256 = some m → validateSha256 "manifest_sha256" m = .ok ()
  binding : ∀ b, s.activeEffectApproval = some b → b.validate = .ok ()
  failure : ∀ f, s.failure = some f →
    f.validate = .ok () ∧ (s.state = .compensating ∨ s.state = .failed ∨ s.state = .cancelled)
  interrupted : s.state = .interrupted → ∃ operation, s.recovery = some ⟨stateForOperation operation, operation⟩
  recovery : s.state ≠ .interrupted → s.recovery = none
  unknown : s.state = .unknownOutcome → ∃ operation, s.unknownOperation = some operation
  unknownOperation : s.state ≠ .unknownOutcome → s.unknownOperation = none
  approvalRequired : s.approvalRequired = true → s.activeEffectApproval ≠ none
  approvalAllowed : s.activeEffectApproval ≠ none → s.approvalAllowed = true
  commit : s.state = .committing ∨ s.state = .compensating → s.commitPlanSha256 ≠ none ∧ s.commitAttemptId ≠ none
  ready : s.state = .ready → s.committedConnectionId ≠ none

theorem validateSessionFailure_eq_ok {state : DiscoveryState} {failure : DiscoveryFailure} :
    validateSessionFailure state failure = .ok () ↔
      failure.validate = .ok () ∧ (state = .compensating ∨ state = .failed ∨ state = .cancelled) := by
  unfold validateSessionFailure
  rw [seq_eq_ok, rejectIf_eq_ok]
  refine and_congr_right fun _ => ?_
  rw [not_and_or, not_and_or, not_not, not_not, not_not]

theorem validateRecovery_eq_ok {state : DiscoveryState} {recovery : Option DiscoveryRecoveryCheckpoint} :
    validateRecovery state recovery = .ok () ↔
      (state = .interrupted → ∃ operation, recovery = some ⟨stateForOperation operation, operation⟩) ∧
        (state ≠ .interrupted → recovery = none) := by
  unfold validateRecovery
  by_cases hstate : state = .interrupted
  · rw [if_pos hstate, bind_eq_ok]
    simp only [okOr_eq_ok, rejectIf_eq_ok, not_not, operation_eq_some, hstate, ne_eq, not_true_eq_false,
      false_implies, true_implies, and_true]
    constructor
    · rintro ⟨⟨running, operation⟩, rfl, hrunning⟩
      obtain rfl : running = stateForOperation operation := hrunning
      exact ⟨operation, rfl⟩
    · rintro ⟨operation, rfl⟩
      exact ⟨_, rfl, rfl⟩
  · simp [hstate]

theorem validateUnknownOperation_eq_ok {state : DiscoveryState} {operation : Option DiscoveryOperationKind} :
    validateUnknownOperation state operation = .ok () ↔
      (state = .unknownOutcome → ∃ op, operation = some op) ∧ (state ≠ .unknownOutcome → operation = none) := by
  unfold validateUnknownOperation
  by_cases hstate : state = .unknownOutcome
  · simp [hstate, ← Option.ne_none_iff_exists']
  · simp [hstate]

theorem validate_eq_ok : s.validate lib = .ok () ↔ Valid lib s := by
  unfold ProviderDiscoverySession.validate
  simp only [seq_eq_ok, rejectIf_eq_ok, forSome_eq_ok, validateSessionFailure_eq_ok, validateRecovery_eq_ok,
    validateUnknownOperation_eq_ok, not_or, not_and]
  constructor
  · rintro ⟨hinput, hsequence, hplan, hmanifest, hbinding, hfailure, ⟨hinterrupted, hrecovery⟩,
      ⟨hunknown, hoperation⟩, ⟨hrequired, hallowed⟩, hcommit, hready⟩
    exact ⟨hinput, hsequence, hplan, hmanifest, hbinding, hfailure, hinterrupted, hrecovery, hunknown,
      hoperation, hrequired, fun h => by simpa [h] using mt hallowed, hcommit, hready⟩
  · intro h
    exact ⟨h.input, h.sequence, h.plan, h.manifest, h.binding, h.failure, ⟨h.interrupted, h.recovery⟩,
      ⟨h.unknown, h.unknownOperation⟩,
      ⟨h.approvalRequired, fun hallowed => by simpa [hallowed] using mt h.approvalAllowed⟩, h.commit, h.ready⟩

/-! ## Accepted actions -/

/-- The billable operation that an action approves, with its binding. -/
def ProviderDiscoveryAction.approves : ProviderDiscoveryAction → Option (DiscoveryOperationKind × DiscoveryApprovalBinding)
  | .approveAssistant approvalId grant => some (.buildAssistantManifestDraft, ⟨approvalId, grant⟩)
  | .assistantResumedWithEvidence approvalId grant => some (.buildAssistantManifestDraft, ⟨approvalId, grant⟩)
  | .approveProbes approvalId grant => some (.probeCapabilities, ⟨approvalId, grant⟩)
  | _ => none

/-- The attempt and the plan of an approved review. -/
def ProviderDiscoveryAction.reviews : ProviderDiscoveryAction → Option (DiscoveryCommitAttemptId × String)
  | .approveReview _ attempt plan _ => some (attempt, plan)
  | _ => none

/-- The effect of a billable operation. -/
def billableEffect (approval : DiscoveryApprovalBinding) : DiscoveryOperationKind → DiscoveryEffect
  | .probeCapabilities => .probeCapabilities approval
  | _ => .buildAssistantManifestDraft approval

/-- An action that neither approves nor cancels. -/
def ProviderDiscoveryAction.Plain (action : ProviderDiscoveryAction) : Prop :=
  action.approves = none ∧ action.reviews = none ∧ action ≠ .cancel

/-- The action states that an operation had no external effect. -/
def StatesNoEffect (s : ProviderDiscoverySession) (operation : DiscoveryOperationKind) :
    ProviderDiscoveryAction → Prop
  | .interrupt stated outcome => stated = operation ∧ outcome = .confirmedNoExternalEffect ∧
      s.state.operation = some operation ∧ (s.state = .compensating → s.failure = none)
  | .resolveUnknownOutcome _ resolution => resolution = .confirmedNoEffect ∧ s.state = .unknownOutcome ∧
      s.unknownOperation = some operation
  | _ => False

/-- The commit runs, or its outcome is unknown. -/
def CommitOpen (s : ProviderDiscoverySession) : Prop :=
  s.state = .committing ∨ s.state = .unknownOutcome ∧ s.unknownOperation = some .atomicCommit

/-- The action states how the operation of the session ended. -/
def StatesOutcome (s : ProviderDiscoverySession) : ProviderDiscoveryAction → Prop
  | .commitSucceeded _ => s.state = .committing
  | .commitFailedBeforeApply _ => s.state = .committing
  | .compensationSucceeded => s.state = .compensating ∧ s.failure = none
  | .resolveUnknownOutcome _ resolution => s.state = .unknownOutcome ∧ resolution ≠ .confirmedNoEffect
  | _ => False

/-- The checkpoint of an interrupted operation; a cancelled saga goes on with the compensation. -/
def checkpointFor (cancelled : Bool) (operation : DiscoveryOperationKind) : DiscoveryRecoveryCheckpoint :=
  if cancelled then ⟨.compensating, .compensation⟩ else ⟨stateForOperation operation, operation⟩

/-- No cancellation is pending for the operation that runs. -/
def Unstopped (s : ProviderDiscoverySession) : Prop :=
  s.state.operation ≠ none → s.cancellationPending = false

/-- The successors of a session by an action, with their effects. -/
inductive Accepted (s : ProviderDiscoverySession) :
    ProviderDiscoveryAction → ProviderDiscoverySession → DiscoveryEffect → Prop
  | prepared {action : ProviderDiscoveryAction} {state : DiscoveryState} {manifest : Option String}
      {effect : DiscoveryEffect} :
    (s.state.isQuiet = true ∨ s.state = .buildingAssistantManifestDraft ∨ s.state = .probingCapabilities) →
    Unstopped s → state.isQuiet = true → effect.isQuiet = true → action.Plain →
    (∀ m, manifest = some m → validateSha256 "manifest_sha256" m = .ok ()) →
    Accepted s action
      { s with state, manifestSha256 := manifest, activeEffectApproval := none } effect
  | checkpointed (checkpoint : DiscoveryAssistantCheckpoint) :
    s.state = .buildingAssistantManifestDraft → Unstopped s →
    Accepted s (.assistantCheckpointed checkpoint) s .none
  | approved {action : ProviderDiscoveryAction} {operation : DiscoveryOperationKind}
      {approval : DiscoveryApprovalBinding} :
    s.state.isQuiet = true → Unstopped s → action.approves = some (operation, approval) →
    approval.validate = .ok () →
    Accepted s action
      { s with activeEffectApproval := some approval, state := stateForOperation operation }
      (billableEffect approval operation)
  | reviewed {action : ProviderDiscoveryAction} {attempt : DiscoveryCommitAttemptId} {plan : String} :
    s.state = .awaitingReview → action.reviews = some (attempt, plan) →
    validateSha256 "commit_plan_sha256" plan = .ok () →
    Accepted s action
      { s with commitPlanSha256 := some plan, commitAttemptId := some attempt, state := .committing }
      (.commitAtomically attempt plan)
  | committed {action : ProviderDiscoveryAction} (connectionId : ProviderConnectionId) :
    CommitOpen s → s.cancellationPending = false → StatesOutcome s action →
    Accepted s action
      { s with
        state := .ready
        committedConnectionId := some connectionId
        cancellationPending := false
        unknownOperation := none } .none
  | compensated {action : ProviderDiscoveryAction} {attempt : DiscoveryCommitAttemptId} :
    CommitOpen s → action.Plain → s.commitAttemptId = some attempt →
    Accepted s action { s with state := .compensating, unknownOperation := none } (.runCompensation attempt)
  | ended {action : ProviderDiscoveryAction} {failure : Option DiscoveryFailure} :
    StatesOutcome s action → (∀ f, failure = some f → f.validate = .ok ()) →
    Accepted s action
      { s with
        state := if s.cancellationPending then .cancelled else .failed
        cancellationPending := false
        activeEffectApproval := none
        unknownOperation := none
        failure } .none
  | compensationFailed {failure : DiscoveryFailure} :
    s.state = .compensating → s.failure = none → failure.validate = .ok () →
    Accepted s (.compensationFailed failure) { s with failure := some failure } .none
  | resumed {attempt : DiscoveryCommitAttemptId} :
    s.state = .compensating → s.failure ≠ none → s.commitAttemptId = some attempt →
    Accepted s .resumeCompensation { s with failure := none } (.runCompensation attempt)
  | lost {action : ProviderDiscoveryAction} {operation : DiscoveryOperationKind} :
    s.state.operation = some operation → (s.state = .compensating → s.failure = none) → action.Plain →
    Accepted s action
      { s with state := .unknownOutcome, unknownOperation := some operation, recovery := none } .none
  | interrupted {action : ProviderDiscoveryAction} {operation : DiscoveryOperationKind} {cancelled : Bool} :
    s.cancellationPending = cancelled → StatesNoEffect s operation action →
    (cancelled = true → operation.isSaga = true) →
    Accepted s action
      { s with
        state := .interrupted
        recovery := some (checkpointFor cancelled operation)
        unknownOperation := none } .none
  | dropped {action : ProviderDiscoveryAction} {operation : DiscoveryOperationKind} :
    s.cancellationPending = true → s.state.operation = some operation → operation.isSaga = false →
    action ≠ .cancel → action.reviews = none →
    Accepted s action
      { s with
        state := .cancelled
        cancellationPending := false
        recovery := none
        unknownOperation := none
        activeEffectApproval := none } .none
  | reconciled {action : ProviderDiscoveryAction} {operation : DiscoveryOperationKind} :
    s.cancellationPending = true → StatesNoEffect s operation action → s.state = .unknownOutcome →
    operation.isSaga = false →
    Accepted s action
      { s with
        state := .cancelled, cancellationPending := false, recovery := none, unknownOperation := none } .none
  | restarted {checkpoint : DiscoveryRecoveryCheckpoint} {effect : DiscoveryEffect} :
    s.state = .interrupted → s.recovery = some checkpoint →
    effectForOperation s checkpoint.operation = .ok effect →
    Accepted s .restartInterrupted
      { s with state := checkpoint.interruptedState, recovery := none, unknownOperation := none } effect
  | cancelling {operation : DiscoveryOperationKind} {effect : DiscoveryEffect} :
    s.state.operation = some operation →
    (effect = .none ∨ effect = .requestCancellation operation ∧ s.cancellationPending = false) →
    Accepted s .cancel { s with cancellationPending := true } effect
  | cancelled :
    s.state.operation = none → s.state.isTerminal = false → s.state ≠ .unknownOutcome →
    Accepted s .cancel
      { s with state := .cancelled, recovery := none, unknownOperation := none, activeEffectApproval := none }
      .none
  | failed {failure : DiscoveryFailure} :
    s.state.isTerminal = false → s.state ≠ .committing → s.state ≠ .compensating → s.state ≠ .unknownOutcome →
    failure.validate = .ok () →
    Accepted s (.fail failure)
      { s with
        state := if s.cancellationPending then .cancelled else .failed
        failure := some failure
        cancellationPending := false
        recovery := none
        unknownOperation := none
        activeEffectApproval := none } .none

/-! ## The arms -/

theorem legalIn_eq_ok {states : List DiscoveryState} {arm : DiscoveryApply DiscoverySuccessor} :
    legalIn states s action arm = .ok built ↔ s.state ∈ states ∧ arm = .ok built := by
  unfold legalIn
  by_cases hs : s.state ∈ states
  · rw [if_pos hs]
    exact ⟨fun h => ⟨hs, h⟩, fun h => h.2⟩
  · rw [if_neg hs]
    exact ⟨nofun, fun h => absurd h.1 hs⟩

@[simp] theorem checkAction_eq_ok {check : DiscoveryCheck Unit} {u : Unit} :
    checkAction check = .ok u ↔ check = .ok () := mapErr_eq_ok

theorem Valid.approval_none (hv : Valid lib s) (h : s.approvalAllowed = false) :
    s.activeEffectApproval = none := by
  by_contra hne
  rw [hv.approvalAllowed hne] at h
  cases h

theorem Valid.quiet_approval (hv : Valid lib s) (h : s.state.isQuiet = true) : s.activeEffectApproval = none := by
  refine hv.approval_none ?_
  unfold ProviderDiscoverySession.approvalAllowed ProviderDiscoverySession.approvalRequired
  cases hs : s.state <;> rw [hs] at h <;> first | rfl | cases h

/-- A pending cancellation lets no operation go on but those of the saga. -/
def Unhindered (s : ProviderDiscoverySession) : Prop :=
  s.cancellationPending = true → s.state.operation ≠ none → s.state = .committing ∨ s.state = .compensating

theorem Unhindered.unstopped (h : Unhindered s) (hcommitting : s.state ≠ .committing)
    (hcompensating : s.state ≠ .compensating) : Unstopped s := by
  intro hoperation
  refine Bool.eq_false_iff.2 fun hpending => ?_
  obtain hs | hs := h hpending hoperation
  · exact hcommitting hs
  · exact hcompensating hs

theorem Unhindered.quiet (h : Unhindered s) (hs : s.state.isQuiet = true) : Unstopped s := by
  refine h.unstopped ?_ ?_ <;> intro heq <;> rw [heq] at hs <;> cases hs

/-- A quiet move from a quiet state. -/
theorem Valid.moved {state : DiscoveryState} (hv : Valid lib s) (hs : s.state.isQuiet = true)
    (hfree : Unstopped s) (hstate : state.isQuiet = true) (heffect : effect.isQuiet = true) (hplain : action.Plain) :
    Accepted s action { s with state } effect := by
  have hmove := Accepted.prepared (.inl hs) hfree hstate heffect hplain hv.manifest
  rw [← hv.quiet_approval hs] at hmove
  exact hmove

theorem Valid.legal_move {source state : DiscoveryState} {warning : Option DiscoveryWarning} (hv : Valid lib s)
    (hrun : Unhindered s) (h : legalIn [source] s action (.ok { next := { s with state }, effect, warning }) = .ok built)
    (hsource : source.isQuiet = true) (hstate : state.isQuiet = true) (heffect : effect.isQuiet = true)
    (hplain : action.Plain) : Accepted s action built.next built.effect := by
  obtain ⟨hs, hbuilt⟩ := legalIn_eq_ok.1 h
  cases hbuilt
  rw [List.mem_singleton] at hs
  have hquiet : s.state.isQuiet = true := by rw [hs]; exact hsource
  exact hv.moved hquiet (hrun.quiet hquiet) hstate heffect hplain

/-- An approval of a billable operation. -/
theorem legal_approval {source : DiscoveryState} (operation : DiscoveryOperationKind)
    (approval : DiscoveryApprovalBinding) (hrun : Unhindered s) (hs : s.state = source)
    (hsource : source.isQuiet = true) (happroves : action.approves = some (operation, approval)) (hvalid : approval.validate = .ok ()) :
    Accepted s action (approveEffect s approval (stateForOperation operation)
      (billableEffect · operation)).next (billableEffect approval operation) := by
  have hquiet : s.state.isQuiet = true := by rw [hs]; exact hsource
  exact .approved hquiet (hrun.quiet hquiet) happroves hvalid

theorem Valid.unknown_none (hv : Valid lib s) (h : s.state ≠ .unknownOutcome) :
    { s with unknownOperation := none } = s := by
  have hnone := hv.unknownOperation h
  cases s
  cases hnone
  rfl

theorem validateSha256_field {field field' value : String} (h : validateSha256 field value = .ok ()) :
    validateSha256 field' value = .ok () := by
  unfold validateSha256 at h ⊢
  rw [rejectIf_eq_ok] at h ⊢
  exact h

theorem manifestValidated_accepted {manifest : String} {required : Bool} (hv : Valid lib s)
    (hrun : Unhindered s) (hs : s.state = .validatingManifest) (h : manifestValidated s manifest required = .ok built)
    (hplain : action.Plain) : Accepted s action built.next built.effect := by
  unfold manifestValidated at h
  simp only [seq_eq_ok, checkAction_eq_ok, rejectIf_eq_ok] at h
  obtain ⟨hsha, -, h⟩ := h
  have hquiet : s.state.isQuiet = true := by rw [hs]; rfl
  have hmove : ∀ state effect, state.isQuiet = true → effect.isQuiet = true →
      Accepted s action { s with manifestSha256 := some manifest, state } effect := by
    intro state effect hstate heffect
    have hmove : Accepted s action
        { s with manifestSha256 := some manifest, state, activeEffectApproval := none } effect :=
      .prepared (.inl hquiet) (hrun.quiet hquiet) hstate heffect hplain fun m hm => Option.some.inj hm ▸ hsha
    rw [← hv.quiet_approval hquiet] at hmove
    exact hmove
  cases required with
  | true =>
    cases h
    exact hmove _ _ rfl rfl
  | false =>
    cases h
    exact hmove _ _ rfl rfl

theorem commitCompleted_accepted {connectionId : ProviderConnectionId} (hopen : CommitOpen s)
    (h : commitCompleted s { s with unknownOperation := none } connectionId = .ok built)
    (houtcome : StatesOutcome s action) (hplain : action.Plain) :
    Accepted s action built.next built.effect := by
  unfold commitCompleted at h
  split at h
  · unfold startCompensation requireCommitAttempt at h
    rw [bind_eq_ok] at h
    obtain ⟨attempt, hattempt, h⟩ := h
    rw [okOr_eq_ok] at hattempt
    cases h
    exact .compensated hopen hplain hattempt
  · rename_i hpending
    cases h
    exact .committed connectionId hopen (Bool.eq_false_iff.2 hpending) houtcome

theorem resolveNoEffect_accepted (hs : s.state = .unknownOutcome)
    (hresolve : ∀ operation, s.unknownOperation = some operation → StatesNoEffect s operation action)
    (h : resolveNoEffect s = .ok built) : Accepted s action built.next built.effect := by
  unfold resolveNoEffect at h
  rw [bind_eq_ok] at h
  obtain ⟨operation, hoperation, h⟩ := h
  rw [okOr_eq_ok] at hoperation
  have hstates := hresolve operation hoperation
  split at h
  · rename_i hpending
    split at h
    · rename_i hsaga
      cases h
      exact .interrupted hpending hstates fun _ => isSaga_iff.2 hsaga
    · rename_i hsaga
      cases h
      exact .reconciled hpending hstates hs (Bool.eq_false_iff.2 (mt isSaga_iff.1 hsaga))
  · rename_i hpending
    cases h
    exact .interrupted (Bool.eq_false_iff.2 hpending) hstates nofun

theorem resolveUnknownOutcome_accepted {approvalId : DiscoveryApprovalId}
    {resolution : DiscoveryUnknownOutcomeResolution} (hv : Valid lib s) (hs : s.state = .unknownOutcome)
    (h : resolveUnknownOutcome s (.resolveUnknownOutcome approvalId resolution) resolution = .ok built) :
    Accepted s (.resolveUnknownOutcome approvalId resolution) built.next built.effect := by
  have hplain : (ProviderDiscoveryAction.resolveUnknownOutcome approvalId resolution).Plain := ⟨rfl, rfl, fun h => by cases h⟩
  have hended : resolution ≠ .confirmedNoEffect →
      Accepted s (.resolveUnknownOutcome approvalId resolution)
        (endWithoutCommit s { s with unknownOperation := none }) .none :=
    fun hne => .ended ⟨hs, hne⟩ fun f hf => (hv.failure f hf).1
  cases resolution with
  | confirmedNoEffect => exact resolveNoEffect_accepted hs (fun _ hop => ⟨rfl, hs, hop⟩) h
  | confirmedCommitCompleted connectionId =>
    unfold resolveUnknownOutcome at h
    simp only [seq_eq_ok, rejectIf_eq_ok, ne_eq, not_not] at h
    exact commitCompleted_accepted (.inr ⟨hs, h.1⟩) h.2 ⟨hs, fun h => by cases h⟩ hplain
  | confirmedCompensated =>
    unfold resolveUnknownOutcome at h
    simp only [seq_eq_ok, rejectIf_eq_ok] at h
    cases h.2
    exact hended fun h => by cases h
  | manuallyReconciledAsFailed =>
    cases h
    exact hended fun h => by cases h

theorem restartInterrupted_accepted (hs : s.state = .interrupted) (h : restartInterrupted s = .ok built) :
    Accepted s .restartInterrupted built.next built.effect := by
  unfold restartInterrupted at h
  simp only [bind_eq_ok, okOr_eq_ok] at h
  obtain ⟨checkpoint, hcheckpoint, effect, heffect, h⟩ := h
  cases h
  exact .restarted hs hcheckpoint heffect

/-- The actions that are legal in some states. -/
theorem applyStateAction_accepted (hv : Valid lib s) (hrun : Unhindered s) (h : applyStateAction lib s action = .ok built) :
    Accepted s action built.next built.effect := by
  cases action with
  | begin => exact hv.legal_move hrun h rfl rfl rfl ⟨rfl, rfl, nofun⟩
  | knownProviderCandidatesResolved candidateCount =>
    unfold applyStateAction at h
    dsimp only at h
    split at h
    · exact hv.legal_move hrun h rfl rfl rfl ⟨rfl, rfl, nofun⟩
    · exact hv.legal_move hrun h rfl rfl rfl ⟨rfl, rfl, nofun⟩
  | selectTemplate candidateId => exact hv.legal_move hrun h rfl rfl rfl ⟨rfl, rfl, nofun⟩
  | continueWithoutTemplate => exact hv.legal_move hrun h rfl rfl rfl ⟨rfl, rfl, nofun⟩
  | documentsFetched evidenceCount => exact hv.legal_move hrun h rfl rfl rfl ⟨rfl, rfl, nofun⟩
  | evidenceExtracted resolution =>
    cases resolution with
    | deterministicDraftAvailable => exact hv.legal_move hrun h rfl rfl rfl ⟨rfl, rfl, nofun⟩
    | assistantRecommended => exact hv.legal_move hrun h rfl rfl rfl ⟨rfl, rfl, nofun⟩
    | moreEvidenceRequired => exact hv.legal_move hrun h rfl rfl rfl ⟨rfl, rfl, nofun⟩
  | supplyMoreEvidence evidenceIds =>
    obtain ⟨hs, h⟩ := legalIn_eq_ok.1 h
    rw [seq_eq_ok] at h
    cases h.2
    have hquiet : s.state.isQuiet = true := by rw [List.mem_singleton.1 hs]; rfl
    exact hv.moved hquiet (hrun.quiet hquiet) rfl rfl ⟨rfl, rfl, nofun⟩
  | supplyFreshEvidence evidenceIds source =>
    obtain ⟨hs, h⟩ := legalIn_eq_ok.1 h
    rw [seq_eq_ok, bind_eq_ok] at h
    obtain ⟨-, allowed, -, h⟩ := h
    rw [seq_eq_ok] at h
    cases h.2
    have hquiet : s.state.isQuiet = true := by rw [List.mem_singleton.1 hs]; rfl
    exact hv.moved hquiet (hrun.quiet hquiet) rfl rfl ⟨rfl, rfl, nofun⟩
  | requestAssistant => exact hv.legal_move hrun h rfl rfl rfl ⟨rfl, rfl, nofun⟩
  | approveAssistant approvalId grant =>
    obtain ⟨hs, h⟩ := legalIn_eq_ok.1 h
    rw [seq_eq_ok, checkAction_eq_ok] at h
    cases h.2
    exact legal_approval .buildAssistantManifestDraft ⟨approvalId, grant⟩ hrun (List.mem_singleton.1 hs) rfl rfl
      (validateSha256_field h.1)
  | declineAssistant => exact hv.legal_move hrun h rfl rfl rfl ⟨rfl, rfl, nofun⟩
  | assistantCheckpointed checkpoint =>
    obtain ⟨hs, h⟩ := legalIn_eq_ok.1 h
    cases h
    rw [List.mem_singleton] at hs
    exact .checkpointed checkpoint hs (hrun.unstopped (by rw [hs]; nofun) (by rw [hs]; nofun))
  | assistantRequestedMoreEvidence questionCount =>
    obtain ⟨hs, h⟩ := legalIn_eq_ok.1 h
    rw [seq_eq_ok] at h
    cases h.2
    rw [List.mem_singleton] at hs
    exact .prepared (.inr (.inl hs)) (hrun.unstopped (by rw [hs]; nofun) (by rw [hs]; nofun)) rfl rfl
      ⟨rfl, rfl, nofun⟩ hv.manifest
  | assistantResumedWithEvidence approvalId grant =>
    obtain ⟨hs, h⟩ := legalIn_eq_ok.1 h
    simp only [seq_eq_ok, checkAction_eq_ok] at h
    obtain ⟨-, hvalid, h⟩ := h
    cases h
    exact legal_approval .buildAssistantManifestDraft ⟨approvalId, grant⟩ hrun (List.mem_singleton.1 hs) rfl rfl hvalid
  | manifestDraftBuilt manifest =>
    obtain ⟨hs, h⟩ := legalIn_eq_ok.1 h
    rw [seq_eq_ok, checkAction_eq_ok] at h
    obtain ⟨hsha, h⟩ := h
    cases h
    have hmanifest : ∀ m, some manifest = some m → validateSha256 "manifest_sha256" m = .ok () :=
      fun m hm => Option.some.inj hm ▸ hsha
    obtain hs | hs : s.state = .buildingDeterministicManifestDraft ∨ s.state = .buildingAssistantManifestDraft := by
      simpa using hs
    · have hquiet : s.state.isQuiet = true := by rw [hs]; rfl
      exact .prepared (.inl hquiet) (hrun.quiet hquiet) rfl rfl ⟨rfl, rfl, nofun⟩ hmanifest
    · exact .prepared (.inr (.inl hs)) (hrun.unstopped (by rw [hs]; nofun) (by rw [hs]; nofun)) rfl rfl
        ⟨rfl, rfl, nofun⟩ hmanifest
  | manifestValidated manifest required =>
    obtain ⟨hs, h⟩ := legalIn_eq_ok.1 h
    exact manifestValidated_accepted hv hrun (List.mem_singleton.1 hs) h ⟨rfl, rfl, nofun⟩
  | approveCredentialOrigin approvalId => exact hv.legal_move hrun h rfl rfl rfl ⟨rfl, rfl, nofun⟩
  | modelsListed modelCount probeCandidateCount =>
    unfold applyStateAction at h
    dsimp only at h
    split at h
    · exact hv.legal_move hrun h rfl rfl rfl ⟨rfl, rfl, nofun⟩
    · exact hv.legal_move hrun h rfl rfl rfl ⟨rfl, rfl, nofun⟩
  | approveProbes approvalId grant =>
    obtain ⟨hs, h⟩ := legalIn_eq_ok.1 h
    rw [seq_eq_ok, checkAction_eq_ok] at h
    cases h.2
    exact legal_approval .probeCapabilities ⟨approvalId, grant⟩ hrun (List.mem_singleton.1 hs) rfl rfl
      (validateSha256_field h.1)
  | skipProbes => exact hv.legal_move hrun h rfl rfl rfl ⟨rfl, rfl, nofun⟩
  | probesCompleted =>
    obtain ⟨hs, h⟩ := legalIn_eq_ok.1 h
    cases h
    rw [List.mem_singleton] at hs
    exact .prepared (.inr (.inr hs)) (hrun.unstopped (by rw [hs]; nofun) (by rw [hs]; nofun)) rfl rfl
      ⟨rfl, rfl, nofun⟩ hv.manifest
  | approveReview approvalId attempt plan graph =>
    obtain ⟨hs, h⟩ := legalIn_eq_ok.1 h
    rw [seq_eq_ok, checkAction_eq_ok] at h
    cases h.2
    exact .reviewed (List.mem_singleton.1 hs) rfl h.1
  | commitSucceeded connectionId =>
    obtain ⟨hs, h⟩ := legalIn_eq_ok.1 h
    rw [List.mem_singleton] at hs
    rw [← hv.unknown_none (by rw [hs]; nofun)] at h
    exact commitCompleted_accepted (.inl hs) h hs ⟨rfl, rfl, nofun⟩
  | commitFailedBeforeApply failure =>
    obtain ⟨hs, h⟩ := legalIn_eq_ok.1 h
    rw [List.mem_singleton] at hs
    rw [seq_eq_ok, checkAction_eq_ok] at h
    cases h.2
    rw [← hv.unknown_none (s := s) (by rw [hs]; nofun)]
    exact .ended hs fun f hf => Option.some.inj hf ▸ h.1
  | compensationRequired =>
    obtain ⟨hs, h⟩ := legalIn_eq_ok.1 h
    rw [List.mem_singleton] at hs
    unfold startCompensation requireCommitAttempt at h
    rw [bind_eq_ok] at h
    obtain ⟨attempt, hattempt, h⟩ := h
    rw [okOr_eq_ok] at hattempt
    cases h
    rw [← hv.unknown_none (s := s) (by rw [hs]; nofun)]
    exact .compensated (.inl hs) ⟨rfl, rfl, nofun⟩ hattempt
  | compensationSucceeded =>
    obtain ⟨hs, h⟩ := legalIn_eq_ok.1 h
    rw [List.mem_singleton] at hs
    rw [seq_eq_ok, rejectIf_eq_ok, not_not] at h
    cases h.2
    rw [← hv.unknown_none (s := s) (by rw [hs]; nofun)]
    exact .ended ⟨hs, h.1⟩ fun f hf => (hv.failure f hf).1
  | compensationFailed failure =>
    obtain ⟨hs, h⟩ := legalIn_eq_ok.1 h
    rw [seq_eq_ok, seq_eq_ok, rejectIf_eq_ok, not_not, checkAction_eq_ok] at h
    obtain ⟨hnone, hfailure, h⟩ := h
    cases h
    exact .compensationFailed (List.mem_singleton.1 hs) hnone hfailure
  | resumeCompensation =>
    obtain ⟨hs, h⟩ := legalIn_eq_ok.1 h
    rw [seq_eq_ok, rejectIf_eq_ok, bind_eq_ok] at h
    obtain ⟨hfailure, attempt, hattempt, h⟩ := h
    unfold requireCommitAttempt at hattempt
    rw [okOr_eq_ok] at hattempt
    cases h
    exact .resumed (List.mem_singleton.1 hs) hfailure hattempt
  | externalOutcomeBecameUnknown =>
    obtain ⟨hs, h⟩ := legalIn_eq_ok.1 h
    rw [seq_eq_ok, rejectIf_eq_ok, bind_eq_ok] at h
    obtain ⟨hfailure, operation, hoperation, h⟩ := h
    rw [okOr_eq_ok] at hoperation
    cases h
    exact .lost hoperation (fun hs => by_contra fun hne => hfailure ⟨hs, hne⟩) ⟨rfl, rfl, nofun⟩
  | interrupt operation outcome => cases h
  | restartInterrupted =>
    obtain ⟨hs, h⟩ := legalIn_eq_ok.1 h
    exact restartInterrupted_accepted (List.mem_singleton.1 hs) h
  | resolveUnknownOutcome approvalId resolution =>
    obtain ⟨hs, h⟩ := legalIn_eq_ok.1 h
    exact resolveUnknownOutcome_accepted hv (List.mem_singleton.1 hs) h
  | fail failure => cases h
  | cancel => cases h

theorem cancelSession_accepted (h : cancelSession s = .ok built) : Accepted s .cancel built.next built.effect := by
  unfold cancelSession at h
  split at h
  · cases h
  · rename_i hterminal
    split at h
    · cases h
    · rename_i hs
      cases h
      exact .cancelling (by rw [hs]; rfl) (.inl rfl)
    · rename_i state hunknown hcompensating
      split at h
      · rename_i operation hoperation
        split at h
        · rename_i hpending
          cases h
          have hstep : Accepted s .cancel { s with cancellationPending := true } .none :=
            .cancelling hoperation (.inl rfl)
          rw [← hpending] at hstep
          exact hstep
        · rename_i hpending
          cases h
          exact .cancelling hoperation (.inr ⟨rfl, Bool.eq_false_iff.2 hpending⟩)
      · rename_i hoperation
        cases h
        exact .cancelled hoperation (Bool.eq_false_iff.2 hterminal) hunknown

theorem interruptSession_accepted {operation : DiscoveryOperationKind} {outcome : DiscoveryInterruptionOutcome}
    (h : interruptSession s operation outcome = .ok built) :
    Accepted s (.interrupt operation outcome) built.next built.effect := by
  unfold interruptSession at h
  rw [seq_eq_ok, rejectIf_eq_ok, not_or, not_not] at h
  obtain ⟨⟨hoperation, hfailure⟩, h⟩ := h
  have hnone : s.state = .compensating → s.failure = none := fun hs => by_contra fun hne => hfailure ⟨hs, hne⟩
  cases outcome with
  | confirmedNoExternalEffect =>
    have hstates : StatesNoEffect s operation (.interrupt operation .confirmedNoExternalEffect) :=
      ⟨rfl, rfl, hoperation, hnone⟩
    dsimp only at h
    split at h
    · rename_i hpending
      split at h
      · rename_i hsaga
        cases h
        exact .interrupted hpending hstates fun _ => isSaga_iff.2 hsaga
      · rename_i hsaga
        cases h
        exact .dropped hpending hoperation (Bool.eq_false_iff.2 (mt isSaga_iff.1 hsaga)) nofun rfl
    · rename_i hpending
      cases h
      rw [operation_eq_some.1 hoperation]
      exact .interrupted (Bool.eq_false_iff.2 hpending) hstates nofun
  | externalOutcomeUnknown =>
    cases h
    exact .lost hoperation hnone ⟨rfl, rfl, nofun⟩

theorem failSession_accepted {failure : DiscoveryFailure} (h : failSession s failure = .ok built) :
    Accepted s (.fail failure) built.next built.effect := by
  unfold failSession at h
  rw [seq_eq_ok, seq_eq_ok, rejectIf_eq_ok, checkAction_eq_ok] at h
  obtain ⟨hstates, hfailure, h⟩ := h
  cases h
  rw [not_or, not_or, not_or, Bool.not_eq_true] at hstates
  obtain ⟨hterminal, hcommitting, hcompensating, hunknown⟩ := hstates
  exact .failed hterminal hcommitting hcompensating hunknown hfailure

theorem completeOrApply_accepted (hv : Valid lib s) (hcancel : action ≠ .cancel)
    (h : completeOrApply lib s action = .ok built) : Accepted s action built.next built.effect := by
  unfold completeOrApply at h
  split at h
  · rename_i hdiscard
    obtain ⟨hpending, hoperation, hcommitting, hcompensating⟩ := hdiscard
    rw [seq_eq_ok, rejectIf_eq_ok] at h
    obtain ⟨hcompletion, h⟩ := h
    obtain ⟨operation, hoperation⟩ := Option.ne_none_iff_exists'.1 hoperation
    have hsaga : operation.isSaga = false := by
      refine Bool.eq_false_iff.2 fun hsaga => ?_
      obtain rfl | rfl := isSaga_iff.1 hsaga
      · exact hcommitting (operation_eq_some.1 hoperation)
      · exact hcompensating (operation_eq_some.1 hoperation)
    have hreviews : action.reviews = none := by
      cases action <;> first | rfl | exact absurd rfl hcompletion
    cases h
    exact .dropped hpending hoperation hsaga hcancel hreviews
  · rename_i hgo
    refine applyStateAction_accepted hv (fun hpending hoperation => ?_) h
    by_contra hsaga
    rw [not_or] at hsaga
    exact hgo ⟨hpending, hoperation, hsaga.1, hsaga.2⟩

/-- **Every action that a valid session accepts**, with its successor and its effect. -/
theorem successor_accepted (hv : Valid lib s) (h : successor lib s action = .ok built) :
    Accepted s action built.next built.effect := by
  unfold successor at h
  split at h
  · exact cancelSession_accepted h
  · exact interruptSession_accepted h
  · exact failSession_accepted h
  · rename_i hcancel _ _
    exact completeOrApply_accepted hv hcancel h

/-! ## Restarted effects -/

/-- The effect of a restart is built from what the session stores. -/
theorem effectForOperation_eq_ok {operation : DiscoveryOperationKind}
    (h : effectForOperation s operation = .ok effect) :
    (∃ approval, operation.isBillable = true ∧ s.activeEffectApproval = some approval ∧
        effect = billableEffect approval operation) ∨
      (∃ attempt plan, operation = .atomicCommit ∧ s.commitAttemptId = some attempt ∧
        s.commitPlanSha256 = some plan ∧ effect = .commitAtomically attempt plan) ∨
      (∃ attempt, operation = .compensation ∧ effect = .runCompensation attempt) ∨
      operation.isBillable = false ∧ operation.isSaga = false ∧ effect.isQuiet = true := by
  have hbillable : ∀ {reason : String}, (do
      let approval ← requireApproval s reason
      pure (billableEffect approval operation)) = (.ok effect : DiscoveryApply DiscoveryEffect) →
      ∃ approval, s.activeEffectApproval = some approval ∧ effect = billableEffect approval operation := by
    intro reason hok
    unfold requireApproval at hok
    rw [bind_eq_ok] at hok
    obtain ⟨approval, happroval, hok⟩ := hok
    rw [okOr_eq_ok] at happroval
    cases hok
    exact ⟨approval, happroval, rfl⟩
  cases operation with
  | buildAssistantManifestDraft =>
    obtain ⟨approval, happroval, heffect⟩ := hbillable h
    exact .inl ⟨approval, rfl, happroval, heffect⟩
  | probeCapabilities =>
    obtain ⟨approval, happroval, heffect⟩ := hbillable h
    exact .inl ⟨approval, rfl, happroval, heffect⟩
  | atomicCommit =>
    unfold effectForOperation requireCommitAttempt at h
    simp only [bind_eq_ok, okOr_eq_ok] at h
    obtain ⟨attempt, hattempt, plan, hplan, h⟩ := h
    cases h
    exact .inr (.inl ⟨attempt, plan, rfl, hattempt, hplan, rfl⟩)
  | compensation =>
    unfold effectForOperation at h
    rw [bind_eq_ok] at h
    obtain ⟨attempt, -, h⟩ := h
    cases h
    exact .inr (.inr (.inl ⟨attempt, rfl, rfl⟩))
  | _ =>
    cases h
    exact .inr (.inr (.inr ⟨rfl, rfl, rfl⟩))

end LorePia.Discovery
