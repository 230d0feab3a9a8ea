import LorePia.Domain.Proof.Discovery

/-!
# Coherent discovery sessions

A session holds an operation while it runs it, is interrupted in it or does not know its outcome.
`Coherent` ties the markers of a session to the operation it holds, also where its validator asks nothing:
an approval is kept exactly for a billable operation, a plan and an attempt for an operation of the saga.
A coherent session is valid (`Coherent.valid`), and an accepted action leads to a coherent one unless it
is `Stranding` (`Accepted.coherent`); then the successor is refused.
-/

namespace LorePia.Discovery

open Base

variable {lib : DiscoveryLibrary} {s next : ProviderDiscoverySession} {action : ProviderDiscoveryAction}
  {effect : DiscoveryEffect} {operation : DiscoveryOperationKind}

/-! ## Held operations -/

/-- The operation that a session runs, is interrupted in or does not know the outcome of. -/
def ProviderDiscoverySession.held (s : ProviderDiscoverySession) : Option DiscoveryOperationKind :=
  match s.state with
  | .interrupted => s.recovery.map (·.operation)
  | .unknownOutcome => s.unknownOperation
  | state => state.operation

theorem held_running (h : s.state.operation = some operation) : s.held = some operation := by
  unfold ProviderDiscoverySession.held
  cases hs : s.state <;> rw [hs] at h <;> first | exact h | cases h

theorem held_interrupted {checkpoint : DiscoveryRecoveryCheckpoint} (hs : s.state = .interrupted)
    (h : s.recovery = some checkpoint) : s.held = some checkpoint.operation := by
  unfold ProviderDiscoverySession.held
  rw [hs, h]
  rfl

theorem held_unknown (hs : s.state = .unknownOutcome) : s.held = s.unknownOperation := by
  unfold ProviderDiscoverySession.held
  rw [hs]

theorem held_eq_operation (hinterrupted : s.state ≠ .interrupted) (hunknown : s.state ≠ .unknownOutcome) :
    s.held = s.state.operation := by
  unfold ProviderDiscoverySession.held
  split
  · exact absurd ‹_› hinterrupted
  · exact absurd ‹_› hunknown
  · rfl

theorem held_none (h : s.state.operation = none) (hinterrupted : s.state ≠ .interrupted)
    (hunknown : s.state ≠ .unknownOutcome) : s.held = none := by
  rw [held_eq_operation hinterrupted hunknown, h]

theorem held_terminal (h : s.state.isTerminal = true) : s.held = none := by
  unfold ProviderDiscoverySession.held
  cases hs : s.state <;> rw [hs] at h <;> first | rfl | cases h

/-- A quiet state holds at most a quiet operation. -/
theorem held_quiet (hs : s.state.isQuiet = true) (h : s.held = some operation) :
    operation.isBillable = false ∧ operation.isSaga = false := by
  unfold ProviderDiscoverySession.held at h
  cases hstate : s.state <;> rw [hstate] at h hs <;> cases hs <;> cases h <;> exact ⟨rfl, rfl⟩

theorem CommitOpen.held (h : CommitOpen s) : s.held = some .atomicCommit := by
  obtain hs | ⟨hs, hoperation⟩ := h
  · exact held_running (by rw [hs]; rfl)
  · rw [held_unknown hs, hoperation]

theorem StatesNoEffect.held (h : StatesNoEffect s operation action) : s.held = some operation := by
  cases action <;> first | exact h.elim | skip
  · exact held_running h.2.2.1
  · rw [held_unknown h.2.1, h.2.2]

/-! ## Coherence -/

/-- The markers of a session belong to the operation it holds. -/
structure Coherent (lib : DiscoveryLibrary) (s : ProviderDiscoverySession) : Prop where
  input : s.input.validate lib = .ok ()
  sequence : s.nextEventSequence ≠ 0
  plan : ∀ p, s.commitPlanSha256 = some p → validateSha256 "commit_plan_sha256" p = .ok ()
  manifest : ∀ m, s.manifestSha256 = some m → validateSha256 "manifest_sha256" m = .ok ()
  binding : ∀ b, s.activeEffectApproval = some b → b.validate = .ok ()
  failureText : ∀ f, s.failure = some f → f.validate = .ok ()
  failure : s.failure ≠ none → s.state = .compensating ∨ s.state = .failed ∨ s.state = .cancelled
  interrupted : s.state = .interrupted → ∃ operation, s.recovery = some ⟨stateForOperation operation, operation⟩
  recovery : s.state ≠ .interrupted → s.recovery = none
  unknown : s.state = .unknownOutcome → ∃ operation, s.unknownOperation = some operation
  unknownOperation : s.state ≠ .unknownOutcome → s.unknownOperation = none
  approval : s.activeEffectApproval ≠ none ↔ ∃ operation, s.held = some operation ∧ operation.isBillable = true
  commit : ∀ operation, s.held = some operation → operation.isSaga = true →
    s.commitPlanSha256 ≠ none ∧ s.commitAttemptId ≠ none
  ready : s.state = .ready → s.committedConnectionId ≠ none

theorem approvalRequired_held (h : s.approvalRequired = true) :
    ∃ operation, s.held = some operation ∧ operation.isBillable = true := by
  unfold ProviderDiscoverySession.approvalRequired at h
  split at h
  · exact ⟨_, held_running (by rw [‹s.state = _›]; rfl), rfl⟩
  · exact ⟨_, held_running (by rw [‹s.state = _›]; rfl), rfl⟩
  · obtain ⟨checkpoint, hcheckpoint, hbillable⟩ := (Option.any_eq_true _ _).1 h
    exact ⟨_, held_interrupted ‹_› hcheckpoint, hbillable⟩
  · cases h

theorem approvalAllowed_held (h : s.held = some operation) (hbillable : operation.isBillable = true) :
    s.approvalAllowed = true := by
  unfold ProviderDiscoverySession.approvalAllowed ProviderDiscoverySession.approvalRequired
  unfold ProviderDiscoverySession.held at h
  split at h
  · rename_i hs
    obtain ⟨checkpoint, hcheckpoint, rfl⟩ := Option.map_eq_some_iff.1 h
    simp [hs, hcheckpoint, hbillable]
  · rename_i hs
    simp [hs, h, hbillable]
  · have hs := operation_eq_some.1 h
    cases operation <;> first | (rw [hs]; rfl) | cases hbillable

/-- **A coherent session is valid.** -/
theorem Coherent.valid (h : Coherent lib s) : Valid lib s where
  input := h.input
  sequence := h.sequence
  plan := h.plan
  manifest := h.manifest
  binding := h.binding
  failure := fun f hf => ⟨h.failureText f hf, h.failure (by rw [hf]; nofun)⟩
  interrupted := h.interrupted
  recovery := h.recovery
  unknown := h.unknown
  unknownOperation := h.unknownOperation
  approvalRequired := fun hrequired => h.approval.2 (approvalRequired_held hrequired)
  approvalAllowed := fun happroval => by
    obtain ⟨operation, hheld, hbillable⟩ := h.approval.1 happroval
    exact approvalAllowed_held hheld hbillable
  commit := by
    rintro (hs | hs)
    · exact h.commit .atomicCommit (held_running (by rw [hs]; rfl)) rfl
    · exact h.commit .compensation (held_running (by rw [hs]; rfl)) rfl
  ready := h.ready

theorem Coherent.approval_none (h : Coherent lib s)
    (hheld : ∀ operation, s.held = some operation → operation.isBillable = false) :
    s.activeEffectApproval = none := by
  by_contra hne
  obtain ⟨operation, hoperation, hbillable⟩ := h.approval.1 hne
  rw [hheld operation hoperation] at hbillable
  cases hbillable

theorem Coherent.approval_none_of (h : Coherent lib s) (hheld : s.held = some operation)
    (hbillable : operation.isBillable = false) : s.activeEffectApproval = none :=
  h.approval_none fun _ hoperation => Option.some.inj (hheld.symm.trans hoperation) ▸ hbillable

/-- No approval and no billable operation. -/
theorem approval_iff_of_none (hnone : s.activeEffectApproval = none)
    (hheld : ∀ operation, s.held = some operation → operation.isBillable = false) :
    s.activeEffectApproval ≠ none ↔ ∃ operation, s.held = some operation ∧ operation.isBillable = true := by
  refine ⟨fun hne => absurd hnone hne, ?_⟩
  rintro ⟨operation, hoperation, hbillable⟩
  rw [hheld operation hoperation] at hbillable
  cases hbillable

theorem held_eq_none (h : s.held = none) {P : DiscoveryOperationKind → Prop} :
    ∀ operation, s.held = some operation → P operation := by
  intro operation hoperation
  rw [h] at hoperation
  cases hoperation

theorem held_eq_some (h : s.held = some operation) {P : DiscoveryOperationKind → Prop} (hP : P operation) :
    ∀ operation, s.held = some operation → P operation := by
  intro other hother
  cases h.symm.trans hother
  exact hP

theorem Coherent.failure_none (h : Coherent lib s) (hcompensating : s.state = .compensating → s.failure = none)
    (hfailed : s.state ≠ .failed) (hcancelled : s.state ≠ .cancelled) : s.failure = none := by
  by_contra hne
  obtain hs | hs | hs := h.failure hne
  · exact hne (hcompensating hs)
  · exact hfailed hs
  · exact hcancelled hs

/-! ## Successors -/

/-- The action resolves an unknown billable operation of a cancelled session as without effect. -/
def Stranding (s : ProviderDiscoverySession) (action : ProviderDiscoveryAction) : Prop :=
  s.cancellationPending = true ∧ s.state = .unknownOutcome ∧
    ∃ operation, StatesNoEffect s operation action ∧ operation.isBillable = true

theorem approves_billable {approval : DiscoveryApprovalBinding}
    (h : action.approves = some (operation, approval)) : operation.isBillable = true := by
  cases action <;> cases h <;> rfl

theorem stateForOperation_ne (operation : DiscoveryOperationKind) :
    stateForOperation operation ≠ .interrupted ∧ stateForOperation operation ≠ .unknownOutcome ∧
      stateForOperation operation ≠ .ready := by
  cases operation <;> exact ⟨nofun, nofun, nofun⟩

/-- A session that waits or runs an operation: no recovery and no unknown operation. -/
theorem Coherent.prepared {state : DiscoveryState} {manifest : Option String} (h : Coherent lib s)
    (hs : s.state.isQuiet = true ∨ s.state = .buildingAssistantManifestDraft ∨ s.state = .probingCapabilities)
    (hstate : state.isQuiet = true)
    (hmanifest : ∀ m, manifest = some m → validateSha256 "manifest_sha256" m = .ok ()) :
    Coherent lib { s with state, manifestSha256 := manifest, activeEffectApproval := none } := by
  have hsource : s.state ≠ .interrupted ∧ s.state ≠ .unknownOutcome ∧ s.state ≠ .compensating ∧
      s.state ≠ .failed ∧ s.state ≠ .cancelled := by
    refine ⟨?_, ?_, ?_, ?_, ?_⟩ <;> rintro heq <;> rw [heq] at hs <;> simp [DiscoveryState.isQuiet] at hs
  obtain ⟨hinterrupted, hunknown, hcompensating, hfailed, hcancelled⟩ := hsource
  have hfailure := h.failure_none (fun hs => absurd hs hcompensating) hfailed hcancelled
  have htarget : state ≠ .interrupted ∧ state ≠ .unknownOutcome ∧ state ≠ .ready := by
    refine ⟨?_, ?_, ?_⟩ <;> rintro rfl <;> cases hstate
  exact { h with
    manifest := hmanifest
    binding := nofun
    failure := fun hne => absurd hfailure hne
    interrupted := fun heq => absurd heq htarget.1
    recovery := fun _ => h.recovery hinterrupted
    unknown := fun heq => absurd heq htarget.2.1
    unknownOperation := fun _ => h.unknownOperation hunknown
    approval := approval_iff_of_none rfl fun operation hheld => (held_quiet hstate hheld).1
    commit := fun operation hheld hsaga => by
      rw [(held_quiet hstate hheld).2] at hsaga
      cases hsaga
    ready := fun heq => absurd heq htarget.2.2 }

/-- A session that runs an operation. -/
theorem coherent_running (operation : DiscoveryOperationKind) (hstate : s.state = stateForOperation operation) (hinput : s.input.validate lib = .ok ())
    (hsequence : s.nextEventSequence ≠ 0)
    (hplan : ∀ p, s.commitPlanSha256 = some p → validateSha256 "commit_plan_sha256" p = .ok ())
    (hmanifest : ∀ m, s.manifestSha256 = some m → validateSha256 "manifest_sha256" m = .ok ())
    (hbinding : ∀ b, s.activeEffectApproval = some b → b.validate = .ok ())
    (hfailure : ∀ f, s.failure = some f → f.validate = .ok () ∧ operation = .compensation)
    (hrecovery : s.recovery = none) (hunknown : s.unknownOperation = none)
    (happroval : s.activeEffectApproval ≠ none ↔ operation.isBillable = true)
    (hcommit : operation.isSaga = true → s.commitPlanSha256 ≠ none ∧ s.commitAttemptId ≠ none) :
    Coherent lib s := by
  have hheld : s.held = some operation := held_running (operation_eq_some.2 hstate)
  obtain ⟨hne_interrupted, hne_unknown, hne_ready⟩ := stateForOperation_ne operation
  rw [← hstate] at hne_interrupted hne_unknown hne_ready
  exact
    { input := hinput
      sequence := hsequence
      plan := hplan
      manifest := hmanifest
      binding := hbinding
      failureText := fun f hf => (hfailure f hf).1
      failure := fun hne => by
        obtain ⟨f, hf⟩ := Option.ne_none_iff_exists'.1 hne
        rw [(hfailure f hf).2] at hstate
        exact .inl hstate
      interrupted := fun heq => absurd heq hne_interrupted
      recovery := fun _ => hrecovery
      unknown := fun heq => absurd heq hne_unknown
      unknownOperation := fun _ => hunknown
      approval := happroval.trans
        ⟨fun hbillable => ⟨operation, hheld, hbillable⟩, fun ⟨_, hother, hbillable⟩ => by
          cases hheld.symm.trans hother
          exact hbillable⟩
      commit := held_eq_some hheld hcommit
      ready := fun heq => absurd heq hne_ready }

/-- A session that is over. -/
theorem coherent_over (hterminal : s.state.isTerminal = true) (hinput : s.input.validate lib = .ok ())
    (hsequence : s.nextEventSequence ≠ 0)
    (hplan : ∀ p, s.commitPlanSha256 = some p → validateSha256 "commit_plan_sha256" p = .ok ())
    (hmanifest : ∀ m, s.manifestSha256 = some m → validateSha256 "manifest_sha256" m = .ok ())
    (hfailure : ∀ f, s.failure = some f → f.validate = .ok () ∧ s.state ≠ .ready)
    (hrecovery : s.recovery = none) (hunknown : s.unknownOperation = none)
    (happroval : s.activeEffectApproval = none) (hready : s.state = .ready → s.committedConnectionId ≠ none) :
    Coherent lib s := by
  have hheld := held_terminal hterminal
  exact
    { input := hinput
      sequence := hsequence
      plan := hplan
      manifest := hmanifest
      binding := by
        rw [happroval]
        nofun
      failureText := fun f hf => (hfailure f hf).1
      failure := fun hne => by
        obtain ⟨f, hf⟩ := Option.ne_none_iff_exists'.1 hne
        obtain ⟨-, hne_ready⟩ := hfailure f hf
        cases hstate : s.state <;> rw [hstate] at hterminal hne_ready <;> cases hterminal
        · exact absurd rfl hne_ready
        · exact .inr (.inl rfl)
        · exact .inr (.inr rfl)
      interrupted := fun heq => by
        rw [heq] at hterminal
        cases hterminal
      recovery := fun _ => hrecovery
      unknown := fun heq => by
        rw [heq] at hterminal
        cases hterminal
      unknownOperation := fun _ => hunknown
      approval := approval_iff_of_none happroval (held_eq_none hheld)
      commit := held_eq_none hheld
      ready := hready }

/-- A session that does not know the outcome of the operation it ran. -/
theorem Coherent.lost (h : Coherent lib s) (hoperation : s.state.operation = some operation)
    (hs : s.state = .compensating → s.failure = none) :
    Coherent lib { s with state := .unknownOutcome, unknownOperation := some operation, recovery := none } := by
  have hheld := held_running hoperation
  have hfailure : s.failure = none := by
    refine h.failure_none hs ?_ ?_ <;> intro heq <;> rw [heq] at hoperation <;> cases hoperation
  have hsame : ProviderDiscoverySession.held
      { s with state := .unknownOutcome, unknownOperation := some operation, recovery := none } = s.held :=
    hheld.symm
  exact { h with
    failure := fun hne => absurd hfailure hne
    interrupted := nofun
    recovery := fun _ => rfl
    unknown := fun _ => ⟨operation, rfl⟩
    unknownOperation := fun hne => absurd rfl hne
    approval := by rw [hsame]; exact h.approval
    commit := by rw [hsame]; exact h.commit
    ready := nofun }

/-- A session that is interrupted in an operation. -/
theorem Coherent.interrupt (h : Coherent lib s) (stopped : DiscoveryOperationKind) (hheld : s.held = some operation)
    (hfailure : s.failure = none) (hbillable : stopped.isBillable = operation.isBillable)
    (hsaga : stopped.isSaga = operation.isSaga) :
    Coherent lib
      { s with
        state := .interrupted
        recovery := some ⟨stateForOperation stopped, stopped⟩
        unknownOperation := none } := by
  have hstopped : ProviderDiscoverySession.held
      { s with
        state := .interrupted
        recovery := some ⟨stateForOperation stopped, stopped⟩
        unknownOperation := none } = some stopped := rfl
  exact { h with
    failure := fun hne => absurd hfailure hne
    interrupted := fun _ => ⟨stopped, rfl⟩
    recovery := fun hne => absurd rfl hne
    unknown := nofun
    unknownOperation := fun _ => rfl
    approval := by
      refine h.approval.trans ⟨?_, ?_⟩
      · rintro ⟨other, hother, hb⟩
        cases hheld.symm.trans hother
        exact ⟨stopped, rfl, hbillable.trans hb⟩
      · rintro ⟨other, hother, hb⟩
        cases hother
        exact ⟨operation, hheld, hbillable.symm.trans hb⟩
    commit := held_eq_some hstopped fun hs => h.commit operation hheld (hsaga.symm.trans hs)
    ready := nofun }

theorem Coherent.no_failure (h : Coherent lib s) (hs : s.state ≠ .compensating) (hended : s.state.isTerminal = false) :
    ∀ f, s.failure ≠ some f := by
  intro f hf
  obtain heq | heq | heq := h.failure (by rw [hf]; nofun) <;> rw [heq] at hs hended
  · exact hs rfl
  · cases hended
  · cases hended

theorem quiet_ne (hs : s.state.isQuiet = true) : s.state ≠ .interrupted ∧ s.state ≠ .unknownOutcome ∧
    s.state ≠ .compensating ∧ s.state.isTerminal = false := by
  cases hstate : s.state <;> rw [hstate] at hs <;> cases hs <;> exact ⟨nofun, nofun, nofun, rfl⟩

theorem CommitOpen.ne (hopen : CommitOpen s) :
    s.state ≠ .interrupted ∧ s.state ≠ .compensating ∧ s.state.isTerminal = false := by
  obtain hs | ⟨hs, -⟩ := hopen <;> rw [hs] <;> exact ⟨nofun, nofun, rfl⟩

theorem StatesOutcome.ne (h : StatesOutcome s action) : s.state ≠ .interrupted := by
  intro heq
  cases action <;> first | exact h.elim | skip
  · exact absurd (heq.symm.trans h) nofun
  · exact absurd (heq.symm.trans h) nofun
  · exact absurd (heq.symm.trans h.1) nofun
  · exact absurd (heq.symm.trans h.1) nofun

theorem StatesOutcome.not_terminal (h : StatesOutcome s action) : s.state.isTerminal ≠ true := by
  intro hterminal
  cases action <;> first | exact h.elim | skip
  · rw [show s.state = .committing from h] at hterminal
    cases hterminal
  · rw [show s.state = .committing from h] at hterminal
    cases hterminal
  · rw [h.1] at hterminal
    cases hterminal
  · rw [h.1] at hterminal
    cases hterminal

theorem StatesNoEffect.no_failure (h : StatesNoEffect s operation action) (hs : Coherent lib s) :
    s.failure = none := by
  cases action <;> first | exact h.elim | skip
  · obtain ⟨-, -, hoperation, hcompensating⟩ := h
    refine hs.failure_none hcompensating ?_ ?_ <;> intro heq <;> rw [heq] at hoperation <;> cases hoperation
  · obtain ⟨-, hunknown, -⟩ := h
    refine hs.failure_none ?_ ?_ ?_ <;> intro heq <;> cases hunknown.symm.trans heq

theorem endState (pending : Bool) : (if pending then DiscoveryState.cancelled else .failed).isTerminal = true ∧
    (if pending then DiscoveryState.cancelled else .failed) ≠ .ready := by
  cases pending <;> exact ⟨rfl, nofun⟩

theorem Coherent.held_approval (h : Coherent lib s) (hheld : s.held = some operation) :
    s.activeEffectApproval ≠ none ↔ operation.isBillable = true := by
  refine h.approval.trans ⟨?_, fun hbillable => ⟨operation, hheld, hbillable⟩⟩
  rintro ⟨other, hother, hbillable⟩
  cases hheld.symm.trans hother
  exact hbillable

/-- **Every accepted action of a coherent session** leads to a coherent session, except a stranding one. -/
theorem Accepted.coherent (h : Accepted s action next effect) (hs : Coherent lib s) (hnot : ¬ Stranding s action) :
    Coherent lib next := by
  cases h with
  | prepared hsource _ hstate _ _ hmanifest => exact hs.prepared hsource hstate hmanifest
  | checkpointed => exact hs
  | @approved _ operation approval hquiet _ happroves hvalid =>
    obtain ⟨hinterrupted, hunknown, hcompensating, hterminal⟩ := quiet_ne hquiet
    have hbillable := approves_billable happroves
    exact coherent_running operation rfl hs.input hs.sequence hs.plan hs.manifest
      (fun b hb => Option.some.inj hb ▸ hvalid) (fun f hf => absurd hf (hs.no_failure hcompensating hterminal f))
      (hs.recovery hinterrupted) (hs.unknownOperation hunknown) ⟨fun _ => hbillable, fun _ => nofun⟩
      fun hsaga => by
        rw [isBillable_of_isSaga hsaga] at hbillable
        cases hbillable
  | reviewed hreview _ hvalid =>
    have hquiet : s.state.isQuiet = true := by rw [hreview]; rfl
    obtain ⟨hinterrupted, hunknown, hcompensating, hterminal⟩ := quiet_ne hquiet
    have happroval := hs.approval_none fun operation hheld => (held_quiet hquiet hheld).1
    exact coherent_running .atomicCommit rfl hs.input hs.sequence
      (fun p hp => Option.some.inj hp ▸ hvalid) hs.manifest hs.binding
      (fun f hf => absurd hf (hs.no_failure hcompensating hterminal f)) (hs.recovery hinterrupted)
      (hs.unknownOperation hunknown) ⟨fun hne => absurd happroval hne, nofun⟩ fun _ => ⟨nofun, nofun⟩
  | committed connectionId hopen hpending houtcome =>
    obtain ⟨hinterrupted, hcompensating, hterminal⟩ := hopen.ne
    exact coherent_over rfl hs.input hs.sequence hs.plan hs.manifest
      (fun f hf => absurd hf (hs.no_failure hcompensating hterminal f)) (hs.recovery hinterrupted) rfl
      (hs.approval_none_of hopen.held rfl) fun _ => nofun
  | compensated hopen hplain hattempt =>
    obtain ⟨hinterrupted, hcompensating, hterminal⟩ := hopen.ne
    exact coherent_running .compensation rfl hs.input hs.sequence hs.plan hs.manifest hs.binding
      (fun f hf => absurd hf (hs.no_failure hcompensating hterminal f)) (hs.recovery hinterrupted) rfl
      ⟨fun hne => absurd (hs.approval_none_of hopen.held rfl) hne, nofun⟩
      fun _ => hs.commit .atomicCommit hopen.held rfl
  | ended houtcome hfailure =>
    exact coherent_over (endState _).1 hs.input hs.sequence hs.plan hs.manifest
      (fun f hf => ⟨hfailure f hf, (endState _).2⟩) (hs.recovery houtcome.ne) rfl rfl
      fun heq => absurd heq (endState _).2
  | compensationFailed hcompensating _ hvalid =>
    have hheld : s.held = some .compensation := held_running (by rw [hcompensating]; rfl)
    exact coherent_running .compensation hcompensating hs.input hs.sequence hs.plan hs.manifest
      hs.binding (fun f hf => ⟨Option.some.inj hf ▸ hvalid, rfl⟩) (hs.recovery (by rw [hcompensating]; nofun))
      (hs.unknownOperation (by rw [hcompensating]; nofun)) (hs.held_approval hheld)
      (hs.commit .compensation hheld)
  | resumed hcompensating _ hattempt =>
    have hheld : s.held = some .compensation := held_running (by rw [hcompensating]; rfl)
    exact coherent_running .compensation hcompensating hs.input hs.sequence hs.plan hs.manifest
      hs.binding nofun (hs.recovery (by rw [hcompensating]; nofun))
      (hs.unknownOperation (by rw [hcompensating]; nofun)) (hs.held_approval hheld)
      (hs.commit .compensation hheld)
  | lost hoperation hcompensating _ => exact hs.lost hoperation hcompensating
  | @interrupted _ operation cancelled hpending hstates hsaga =>
    have hfailure := hstates.no_failure hs
    cases cancelled with
    | false => exact hs.interrupt operation hstates.held hfailure rfl rfl
    | true =>
      exact hs.interrupt .compensation hstates.held hfailure (isBillable_of_isSaga (hsaga rfl)).symm
        (hsaga rfl).symm
  | dropped =>
    exact coherent_over rfl hs.input hs.sequence hs.plan hs.manifest (fun f hf => ⟨hs.failureText f hf, nofun⟩)
      rfl rfl rfl nofun
  | @reconciled _ operation hpending hstates hunknown hsaga =>
    have hbillable : operation.isBillable = false :=
      Bool.eq_false_iff.2 fun hbillable => hnot ⟨hpending, hunknown, operation, hstates, hbillable⟩
    exact coherent_over rfl hs.input hs.sequence hs.plan hs.manifest (fun f hf => ⟨hs.failureText f hf, nofun⟩)
      rfl rfl (hs.approval_none_of hstates.held hbillable) nofun
  | restarted hinterrupted hrecovery _ =>
    obtain ⟨operation, hcheckpoint⟩ := hs.interrupted hinterrupted
    cases hrecovery.symm.trans hcheckpoint
    have hheld := held_interrupted hinterrupted hcheckpoint
    exact coherent_running operation rfl hs.input hs.sequence hs.plan hs.manifest hs.binding
      (fun f hf => absurd hf (hs.no_failure (by rw [hinterrupted]; nofun) (by rw [hinterrupted]; rfl) f)) rfl rfl
      (hs.held_approval hheld) (hs.commit operation hheld)
  | cancelling => exact { hs with }
  | cancelled =>
    exact coherent_over rfl hs.input hs.sequence hs.plan hs.manifest (fun f hf => ⟨hs.failureText f hf, nofun⟩)
      rfl rfl rfl nofun
  | failed _ _ _ _ hvalid =>
    exact coherent_over (endState _).1 hs.input hs.sequence hs.plan hs.manifest
      (fun f hf => ⟨Option.some.inj hf ▸ hvalid, (endState _).2⟩) rfl rfl rfl fun heq => absurd heq (endState _).2

/-- The session after an accepted action: its counters go up by one. -/
def counted (s next : ProviderDiscoverySession) : ProviderDiscoverySession :=
  { next with revision := s.revision + 1, nextEventSequence := s.nextEventSequence + 1 }

theorem Coherent.counted (h : Coherent lib next) : Coherent lib (counted s next) :=
  { h with sequence := Nat.succ_ne_zero _ }

/-! ## Refusals -/

/-- The errors of an action that is not legal in a state, or whose payload is bad. -/
def Refusal (s : ProviderDiscoverySession) (action : ProviderDiscoveryAction) : DiscoveryTransitionError → Prop
  | .invalidTransition state kind => state = s.state ∧ kind = action.kind
  | .unknownOutcomeRequiresReconciliation => s.state = .unknownOutcome
  | .invalidAction _ => True
  | _ => False

/-- A computation that fails with refusals only. -/
def Refuses {α : Type} (s : ProviderDiscoverySession) (action : ProviderDiscoveryAction) (x : DiscoveryApply α) :
    Prop :=
  ∀ e, x = .error e → Refusal s action e

section
variable {α β : Type} {x : DiscoveryApply α} {f : α → DiscoveryApply β}

theorem refuses_ok (a : α) : Refuses s action (.ok a) := nofun

theorem refuses_bind (hx : Refuses s action x) (hf : ∀ a, x = .ok a → Refuses s action (f a)) :
    Refuses s action (x >>= f) := by
  intro e he
  obtain he | ⟨a, ha, he⟩ := bind_eq_error.1 he
  · exact hx e he
  · exact hf a ha e he

theorem refuses_check (check : DiscoveryCheck α) : Refuses s action (mapErr .invalidAction check) := by
  intro e he
  cases check with
  | ok a => cases he
  | error reason =>
    cases he
    trivial

theorem refuses_rejectIf (bad : Prop) [Decidable bad] :
    Refuses s action (rejectIf bad (.invalidTransition s.state action.kind)) := by
  intro e he
  obtain ⟨-, rfl⟩ := rejectIf_eq_error.1 he
  exact ⟨rfl, rfl⟩

theorem refuses_okOr {value : Option α} (h : value ≠ none) (error : DiscoveryTransitionError) :
    Refuses s action (okOr value error) := fun _ he => absurd (okOr_eq_error.1 he).1 h

theorem refuses_legalIn {states : List DiscoveryState} {arm : DiscoveryApply DiscoverySuccessor}
    (h : s.state ∈ states → Refuses s action arm) : Refuses s action (legalIn states s action arm) := by
  unfold legalIn
  split
  · exact h ‹_›
  · intro e he
    cases he
    exact ⟨rfl, rfl⟩

end

theorem Coherent.attempt (h : Coherent lib s) (hheld : s.held = some operation) (hsaga : operation.isSaga = true)
    (reason : String) : Refuses s action (requireCommitAttempt s reason) :=
  refuses_okOr (h.commit operation hheld hsaga).2 _

theorem Coherent.startCompensation_refuses (h : Coherent lib s) (hopen : CommitOpen s) :
    Refuses s action (startCompensation s next) :=
  refuses_bind (h.attempt hopen.held rfl _) fun _ _ => refuses_ok _

theorem Coherent.commitCompleted_refuses {connectionId : ProviderConnectionId} (h : Coherent lib s)
    (hopen : CommitOpen s) : Refuses s action (commitCompleted s next connectionId) := by
  unfold commitCompleted
  split
  · exact h.startCompensation_refuses hopen
  · exact refuses_ok _

theorem Coherent.effect_refuses (h : Coherent lib s) (hheld : s.held = some operation) :
    Refuses s action (effectForOperation s operation) := by
  cases operation with
  | buildAssistantManifestDraft =>
    exact refuses_bind (refuses_okOr ((h.held_approval hheld).2 rfl) _) fun _ _ => refuses_ok _
  | probeCapabilities =>
    exact refuses_bind (refuses_okOr ((h.held_approval hheld).2 rfl) _) fun _ _ => refuses_ok _
  | atomicCommit =>
    exact refuses_bind (h.attempt hheld rfl _) fun _ _ =>
      refuses_bind (refuses_okOr (h.commit _ hheld rfl).1 _) fun _ _ => refuses_ok _
  | compensation => exact refuses_bind (h.attempt hheld rfl _) fun _ _ => refuses_ok _
  | _ => exact refuses_ok _

theorem Coherent.restart_refuses (h : Coherent lib s) (hs : s.state = .interrupted) :
    Refuses s action (restartInterrupted s) := by
  obtain ⟨operation, hrecovery⟩ := h.interrupted hs
  refine refuses_bind (refuses_okOr (by rw [hrecovery]; nofun) _) fun checkpoint hcheckpoint => ?_
  rw [okOr_eq_ok] at hcheckpoint
  exact refuses_bind (h.effect_refuses (held_interrupted hs hcheckpoint)) fun _ _ => refuses_ok _

theorem Coherent.resolve_refuses {resolution : DiscoveryUnknownOutcomeResolution} (h : Coherent lib s)
    (hs : s.state = .unknownOutcome) : Refuses s action (resolveUnknownOutcome s action resolution) := by
  obtain ⟨operation, hoperation⟩ := h.unknown hs
  cases resolution with
  | confirmedNoEffect =>
    refine refuses_bind (refuses_okOr (by rw [hoperation]; nofun) _) fun _ _ => ?_
    split
    · split
      · exact refuses_ok _
      · exact refuses_ok _
    · exact refuses_ok _
  | confirmedCommitCompleted connectionId =>
    refine refuses_bind (refuses_rejectIf _) fun _ hcommit => ?_
    rw [rejectIf_eq_ok, not_not] at hcommit
    exact h.commitCompleted_refuses (.inr ⟨hs, hcommit⟩)
  | confirmedCompensated => exact refuses_bind (refuses_rejectIf _) fun _ _ => refuses_ok _
  | manuallyReconciledAsFailed => exact refuses_ok _

/-- The actions that are legal in some states fail with refusals only. -/
theorem Coherent.applyStateAction_refuses (h : Coherent lib s) :
    Refuses s action (applyStateAction lib s action) := by
  cases action with
  | knownProviderCandidatesResolved candidateCount =>
    refine refuses_legalIn fun _ => ?_
    split
    · exact refuses_ok _
    · exact refuses_ok _
  | evidenceExtracted resolution =>
    refine refuses_legalIn fun _ => ?_
    cases resolution <;> exact refuses_ok _
  | supplyMoreEvidence evidenceIds =>
    exact refuses_legalIn fun _ => refuses_bind (refuses_check _) fun _ _ => refuses_ok _
  | supplyFreshEvidence evidenceIds source =>
    refine refuses_legalIn fun _ => refuses_bind (refuses_check _) fun _ _ => refuses_bind (refuses_check _)
      fun allowed _ => refuses_bind ?_ fun _ _ => refuses_ok _
    intro e he
    obtain ⟨-, rfl⟩ := rejectIf_eq_error.1 he
    trivial
  | approveAssistant approvalId grant =>
    exact refuses_legalIn fun _ => refuses_bind (refuses_check _) fun _ _ => refuses_ok _
  | assistantRequestedMoreEvidence questionCount =>
    exact refuses_legalIn fun _ => refuses_bind (refuses_check _) fun _ _ => refuses_ok _
  | assistantResumedWithEvidence approvalId grant =>
    exact refuses_legalIn fun _ => refuses_bind (refuses_check _) fun _ _ =>
      refuses_bind (refuses_check _) fun _ _ => refuses_ok _
  | manifestDraftBuilt manifest =>
    exact refuses_legalIn fun _ => refuses_bind (refuses_check _) fun _ _ => refuses_ok _
  | manifestValidated manifest required =>
    refine refuses_legalIn fun _ => refuses_bind (refuses_check _) fun _ _ =>
      refuses_bind (refuses_check _) fun _ _ => ?_
    split
    · exact refuses_ok _
    · exact refuses_ok _
  | modelsListed modelCount probeCandidateCount =>
    refine refuses_legalIn fun _ => ?_
    split
    · exact refuses_ok _
    · exact refuses_ok _
  | approveProbes approvalId grant =>
    exact refuses_legalIn fun _ => refuses_bind (refuses_check _) fun _ _ => refuses_ok _
  | approveReview approvalId attempt plan graph =>
    exact refuses_legalIn fun _ => refuses_bind (refuses_check _) fun _ _ => refuses_ok _
  | commitSucceeded connectionId =>
    exact refuses_legalIn fun hs => h.commitCompleted_refuses (.inl (List.mem_singleton.1 hs))
  | commitFailedBeforeApply failure =>
    exact refuses_legalIn fun _ => refuses_bind (refuses_check _) fun _ _ => refuses_ok _
  | compensationRequired =>
    exact refuses_legalIn fun hs => h.startCompensation_refuses (.inl (List.mem_singleton.1 hs))
  | compensationSucceeded => exact refuses_legalIn fun _ => refuses_bind (refuses_rejectIf _) fun _ _ => refuses_ok _
  | compensationFailed failure =>
    exact refuses_legalIn fun _ => refuses_bind (refuses_rejectIf _) fun _ _ =>
      refuses_bind (refuses_check _) fun _ _ => refuses_ok _
  | resumeCompensation =>
    refine refuses_legalIn fun hs => refuses_bind (refuses_rejectIf _) fun _ _ => ?_
    have hheld : s.held = some .compensation := held_running (by rw [List.mem_singleton.1 hs]; rfl)
    exact refuses_bind (h.attempt hheld rfl _) fun _ _ => refuses_ok _
  | externalOutcomeBecameUnknown =>
    refine refuses_legalIn fun _ => refuses_bind (refuses_rejectIf _) fun _ _ =>
      refuses_bind ?_ fun _ _ => refuses_ok _
    intro e he
    obtain ⟨-, rfl⟩ := okOr_eq_error.1 he
    exact ⟨rfl, rfl⟩
  | restartInterrupted => exact refuses_legalIn fun hs => h.restart_refuses (List.mem_singleton.1 hs)
  | resolveUnknownOutcome approvalId resolution =>
    exact refuses_legalIn fun hs => h.resolve_refuses (List.mem_singleton.1 hs)
  | interrupt operation outcome => exact fun e he => by cases he; exact ⟨rfl, rfl⟩
  | fail failure => exact fun e he => by cases he; exact ⟨rfl, rfl⟩
  | cancel => exact fun e he => by cases he; exact ⟨rfl, rfl⟩
  | _ => exact refuses_legalIn fun _ => refuses_ok _

/-- **A coherent session fails with refusals only** until its successor is checked. -/
theorem Coherent.successor_refuses (h : Coherent lib s) : Refuses s action (successor lib s action) := by
  unfold successor
  split
  · intro e he
    unfold cancelSession at he
    split at he
    · cases he
      exact ⟨rfl, rfl⟩
    · split at he
      · cases he
        assumption
      · cases he
      · split at he
        · split at he <;> cases he
        · cases he
  · refine refuses_bind (refuses_rejectIf _) fun _ _ => ?_
    split
    · split
      · split
        · exact refuses_ok _
        · exact refuses_ok _
      · exact refuses_ok _
    · exact refuses_ok _
  · exact refuses_bind (refuses_rejectIf _) fun _ _ => refuses_bind (refuses_check _) fun _ _ => refuses_ok _
  · unfold completeOrApply
    split
    · exact refuses_bind (refuses_rejectIf _) fun _ _ => refuses_ok _
    · exact h.applyStateAction_refuses

/-! ## Stranding -/

/-- The session that a stranding action leads to: the approval is not cleared. -/
def strandedSession (s : ProviderDiscoverySession) : ProviderDiscoverySession :=
  { s with unknownOperation := none, state := .cancelled, recovery := none, cancellationPending := false }

theorem Stranding.successor (h : Stranding s action) :
    successor lib s action = .ok { next := strandedSession s } := by
  obtain ⟨hpending, hs, operation, hstates, hbillable⟩ := h
  cases action with
  | interrupt stated outcome =>
    have hoperation := hstates.2.2.1
    rw [hs] at hoperation
    cases hoperation
  | resolveUnknownOutcome approvalId resolution =>
    obtain ⟨rfl, -, hoperation⟩ := hstates
    have hsaga : ¬ (operation = .atomicCommit ∨ operation = .compensation) := by
      rintro (rfl | rfl) <;> cases hbillable
    simp [Discovery.successor, completeOrApply, applyStateAction, legalIn, resolveUnknownOutcome, resolveNoEffect, hs,
      hpending, hoperation, hsaga, DiscoveryState.operation, okOr,
      strandedSession]
  | _ => exact hstates.elim

/-- The error that wedges a session. -/
def strandedError : DiscoveryContractError :=
  ⟨"active_effect_approval", "must exist exactly while an approved billable effect is active or recoverable"⟩

/-- **A stranding action** builds a session that the validator refuses. -/
theorem Stranding.refused (h : Stranding s action) (hs : Coherent lib s) :
    (counted s (strandedSession s)).validate lib = .error strandedError := by
  obtain ⟨-, -, operation, hstates, hbillable⟩ := h
  have hne : s.activeEffectApproval ≠ none := hs.approval.2 ⟨operation, hstates.held, hbillable⟩
  have hfailure : (counted s (strandedSession s)).failure = none := hstates.no_failure hs
  refine bind_eq_error.2 (.inr ⟨(), hs.input, ?_⟩)
  refine bind_eq_error.2 (.inr ⟨(), rejectIf_eq_ok.2 (Nat.succ_ne_zero _), ?_⟩)
  refine bind_eq_error.2 (.inr ⟨(), forSome_eq_ok.2 hs.plan, ?_⟩)
  refine bind_eq_error.2 (.inr ⟨(), forSome_eq_ok.2 hs.manifest, ?_⟩)
  refine bind_eq_error.2 (.inr ⟨(), forSome_eq_ok.2 hs.binding, ?_⟩)
  refine bind_eq_error.2 (.inr ⟨(), forSome_eq_ok.2 (by rw [hfailure]; nofun), ?_⟩)
  refine bind_eq_error.2 (.inr ⟨(), rfl, ?_⟩)
  refine bind_eq_error.2 (.inr ⟨(), rfl, ?_⟩)
  exact bind_eq_error.2 (.inl (rejectIf_eq_error.2 ⟨.inr ⟨rfl, hne⟩, rfl⟩))

end LorePia.Discovery
