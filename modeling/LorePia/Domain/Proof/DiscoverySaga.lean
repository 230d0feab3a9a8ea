import LorePia.Domain.Proof.DiscoveryRuns

/-!
# The saga and the effects of provider discovery

A session of the saga leaves it by a statement of its outcome, or is abandoned while it is interrupted
(`Accepted.inSaga`). An effect is issued again only where it is `Reissuable`, and a session becomes so only
by a step that clears the effect (`Accepted.reissuable`). Approvals, attempts and plans are those of the
last approving action.
-/

namespace LorePia.Discovery

open Base

variable {lib : DiscoveryLibrary} {id : DiscoverySessionId} {input : SanitizedDiscoveryInput}
  {start s next : ProviderDiscoverySession} {action : ProviderDiscoveryAction} {effect : DiscoveryEffect}
  {operation : DiscoveryOperationKind} {trace : List DiscoveryStep}

/-! ## The end of the saga -/

/-- The session holds the commit or the compensation. -/
def InSaga (s : ProviderDiscoverySession) : Prop := ∃ operation, s.held = some operation ∧ operation.isSaga = true

/-- The actions that state how the commit or the compensation ended. -/
def EndsSaga (s : ProviderDiscoverySession) : ProviderDiscoveryAction → Prop
  | .commitSucceeded _ => True
  | .commitFailedBeforeApply _ => True
  | .compensationSucceeded => True
  | .resolveUnknownOutcome _ resolution => resolution ≠ .confirmedNoEffect ∧
      ∃ operation, s.unknownOperation = some operation ∧ operation.isSaga = true
  | _ => False

/-- A `Cancel` or a `Fail` while the session is interrupted in the commit or the compensation. -/
def AbandonsSaga (s : ProviderDiscoverySession) (action : ProviderDiscoveryAction) : Prop :=
  s.state = .interrupted ∧ (∃ checkpoint, s.recovery = some checkpoint ∧ checkpoint.operation.isSaga = true) ∧
    (action = .cancel ∨ ∃ failure, action = .fail failure)

theorem InSaga.not_terminal (h : InSaga s) : s.state.isTerminal = false := by
  obtain ⟨operation, hheld, -⟩ := h
  refine Bool.eq_false_iff.2 fun hterminal => ?_
  rw [held_terminal hterminal] at hheld
  cases hheld

theorem InSaga.not_quiet (h : InSaga s) (hquiet : s.state.isQuiet = true) : False := by
  obtain ⟨operation, hheld, hsaga⟩ := h
  rw [(held_quiet hquiet hheld).2] at hsaga
  cases hsaga

theorem InSaga.running (h : InSaga s) (hoperation : s.state.operation = some operation) :
    operation.isSaga = true := by
  obtain ⟨held, hheld, hsaga⟩ := h
  cases (held_running hoperation).symm.trans hheld
  exact hsaga

theorem InSaga.endsSaga (h : InSaga s) (houtcome : StatesOutcome s action) : EndsSaga s action := by
  cases action <;> first | trivial | exact houtcome.elim | skip
  obtain ⟨operation, hheld, hsaga⟩ := h
  exact ⟨houtcome.2, operation, (held_unknown houtcome.1).symm.trans hheld, hsaga⟩

/-- An idle session of the saga is interrupted. -/
theorem InSaga.interrupted (h : InSaga s) (hoperation : s.state.operation = none)
    (hunknown : s.state ≠ .unknownOutcome) (haction : action = .cancel ∨ ∃ failure, action = .fail failure) :
    AbandonsSaga s action := by
  obtain ⟨operation, hheld, hsaga⟩ := h
  by_cases hs : s.state = .interrupted
  · unfold ProviderDiscoverySession.held at hheld
    rw [hs] at hheld
    obtain ⟨checkpoint, hcheckpoint, rfl⟩ := Option.map_eq_some_iff.1 hheld
    exact ⟨hs, ⟨checkpoint, hcheckpoint, hsaga⟩, haction⟩
  · rw [held_none hoperation hs hunknown] at hheld
    cases hheld

/-- **The saga is left** by a statement of its outcome, or it is abandoned. -/
theorem Accepted.inSaga (h : Accepted s action next effect) (hs : Coherent lib s) (hsaga : InSaga s) :
    InSaga next ∨ next.state.isTerminal = true ∧ (EndsSaga s action ∨ AbandonsSaga s action) := by
  cases h with
  | prepared hsource =>
    obtain hquiet | heq | heq := hsource
    · exact (hsaga.not_quiet hquiet).elim
    · have hrunning : s.state.operation = some .buildAssistantManifestDraft := by rw [heq]; rfl
      cases hsaga.running hrunning
    · have hrunning : s.state.operation = some .probeCapabilities := by rw [heq]; rfl
      cases hsaga.running hrunning
  | checkpointed => exact .inl hsaga
  | approved hquiet => exact (hsaga.not_quiet hquiet).elim
  | reviewed heq => exact (hsaga.not_quiet (by rw [heq]; rfl)).elim
  | committed _ _ _ houtcome => exact .inr ⟨rfl, .inl (hsaga.endsSaga houtcome)⟩
  | compensated => exact .inl ⟨.compensation, rfl, rfl⟩
  | ended houtcome => exact .inr ⟨(endState _).1, .inl (hsaga.endsSaga houtcome)⟩
  | compensationFailed => exact .inl hsaga
  | resumed => exact .inl hsaga
  | lost hoperation => exact .inl ⟨_, rfl, hsaga.running hoperation⟩
  | @interrupted _ operation cancelled hpending hstates =>
    obtain ⟨held, hheld, hheld_saga⟩ := hsaga
    cases hstates.held.symm.trans hheld
    cases cancelled with
    | false => exact .inl ⟨operation, rfl, hheld_saga⟩
    | true => exact .inl ⟨.compensation, rfl, rfl⟩
  | dropped _ hoperation hnot => cases hnot.symm.trans (hsaga.running hoperation)
  | reconciled _ hstates _ hnot =>
    obtain ⟨held, hheld, hheld_saga⟩ := hsaga
    cases hstates.held.symm.trans hheld
    cases hnot.symm.trans hheld_saga
  | restarted hinterrupted hrecovery =>
    obtain ⟨stopped, hcheckpoint⟩ := hs.interrupted hinterrupted
    cases hrecovery.symm.trans hcheckpoint
    obtain ⟨held, hheld, hheld_saga⟩ := hsaga
    cases (held_interrupted hinterrupted hcheckpoint).symm.trans hheld
    exact .inl ⟨stopped, held_running (operation_eq_some.2 rfl), hheld_saga⟩
  | cancelling => exact .inl hsaga
  | cancelled hoperation _ hunknown => exact .inr ⟨rfl, .inr (hsaga.interrupted hoperation hunknown (.inl rfl))⟩
  | failed _ hcommitting hcompensating hunknown _ =>
    have hoperation : s.state.operation = none := by
      refine Option.eq_none_iff_forall_ne_some.2 fun operation hoperation => ?_
      obtain rfl | rfl := isSaga_iff.1 (hsaga.running hoperation)
      · exact hcommitting (operation_eq_some.1 hoperation)
      · exact hcompensating (operation_eq_some.1 hoperation)
    exact .inr ⟨(endState _).1, .inr (hsaga.interrupted hoperation hunknown (.inr ⟨_, rfl⟩))⟩

/-- The saga is entered by its commit. -/
theorem Accepted.enters (h : Accepted s action next effect) (hs : Coherent lib s) (hnext : InSaga next) :
    InSaga s ∨ next.state = .committing := by
  cases h with
  | prepared _ _ hquiet => exact (hnext.not_quiet hquiet).elim
  | checkpointed => exact .inl hnext
  | approved _ _ happroves =>
    have hsaga := hnext.running (operation_eq_some.2 rfl)
    cases (isBillable_of_isSaga hsaga).symm.trans (approves_billable happroves)
  | reviewed => exact .inr rfl
  | committed => cases hnext.not_terminal
  | compensated hopen => exact .inl ⟨.atomicCommit, hopen.held, rfl⟩
  | ended => cases (endState _).1.symm.trans hnext.not_terminal
  | compensationFailed => exact .inl hnext
  | resumed => exact .inl hnext
  | lost hoperation =>
    obtain ⟨held, hheld, hsaga⟩ := hnext
    cases hheld
    exact .inl ⟨_, held_running hoperation, hsaga⟩
  | @interrupted _ operation cancelled _ hstates hsaga =>
    cases cancelled with
    | false =>
      obtain ⟨held, hheld, hheld_saga⟩ := hnext
      cases hheld
      exact .inl ⟨operation, hstates.held, hheld_saga⟩
    | true => exact .inl ⟨operation, hstates.held, hsaga rfl⟩
  | dropped => cases hnext.not_terminal
  | reconciled => cases hnext.not_terminal
  | restarted hinterrupted hrecovery =>
    obtain ⟨stopped, hcheckpoint⟩ := hs.interrupted hinterrupted
    cases hrecovery.symm.trans hcheckpoint
    exact .inl ⟨stopped, held_interrupted hinterrupted hcheckpoint, hnext.running (operation_eq_some.2 rfl)⟩
  | cancelling => exact .inl hnext
  | cancelled => cases hnext.not_terminal
  | failed => cases (endState _).1.symm.trans hnext.not_terminal

/-- An abandoned saga is over. -/
theorem Applies.abandoned {l : DiscoveryStep} {t : ProviderDiscoverySession} (h : Applies lib s l t)
    (habandons : AbandonsSaga s l.action) : t.state.isTerminal = true ∧ ¬ EndsSaga s l.action := by
  obtain ⟨-, happly, rfl⟩ := h
  obtain ⟨-, -, built, hbuilt, -, htransition⟩ := apply_eq_ok happly
  rw [DiscoveryStep.session, htransition]
  obtain ⟨hs, -, haction⟩ := habandons
  have hbuilt : successor lib s l.action = .ok built := hbuilt
  obtain haction | ⟨failure, haction⟩ := haction <;> rw [haction] at hbuilt ⊢
  · unfold successor cancelSession at hbuilt
    rw [hs] at hbuilt
    cases hbuilt
    exact ⟨rfl, fun hends => hends⟩
  · unfold successor failSession at hbuilt
    rw [seq_eq_ok, seq_eq_ok] at hbuilt
    cases hbuilt.2.2
    exact ⟨(endState _).1, fun hends => hends⟩

/-- A cancellation becomes pending by a `Cancel` only. -/
theorem Accepted.pending (h : Accepted s action next effect) (hnot : s.cancellationPending = false)
    (hnext : next.cancellationPending = true) : action = .cancel := by
  cases h with
  | cancelling => rfl
  | committed => cases hnext
  | ended => cases hnext
  | dropped => cases hnext
  | reconciled => cases hnext
  | failed => cases hnext
  | _ => cases hnot.symm.trans hnext

theorem running_not_terminal (h : s.state.operation = some operation) : s.state.isTerminal = false := by
  rw [operation_eq_some.1 h]
  cases operation <;> rfl

/-- A session that ends with a pending cancellation was idle, and is cancelled once more. -/
theorem Accepted.pending_end (h : Accepted s action next effect) (hs : Coherent lib s)
    (hpending : next.cancellationPending = true) (hterminal : next.state.isTerminal = true) :
    action = .cancel ∧ s.state.operation = none ∧ s.state ≠ .unknownOutcome ∧ s.cancellationPending = true := by
  have hstopped : ∀ operation, next.state.operation ≠ some operation := by
    intro operation hoperation
    rw [running_not_terminal hoperation] at hterminal
    cases hterminal
  cases h with
  | @prepared _ state _ _ _ _ hquiet => cases state <;> cases hquiet <;> cases hterminal
  | checkpointed _ heq => exact absurd (operation_eq_some.2 heq) (hstopped .buildAssistantManifestDraft)
  | approved => exact absurd (operation_eq_some.2 rfl) (hstopped _)
  | reviewed => cases hterminal
  | committed => cases hpending
  | compensated => cases hterminal
  | ended => cases hpending
  | compensationFailed heq => exact absurd (operation_eq_some.2 heq) (hstopped .compensation)
  | resumed heq => exact absurd (operation_eq_some.2 heq) (hstopped .compensation)
  | lost => cases hterminal
  | interrupted => cases hterminal
  | dropped => cases hpending
  | reconciled => cases hpending
  | restarted hinterrupted hrecovery =>
    obtain ⟨stopped, hcheckpoint⟩ := hs.interrupted hinterrupted
    cases hrecovery.symm.trans hcheckpoint
    exact absurd (operation_eq_some.2 rfl) (hstopped stopped)
  | cancelling hoperation => exact absurd hoperation (hstopped _)
  | cancelled hoperation _ hunknown => exact ⟨rfl, hoperation, hunknown, hpending⟩
  | failed => cases hpending

/-- What a run keeps whose steps abandon no saga. -/
structure Undropped (lib : DiscoveryLibrary) (trace : List DiscoveryStep) (s : ProviderDiscoverySession) : Prop where
  coherent : Coherent lib s
  kept : s.cancellationPending = true → CancelKept s
  settled : s.state.isTerminal = true → s.cancellationPending = false
  saga : (∃ l ∈ trace, l.session.state = .committing ∨ l.session.state = .compensating) →
    InSaga s ∨ s.state.isTerminal = true

theorem Undropped.step {l : DiscoveryStep} {t : ProviderDiscoverySession} (h : Undropped lib trace s)
    (hstep : Applies lib s l t) (hnot : ¬ AbandonsSaga s l.action) : Undropped lib (trace ++ [l]) t := by
  have hcoherent := hstep.coherent h.coherent
  obtain ⟨-, -, -, hsession, -, -, next, haccepted, rfl⟩ := hstep.accepted
  refine ⟨hcoherent, fun hpending => ?_, fun hterminal => ?_, fun hentered => ?_⟩
  · cases hs : s.cancellationPending with
    | true => exact (haccepted.cancelKept h.coherent (h.kept hs)).1
    | false =>
      have haction := haccepted.pending hs hpending
      rw [haction] at haccepted
      exact haccepted.cancel
  · refine Bool.eq_false_iff.2 fun hpending => ?_
    obtain ⟨haction, hoperation, hunknown, hs⟩ := haccepted.pending_end h.coherent hpending hterminal
    have hrunning := haccepted.not_terminal
    obtain hstate | hstate | ⟨-, operation, hheld, hcompensation⟩ := h.kept hs
    · rw [hstate] at hrunning
      cases hrunning
    · rw [hstate] at hrunning
      cases hrunning
    · have hinterrupted : s.state = .interrupted := by
        by_contra hne
        rw [held_none hoperation hne hunknown] at hheld
        cases hheld
      have hsaga : InSaga s := ⟨operation, hheld, by rw [hcompensation hinterrupted]; rfl⟩
      exact hnot (hsaga.interrupted hoperation hunknown (.inl haction))
  · obtain ⟨x, hx, hstate⟩ := hentered
    rw [List.mem_append, List.mem_singleton] at hx
    obtain hx | rfl := hx
    · obtain hsaga | hterminal := h.saga ⟨x, hx, hstate⟩
      · exact (haccepted.inSaga h.coherent hsaga).imp_right And.left
      · rw [haccepted.not_terminal] at hterminal
        cases hterminal
    · rw [hsession] at hstate
      obtain hstate | hstate := hstate
      · exact .inl ⟨.atomicCommit, held_running (operation_eq_some.2 hstate), rfl⟩
      · exact .inl ⟨.compensation, held_running (operation_eq_some.2 hstate), rfl⟩

theorem undropped_new (hnew : ProviderDiscoverySession.new lib id input = .ok start) : Undropped lib [] start := by
  have hs := new_coherent hnew
  unfold ProviderDiscoverySession.new at hnew
  rw [seq_eq_ok] at hnew
  cases hnew.2
  exact ⟨hs, nofun, fun _ => rfl, fun ⟨_, hl, _⟩ => absurd hl List.not_mem_nil⟩

theorem undropped_step {l : DiscoveryStep} {t : ProviderDiscoverySession}
    (hs : (∀ x ∈ trace, ¬ AbandonsSaga x.before x.action) → Undropped lib trace s) (hstep : Applies lib s l t)
    (hkept : ∀ x ∈ trace ++ [l], ¬ AbandonsSaga x.before x.action) : Undropped lib (trace ++ [l]) t := by
  have hlast := hkept l (List.mem_append_right _ (List.mem_singleton_self l))
  rw [hstep.1] at hlast
  exact (hs fun x hx => hkept x (List.mem_append_left _ hx)).step hstep hlast

/-- A session of the saga comes after a commit that was started. -/
theorem saga_entered (hnew : ProviderDiscoverySession.new lib id input = .ok start)
    (hrun : DiscoveryRun lib start trace s) :
    Coherent lib s ∧ (InSaga s → ∃ l ∈ trace, l.session.state = .committing ∨ l.session.state = .compensating) := by
  refine hrun.inv (I := fun trace s => Coherent lib s ∧
    (InSaga s → ∃ l ∈ trace, l.session.state = .committing ∨ l.session.state = .compensating)) ?_ ?_
  · refine ⟨new_coherent hnew, fun hsaga => ?_⟩
    unfold ProviderDiscoverySession.new at hnew
    rw [seq_eq_ok] at hnew
    cases hnew.2
    exact (hsaga.not_quiet rfl).elim
  · rintro trace s l t ⟨hs, hentered⟩ hstep
    refine ⟨hstep.coherent hs, fun hsaga => ?_⟩
    obtain ⟨-, -, -, hsession, -, -, next, haccepted, rfl⟩ := hstep.accepted
    obtain hsaga | hcommitting := haccepted.enters hs hsaga
    · obtain ⟨x, hx, hstate⟩ := hentered hsaga
      exact ⟨x, List.mem_append_left _ hx, hstate⟩
    · refine ⟨l, List.mem_append_right _ (List.mem_singleton_self l), .inl ?_⟩
      rw [hsession]
      exact hcommitting

/-- **Every commit saga of a run ends by a statement of its outcome, and no session ends with a pending
cancellation**, exactly where no step abandons a saga. -/
theorem saga_ends_stated (hnew : ProviderDiscoverySession.new lib id input = .ok start)
    (hrun : DiscoveryRun lib start trace s) :
    (∀ (before : List DiscoveryStep) l after, trace = before ++ l :: after →
      l.session.state.isTerminal = true → l.session.cancellationPending = false ∧
        ((∃ x ∈ before, x.session.state = .committing ∨ x.session.state = .compensating) →
          EndsSaga l.before l.action)) ↔
      ∀ l ∈ trace, ¬ AbandonsSaga l.before l.action := by
  constructor
  · intro hends l hl habandons
    obtain ⟨before, after, rfl⟩ := List.append_of_mem hl
    obtain ⟨s₁, s₂, hbefore, hstep, -⟩ := hrun.split rfl
    obtain ⟨-, -, hs₁, hsession, -⟩ := hstep.accepted
    rw [hs₁] at habandons
    obtain ⟨hterminal, hnot⟩ := hstep.abandoned habandons
    obtain ⟨hinterrupted, ⟨checkpoint, hrecovery, hsaga⟩, -⟩ := habandons
    have hentered := (saga_entered hnew hbefore).2 ⟨_, held_interrupted hinterrupted hrecovery, hsaga⟩
    have hstated := (hends before l after rfl (by rw [hsession]; exact hterminal)).2 hentered
    rw [hs₁] at hstated
    exact hnot hstated
  · rintro hkept before l after rfl hterminal
    obtain ⟨s₁, s₂, hs₁, hlabel, -⟩ := hrun.at_label (I := fun trace s =>
      (∀ x ∈ trace, ¬ AbandonsSaga x.before x.action) → Undropped lib trace s) (fun _ => undropped_new hnew)
      (fun _ _ _ _ hs hstep => undropped_step hs hstep) rfl
    have hs₁ := hs₁ fun x hx => hkept x (List.mem_append_left _ hx)
    have hnot := hkept l (List.mem_append_right _ List.mem_cons_self)
    rw [hlabel.1] at hnot
    have hs₂ := hs₁.step hlabel hnot
    obtain ⟨-, -, hbefore, hsession, -, -, next, haccepted, rfl⟩ := hlabel.accepted
    rw [hsession] at hterminal ⊢
    refine ⟨hs₂.settled hterminal, fun hentered => ?_⟩
    rw [hbefore]
    obtain hsaga | hover := hs₁.saga hentered
    · obtain hnext | ⟨-, hends | habandons⟩ := haccepted.inSaga hs₁.coherent hsaga
      · cases hterminal.symm.trans hnext.not_terminal
      · exact hends
      · exact absurd habandons hnot
    · cases hover.symm.trans haccepted.not_terminal

/-- A commit that is started, from a template. -/
def commitActions : List ProviderDiscoveryAction :=
  [.begin, .knownProviderCandidatesResolved 1, .selectTemplate "candidate", .manifestValidated sampleDigest false,
    .modelsListed 1 0, .approveReview "approval" "attempt" sampleDigest sampleDigest]

/-- The commit is cancelled and interrupted, and the interrupted session is cancelled again. -/
def abandoningActions : List ProviderDiscoveryAction :=
  commitActions ++
    [ProviderDiscoveryAction.cancel, .interrupt .atomicCommit .confirmedNoExternalEffect, .cancel]

/-- A saga that is abandoned: the session is cancelled with its cancellation still pending. -/
theorem saga_ends_stated_abandoned : ∃ run, replay tideLibrary abandoningActions tideStart = .ok run ∧
    DiscoveryRun tideLibrary tideStart run.1 run.2 ∧ run.1.map (·.action) = abandoningActions ∧
      run.1.map (·.session.state) = [.resolvingKnownProvider, .awaitingTemplateSelection, .validatingManifest,
        .listingModels, .awaitingReview, .committing, .committing, .interrupted, .cancelled] ∧
      run.2.state = .cancelled ∧ run.2.cancellationPending = true := by
  obtain ⟨run, hreplay, hrun⟩ := exists_tideRun abandoningActions (by decide +kernel) (by decide) (by decide +kernel)
  have hmarks : (replay tideLibrary abandoningActions tideStart).toOption.map
      (fun run => (run.1.map (·.session.state), run.2.state, run.2.cancellationPending)) =
        some ([.resolvingKnownProvider, .awaitingTemplateSelection, .validatingManifest, .listingModels,
          .awaitingReview, .committing, .committing, .interrupted, .cancelled], .cancelled, true) := by
    decide +kernel
  rw [hreplay] at hmarks
  obtain ⟨hstates, hmarks⟩ := Prod.mk.inj (Option.some.inj hmarks)
  obtain ⟨hstate, hpending⟩ := Prod.mk.inj hmarks
  exact ⟨run, hreplay, hrun, replay_actions hreplay, hstates, hstate, hpending⟩

/-- A saga that succeeds. -/
theorem saga_ends_stated_tide : ∃ run,
    replay tideLibrary (commitActions ++ [ProviderDiscoveryAction.commitSucceeded "tide"]) tideStart =
        .ok run ∧
      ((∀ (before : List DiscoveryStep) l after, run.1 = before ++ l :: after →
        l.session.state.isTerminal = true → l.session.cancellationPending = false ∧
          ((∃ x ∈ before, x.session.state = .committing ∨ x.session.state = .compensating) →
            EndsSaga l.before l.action)) ↔
        ∀ l ∈ run.1, ¬ AbandonsSaga l.before l.action) := by
  obtain ⟨run, hreplay, hrun⟩ := exists_tideRun
    (commitActions ++ [ProviderDiscoveryAction.commitSucceeded "tide"]) (by decide +kernel) (by decide)
    (by decide +kernel)
  exact ⟨run, hreplay, saga_ends_stated tideStart_new hrun⟩

/-! ## Effects that are issued again -/

/-- The billable or persistent operation that an effect issues. -/
def DiscoveryEffect.issues : DiscoveryEffect → Option DiscoveryOperationKind
  | .buildAssistantManifestDraft _ => some .buildAssistantManifestDraft
  | .probeCapabilities _ => some .probeCapabilities
  | .commitAtomically _ _ => some .atomicCommit
  | .runCompensation _ => some .compensation
  | _ => Option.none

/-- An action that allows to issue an operation again: it approves it, states that it had no effect, or
reports its failure. -/
def Clears (operation : DiscoveryOperationKind) (s : ProviderDiscoverySession) (action : ProviderDiscoveryAction) :
    Prop :=
  (∃ approval, action.approves = some (operation, approval)) ∨
    operation.isSaga = true ∧ action.reviews ≠ none ∨ StatesNoEffect s operation action ∨
      operation = .compensation ∧ ∃ failure, action = .compensationFailed failure

/-- The step issues the operation. -/
def Issues (operation : DiscoveryOperationKind) (l : DiscoveryStep) : Prop := l.effect.issues = some operation

/-- The step clears the operation. -/
def Cleared (operation : DiscoveryOperationKind) (l : DiscoveryStep) : Prop := Clears operation l.before l.action

/-- An operation that the session may issue without an approval. -/
def Reissuable (operation : DiscoveryOperationKind) (s : ProviderDiscoverySession) : Prop :=
  s.state = .interrupted ∧ s.held = some operation ∨
    operation = .compensation ∧
      (s.held = some .atomicCommit ∨ s.state = .compensating ∧ s.failure ≠ none)

theorem issues_quiet (h : effect.isQuiet = true) : effect.issues = none := by
  cases effect <;> first | rfl | cases h

theorem issues_billable {approval : DiscoveryApprovalBinding} (h : operation.isBillable = true) :
    (billableEffect approval operation).issues = some operation := by
  cases operation <;> first | rfl | cases h

/-- What a restart issues is the operation that was interrupted. -/
theorem issues_restart (h : effectForOperation s operation = .ok effect) :
    effect.issues = none ∨ effect.issues = some operation := by
  obtain ⟨_, hbillable, -, rfl⟩ | ⟨_, _, rfl, -, -, rfl⟩ | ⟨_, rfl, rfl⟩ | ⟨-, -, hquiet⟩ :=
    effectForOperation_eq_ok h
  · exact .inr (issues_billable hbillable)
  · exact .inr rfl
  · exact .inr rfl
  · exact .inl (issues_quiet hquiet)

theorem not_reissuable_running (running : DiscoveryOperationKind) (hoperation : s.state.operation = some running)
    (hcommit : running = .atomicCommit → operation ≠ .compensation) (hfailure : s.failure = none) :
    ¬ Reissuable operation s := by
  rintro (⟨hinterrupted, -⟩ | ⟨rfl, hheld | ⟨-, hne⟩⟩)
  · rw [hinterrupted] at hoperation
    cases hoperation
  · cases (held_running hoperation).symm.trans hheld
    exact hcommit rfl rfl
  · exact hne hfailure

theorem not_reissuable_over (hterminal : s.state.isTerminal = true) : ¬ Reissuable operation s := by
  rintro (⟨hinterrupted, -⟩ | ⟨-, hheld | ⟨hcompensating, -⟩⟩)
  · rw [hinterrupted] at hterminal
    cases hterminal
  · cases (held_terminal hterminal).symm.trans hheld
  · rw [hcompensating] at hterminal
    cases hterminal

/-- An operation is issued by an approval, or where the session may issue it again; then it no longer may. -/
theorem Accepted.issues (h : Accepted s action next effect) (hs : Coherent lib s)
    (hissues : effect.issues = some operation) :
    (Clears operation s action ∨ Reissuable operation s) ∧ ¬ Reissuable operation next := by
  cases h with
  | prepared _ _ _ hquiet => cases hissues.symm.trans (issues_quiet hquiet)
  | @approved _ running approval hquiet _ happroves =>
    have hbillable := approves_billable happroves
    cases (issues_billable hbillable).symm.trans hissues
    obtain ⟨-, -, hcompensating, hterminal⟩ := quiet_ne hquiet
    have hfailure : s.failure = none :=
      Option.eq_none_iff_forall_ne_some.2 (hs.no_failure hcompensating hterminal)
    refine ⟨.inl (.inl ⟨approval, happroves⟩), not_reissuable_running _ (operation_eq_some.2 rfl) ?_ hfailure⟩
    rintro rfl
    cases hbillable
  | reviewed hreview hreviews =>
    cases hissues
    have hfailure : s.failure = none := Option.eq_none_iff_forall_ne_some.2
      (hs.no_failure (by rw [hreview]; nofun) (by rw [hreview]; rfl))
    refine ⟨.inl (.inr (.inl ⟨rfl, by rw [hreviews]; nofun⟩)), ?_⟩
    exact not_reissuable_running .atomicCommit rfl nofun hfailure
  | compensated hopen =>
    cases hissues
    obtain ⟨-, hcompensating, hterminal⟩ := hopen.ne
    have hfailure : s.failure = none :=
      Option.eq_none_iff_forall_ne_some.2 (hs.no_failure hcompensating hterminal)
    exact ⟨.inr (.inr ⟨rfl, .inl hopen.held⟩), not_reissuable_running .compensation rfl nofun hfailure⟩
  | resumed hcompensating hfailure =>
    cases hissues
    exact ⟨.inr (.inr ⟨rfl, .inr ⟨hcompensating, hfailure⟩⟩),
      not_reissuable_running .compensation (operation_eq_some.2 hcompensating) nofun rfl⟩
  | restarted hinterrupted hrecovery heffect =>
    obtain ⟨stopped, hcheckpoint⟩ := hs.interrupted hinterrupted
    cases hrecovery.symm.trans hcheckpoint
    obtain hnone | hsome := issues_restart heffect
    · cases hnone.symm.trans hissues
    · cases hsome.symm.trans hissues
      have hfailure : s.failure = none := Option.eq_none_iff_forall_ne_some.2
        (hs.no_failure (by rw [hinterrupted]; nofun) (by rw [hinterrupted]; rfl))
      refine ⟨.inr (.inl ⟨hinterrupted, held_interrupted hinterrupted hcheckpoint⟩), ?_⟩
      refine not_reissuable_running _ (operation_eq_some.2 rfl) ?_ hfailure
      rintro rfl
      nofun
  | cancelling _ heffect =>
    obtain rfl | ⟨rfl, -⟩ := heffect <;> cases hissues
  | _ => cases hissues

/-- A session becomes able to issue an operation again only by an action that clears it. -/
theorem Accepted.reissuable (h : Accepted s action next effect) (hs : Coherent lib s)
    (hnext : Reissuable operation next) (hissues : effect.issues ≠ some operation) :
    Clears operation s action ∨ Reissuable operation s := by
  cases h with
  | prepared hsource _ hquiet =>
    obtain ⟨hinterrupted, -⟩ | ⟨-, hheld | ⟨hcompensating, -⟩⟩ := hnext
    · exact absurd hinterrupted (quiet_ne hquiet).1
    · cases (held_quiet hquiet hheld).2
    · exact absurd hcompensating (quiet_ne hquiet).2.2.1
  | checkpointed => exact .inr hnext
  | approved hquiet _ happroves =>
    obtain ⟨-, -, hcompensating, hterminal⟩ := quiet_ne hquiet
    have hbillable := approves_billable happroves
    refine absurd hnext (not_reissuable_running _ (operation_eq_some.2 rfl) ?_
      (Option.eq_none_iff_forall_ne_some.2 (hs.no_failure hcompensating hterminal)))
    rintro rfl
    cases hbillable
  | reviewed hreview hreviews =>
    obtain ⟨hinterrupted, -⟩ | ⟨rfl, -⟩ := hnext
    · cases hinterrupted
    · exact .inl (.inr (.inl ⟨rfl, by rw [hreviews]; nofun⟩))
  | committed => exact absurd hnext (not_reissuable_over rfl)
  | compensated =>
    obtain ⟨hinterrupted, -⟩ | ⟨rfl, -⟩ := hnext
    · cases hinterrupted
    · exact absurd rfl hissues
  | ended => exact absurd hnext (not_reissuable_over (endState _).1)
  | compensationFailed hcompensating =>
    obtain ⟨hinterrupted, -⟩ | ⟨rfl, -⟩ := hnext
    · cases hcompensating.symm.trans hinterrupted
    · exact .inl (.inr (.inr (.inr ⟨rfl, _, rfl⟩)))
  | resumed hcompensating =>
    obtain ⟨hinterrupted, -⟩ | ⟨rfl, -⟩ := hnext
    · cases hcompensating.symm.trans hinterrupted
    · exact absurd rfl hissues
  | lost hoperation =>
    obtain ⟨hinterrupted, -⟩ | ⟨rfl, hheld | ⟨hcompensating, -⟩⟩ := hnext
    · cases hinterrupted
    · cases hheld
      exact .inr (.inr ⟨rfl, .inl (held_running hoperation)⟩)
    · cases hcompensating
  | @interrupted _ stated cancelled _ hstates hsaga =>
    obtain ⟨-, hheld⟩ | ⟨rfl, hheld | ⟨hcompensating, -⟩⟩ := hnext
    · cases cancelled with
      | false =>
        cases hheld
        exact .inl (.inr (.inr (.inl hstates)))
      | true =>
        cases hheld
        obtain rfl | rfl := isSaga_iff.1 (hsaga rfl)
        · exact .inr (.inr ⟨rfl, .inl hstates.held⟩)
        · exact .inl (.inr (.inr (.inl hstates)))
    · cases cancelled with
      | false =>
        cases hheld
        exact .inr (.inr ⟨rfl, .inl hstates.held⟩)
      | true => cases hheld
    · cases hcompensating
  | dropped => exact absurd hnext (not_reissuable_over rfl)
  | reconciled => exact absurd hnext (not_reissuable_over rfl)
  | restarted hinterrupted hrecovery heffect =>
    obtain ⟨stopped, hcheckpoint⟩ := hs.interrupted hinterrupted
    cases hrecovery.symm.trans hcheckpoint
    have hfailure : s.failure = none := Option.eq_none_iff_forall_ne_some.2
      (hs.no_failure (by rw [hinterrupted]; nofun) (by rw [hinterrupted]; rfl))
    by_cases hcommit : stopped = .atomicCommit → operation ≠ .compensation
    · exact absurd hnext (not_reissuable_running _ (operation_eq_some.2 rfl) hcommit hfailure)
    · rw [Classical.not_imp, ne_eq, not_not] at hcommit
      obtain ⟨rfl, rfl⟩ := hcommit
      exact .inr (.inr ⟨rfl, .inl (held_interrupted hinterrupted hcheckpoint)⟩)
  | cancelling => exact .inr hnext
  | cancelled => exact absurd hnext (not_reissuable_over rfl)
  | failed => exact absurd hnext (not_reissuable_over (endState _).1)

/-- Between two emissions of an operation there is an action that clears it. -/
theorem issued_again (hnew : ProviderDiscoverySession.new lib id input = .ok start)
    (hrun : DiscoveryRun lib start trace s) {first between last : List DiscoveryStep} {l k : DiscoveryStep}
    (htrace : trace = first ++ l :: (between ++ k :: last)) (hl : Issues operation l) (hk : Issues operation k) :
    ∃ x ∈ between ++ [k], Cleared operation x := by
  have hstart : Coherent lib start ∧ (Outstanding (Issues operation) (Cleared operation) [] → ¬ Reissuable operation start) :=
    ⟨new_coherent hnew, fun h => absurd h not_outstanding_nil⟩
  have hstep : ∀ trace s l t, (Coherent lib s ∧
      (Outstanding (Issues operation) (Cleared operation) trace → ¬ Reissuable operation s)) → Applies lib s l t →
      Coherent lib t ∧
        (Outstanding (Issues operation) (Cleared operation) (trace ++ [l]) → ¬ Reissuable operation t) := by
    rintro trace s l t ⟨hs, hnot⟩ hstep
    refine ⟨hstep.coherent hs, fun houtstanding => ?_⟩
    obtain ⟨-, -, hbefore, -, -, -, next, haccepted, rfl⟩ := hstep.accepted
    by_cases hissues : Issues operation l
    · exact (haccepted.issues hs hissues).2
    · obtain ⟨houtstanding, hclears⟩ := outstanding_concat hissues houtstanding
      intro hnext
      rw [Cleared, hbefore] at hclears
      obtain hcleared | hreissuable := haccepted.reissuable hs hnext hissues
      · exact hclears hcleared
      · exact hnot houtstanding hreissuable
  refine clears_between ?_ htrace hl hk
  rintro before x after rfl hissues
  obtain ⟨s₁, s₂, ⟨hs₁, hnot⟩, hlabel, -⟩ := hrun.at_label hstart hstep rfl
  obtain ⟨-, -, hbefore, -, -, -, next, haccepted, rfl⟩ := hlabel.accepted
  rw [Cleared, hbefore]
  obtain hclears | hreissuable := (haccepted.issues hs₁ hissues).1
  · exact .inl hclears
  · exact .inr fun houtstanding => hnot houtstanding hreissuable

/-! ## Approvals and reviews -/

/-- The approval that a billable effect carries. -/
def DiscoveryEffect.approval : DiscoveryEffect → Option DiscoveryApprovalBinding
  | .buildAssistantManifestDraft approval => some approval
  | .probeCapabilities approval => some approval
  | _ => Option.none

/-- The approval that a step gives. -/
def DiscoveryStep.approves (l : DiscoveryStep) : Option DiscoveryApprovalBinding := l.action.approves.map (·.2)

theorem billableEffect_approval (approval : DiscoveryApprovalBinding) (operation : DiscoveryOperationKind) :
    (billableEffect approval operation).approval = some approval := by
  cases operation <;> rfl

theorem StatesNoEffect.approves (h : StatesNoEffect s operation action) : action.approves = none := by
  cases action <;> first | rfl | exact h.elim

theorem StatesOutcome.approves (h : StatesOutcome s action) : action.approves = none := by
  cases action <;> first | rfl | exact h.elim

theorem StatesNoEffect.reviews (h : StatesNoEffect s operation action) : action.reviews = none := by
  cases action <;> first | rfl | exact h.elim

theorem StatesOutcome.reviews (h : StatesOutcome s action) : action.reviews = none := by
  cases action <;> first | rfl | exact h.elim

theorem approves_of_reviews {review : DiscoveryCommitAttemptId × String} (h : action.reviews = some review) :
    action.approves = none := by
  cases action <;> first | rfl | cases h

theorem reviews_of_approves {approval : DiscoveryOperationKind × DiscoveryApprovalBinding}
    (h : action.approves = some approval) : action.reviews = none := by
  cases action <;> first | rfl | cases h

/-- An approval is kept from the session, or it is the one of the action. -/
theorem Accepted.approval {approval : DiscoveryApprovalBinding} (h : Accepted s action next effect)
    (hnext : next.activeEffectApproval = some approval) :
    action.approves.map (·.2) = some approval ∨ action.approves = none ∧ s.activeEffectApproval = some approval := by
  cases h with
  | prepared => cases hnext
  | checkpointed => exact .inr ⟨rfl, hnext⟩
  | approved _ _ happroves =>
    cases hnext
    exact .inl (by rw [happroves]; rfl)
  | reviewed _ hreviews => exact .inr ⟨approves_of_reviews hreviews, hnext⟩
  | committed _ _ _ houtcome => exact .inr ⟨houtcome.approves, hnext⟩
  | compensated _ hplain => exact .inr ⟨hplain.1, hnext⟩
  | ended => cases hnext
  | compensationFailed => exact .inr ⟨rfl, hnext⟩
  | resumed => exact .inr ⟨rfl, hnext⟩
  | lost _ _ hplain => exact .inr ⟨hplain.1, hnext⟩
  | interrupted _ hstates => exact .inr ⟨hstates.approves, hnext⟩
  | dropped => cases hnext
  | reconciled _ hstates => exact .inr ⟨hstates.approves, hnext⟩
  | restarted => exact .inr ⟨rfl, hnext⟩
  | cancelling => exact .inr ⟨rfl, hnext⟩
  | cancelled => cases hnext
  | failed => cases hnext

/-- The approval of an effect is kept from the session, or it is the one of the action. -/
theorem Accepted.carried {approval : DiscoveryApprovalBinding} (h : Accepted s action next effect)
    (heffect : effect.approval = some approval) :
    action.approves.map (·.2) = some approval ∨ action.approves = none ∧ s.activeEffectApproval = some approval := by
  cases h with
  | prepared _ _ _ hquiet => cases effect <;> cases hquiet <;> cases heffect
  | @approved _ operation binding _ _ happroves =>
    rw [billableEffect_approval] at heffect
    rw [happroves]
    exact .inl heffect
  | restarted _ _ hok =>
    obtain ⟨_, hbillable, happroval, rfl⟩ | ⟨_, _, -, -, -, rfl⟩ | ⟨_, -, rfl⟩ | ⟨-, -, hquiet⟩ :=
      effectForOperation_eq_ok hok
    · rw [billableEffect_approval] at heffect
      exact .inr ⟨rfl, happroval.trans heffect⟩
    · cases heffect
    · cases heffect
    · cases effect <;> cases hquiet <;> cases heffect
  | cancelling _ hcancel =>
    obtain rfl | ⟨rfl, -⟩ := hcancel <;> cases heffect
  | _ => cases heffect

/-- An attempt and a plan are those of the action that approves a review, and are kept from then on. -/
theorem Accepted.review (h : Accepted s action next effect) :
    (∃ attempt plan, action.reviews = some (attempt, plan) ∧ next.commitAttemptId = some attempt ∧
        next.commitPlanSha256 = some plan ∧ s.state = .awaitingReview ∧ next.state = .committing ∧
        effect = .commitAtomically attempt plan) ∨
      action.reviews = none ∧ next.commitAttemptId = s.commitAttemptId ∧
        next.commitPlanSha256 = s.commitPlanSha256 ∧
        ∀ attempt plan, effect = .commitAtomically attempt plan →
          s.commitAttemptId = some attempt ∧ s.commitPlanSha256 = some plan := by
  cases h with
  | prepared _ _ _ hquiet hplain =>
    refine .inr ⟨hplain.2.1, rfl, rfl, fun attempt plan heffect => ?_⟩
    rw [heffect] at hquiet
    cases hquiet
  | checkpointed => exact .inr ⟨rfl, rfl, rfl, nofun⟩
  | @approved _ operation _ _ _ happroves =>
    refine .inr ⟨reviews_of_approves happroves, rfl, rfl, fun attempt plan heffect => ?_⟩
    cases operation <;> cases heffect
  | reviewed hreview hreviews => exact .inl ⟨_, _, hreviews, rfl, rfl, hreview, rfl, rfl⟩
  | committed _ _ _ houtcome => exact .inr ⟨houtcome.reviews, rfl, rfl, nofun⟩
  | compensated _ hplain => exact .inr ⟨hplain.2.1, rfl, rfl, nofun⟩
  | ended houtcome => exact .inr ⟨houtcome.reviews, rfl, rfl, nofun⟩
  | compensationFailed => exact .inr ⟨rfl, rfl, rfl, nofun⟩
  | resumed => exact .inr ⟨rfl, rfl, rfl, nofun⟩
  | lost _ _ hplain => exact .inr ⟨hplain.2.1, rfl, rfl, nofun⟩
  | interrupted _ hstates => exact .inr ⟨hstates.reviews, rfl, rfl, nofun⟩
  | dropped _ _ _ _ hreviews => exact .inr ⟨hreviews, rfl, rfl, nofun⟩
  | reconciled _ hstates => exact .inr ⟨hstates.reviews, rfl, rfl, nofun⟩
  | @restarted checkpoint _ _ _ hok =>
    refine .inr ⟨rfl, rfl, rfl, fun attempt plan heffect => ?_⟩
    obtain ⟨_, -, -, rfl⟩ | ⟨_, _, -, hattempt, hplan, rfl⟩ | ⟨_, -, rfl⟩ | ⟨-, -, hquiet⟩ :=
      effectForOperation_eq_ok hok
    · cases hoperation : checkpoint.operation <;> rw [hoperation] at heffect <;> cases heffect
    · cases heffect
      exact ⟨hattempt, hplan⟩
    · cases heffect
    · rw [heffect] at hquiet
      cases hquiet
  | cancelling _ hcancel =>
    refine .inr ⟨rfl, rfl, rfl, fun attempt plan heffect => ?_⟩
    obtain rfl | ⟨rfl, -⟩ := hcancel <;> cases heffect
  | cancelled => exact .inr ⟨rfl, rfl, rfl, nofun⟩
  | failed => exact .inr ⟨rfl, rfl, rfl, nofun⟩

/-- What a run keeps of its approvals and its review. -/
structure Disciplined (lib : DiscoveryLibrary) (trace : List DiscoveryStep) (s : ProviderDiscoverySession) :
    Prop where
  coherent : Coherent lib s
  approval : ∀ approval, s.activeEffectApproval = some approval →
    lastSome DiscoveryStep.approves trace = some approval
  review : ∀ attempt plan, s.commitAttemptId = some attempt → s.commitPlanSha256 = some plan →
    ∃ x ∈ trace, x.action.reviews = some (attempt, plan)

theorem disciplined_new (hnew : ProviderDiscoverySession.new lib id input = .ok start) : Disciplined lib [] start := by
  have hs := new_coherent hnew
  unfold ProviderDiscoverySession.new at hnew
  rw [seq_eq_ok] at hnew
  cases hnew.2
  exact ⟨hs, nofun, nofun⟩

/-- What an effect carries was given by the last approval, or by the review. -/
theorem Disciplined.carried {l : DiscoveryStep} {t : ProviderDiscoverySession} (h : Disciplined lib trace s)
    (hstep : Applies lib s l t) :
    (∀ approval, l.effect.approval = some approval →
      lastSome DiscoveryStep.approves (trace ++ [l]) = some approval) ∧
      ∀ attempt plan, l.effect = .commitAtomically attempt plan →
        ∃ x ∈ trace ++ [l], x.action.reviews = some (attempt, plan) := by
  obtain ⟨-, -, -, -, -, -, next, haccepted, rfl⟩ := hstep.accepted
  constructor
  · intro approval heffect
    rw [lastSome_concat, DiscoveryStep.approves]
    obtain happroves | ⟨happroves, hstored⟩ := haccepted.carried heffect
    · rw [happroves]
      rfl
    · rw [happroves]
      exact h.approval approval hstored
  · intro attempt plan heffect
    obtain ⟨_, _, hreviews, -, -, -, -, hcommit⟩ | ⟨-, -, -, hstored⟩ := haccepted.review
    · cases heffect.symm.trans hcommit
      exact ⟨l, List.mem_append_right _ (List.mem_singleton_self l), hreviews⟩
    · obtain ⟨hattempt, hplan⟩ := hstored attempt plan heffect
      obtain ⟨x, hx, hreviews⟩ := h.review attempt plan hattempt hplan
      exact ⟨x, List.mem_append_left _ hx, hreviews⟩

theorem Disciplined.step {l : DiscoveryStep} {t : ProviderDiscoverySession} (h : Disciplined lib trace s)
    (hstep : Applies lib s l t) : Disciplined lib (trace ++ [l]) t := by
  have hcoherent := hstep.coherent h.coherent
  obtain ⟨-, -, -, -, -, -, next, haccepted, rfl⟩ := hstep.accepted
  refine ⟨hcoherent, fun approval hnext => ?_, fun attempt plan hattempt hplan => ?_⟩
  · rw [lastSome_concat, DiscoveryStep.approves]
    obtain happroves | ⟨happroves, hstored⟩ := haccepted.approval hnext
    · rw [happroves]
      rfl
    · rw [happroves]
      exact h.approval approval hstored
  · have hattempt : next.commitAttemptId = some attempt := hattempt
    have hplan : next.commitPlanSha256 = some plan := hplan
    obtain ⟨_, _, hreviews, hattempt', hplan', -⟩ | ⟨-, hattempt', hplan', -⟩ := haccepted.review
    · cases hattempt.symm.trans hattempt'
      cases hplan.symm.trans hplan'
      exact ⟨l, List.mem_append_right _ (List.mem_singleton_self l), hreviews⟩
    · obtain ⟨x, hx, hreviews⟩ := h.review attempt plan (hattempt'.symm.trans hattempt) (hplan'.symm.trans hplan)
      exact ⟨x, List.mem_append_left _ hx, hreviews⟩

/-- A session whose review was approved keeps the attempt and the plan. -/
structure Reviewed (lib : DiscoveryLibrary) (attempt : DiscoveryCommitAttemptId) (plan : String)
    (s : ProviderDiscoverySession) : Prop where
  coherent : Coherent lib s
  attempt : s.commitAttemptId = some attempt
  plan : s.commitPlanSha256 = some plan
  saga : InSaga s ∨ s.state.isTerminal = true

theorem Reviewed.step {attempt : DiscoveryCommitAttemptId} {plan : String} {l : DiscoveryStep}
    {t : ProviderDiscoverySession} (h : Reviewed lib attempt plan s) (hstep : Applies lib s l t) :
    Reviewed lib attempt plan t ∧
      ∀ a p, l.effect = .commitAtomically a p → a = attempt ∧ p = plan := by
  have hcoherent := hstep.coherent h.coherent
  obtain ⟨-, -, -, -, -, -, next, haccepted, rfl⟩ := hstep.accepted
  obtain hsaga | hover := h.saga
  · obtain ⟨_, _, -, -, -, hreview, -⟩ | ⟨-, hattempt, hplan, heffect⟩ := haccepted.review
    · exact (hsaga.not_quiet (by rw [hreview]; rfl)).elim
    · refine ⟨⟨hcoherent, hattempt.trans h.attempt, hplan.trans h.plan, ?_⟩, fun a p hcommit => ?_⟩
      · exact (haccepted.inSaga h.coherent hsaga).imp_right And.left
      · obtain ⟨ha, hp⟩ := heffect a p hcommit
        exact ⟨Option.some.inj (ha.symm.trans h.attempt), Option.some.inj (hp.symm.trans h.plan)⟩
  · cases hover.symm.trans haccepted.not_terminal

/-- **The discipline of effects** in every run: an operation is issued again only after an action that
clears it; a billable effect carries the last approval; the attempt and the plan of a commit are those of
the review, and never change. -/
theorem effects_disciplined (hnew : ProviderDiscoverySession.new lib id input = .ok start)
    (hrun : DiscoveryRun lib start trace s) :
    (∀ operation (first : List DiscoveryStep) l between k last, trace = first ++ l :: (between ++ k :: last) →
      Issues operation l → Issues operation k → ∃ x ∈ between ++ [k], Cleared operation x) ∧
      (∀ (before : List DiscoveryStep) l after, trace = before ++ l :: after →
        (∀ approval, l.effect.approval = some approval →
          lastSome DiscoveryStep.approves (before ++ [l]) = some approval) ∧
        ∀ attempt plan, l.effect = .commitAtomically attempt plan →
          ∃ x ∈ before ++ [l], x.action.reviews = some (attempt, plan)) ∧
      ∀ (before : List DiscoveryStep) l after attempt plan, trace = before ++ l :: after →
        l.action.reviews = some (attempt, plan) → ∀ x ∈ l :: after,
          x.session.commitAttemptId = some attempt ∧ x.session.commitPlanSha256 = some plan ∧
          ∀ a p, x.effect = .commitAtomically a p → a = attempt ∧ p = plan := by
  refine ⟨fun operation first l between k last htrace hl hk => issued_again hnew hrun htrace hl hk, ?_, ?_⟩
  · intro before l after htrace
    obtain ⟨s₁, s₂, hs₁, hlabel, -⟩ := hrun.at_label (disciplined_new hnew) (fun _ _ _ _ h hstep => h.step hstep) htrace
    exact hs₁.carried hlabel
  · intro before l after attempt plan htrace hreviews
    obtain ⟨s₁, s₂, hs₁, hlabel, hafter⟩ := hrun.at_label (I := fun _ s => Coherent lib s) (new_coherent hnew)
      (fun _ _ _ _ hs hstep => hstep.coherent hs) htrace
    have hs₂ := hlabel.coherent hs₁
    obtain ⟨-, -, -, hsession, -, -, next, haccepted, rfl⟩ := hlabel.accepted
    obtain ⟨_, _, hreviews', hattempt, hplan, -, hcommitting, heffect⟩ | ⟨hnone, -⟩ := haccepted.review
    · cases hreviews.symm.trans hreviews'
      have hreviewed : Reviewed lib attempt plan (counted s₁ next) :=
        ⟨hs₂, hattempt, hplan, .inl ⟨.atomicCommit, held_running (operation_eq_some.2 hcommitting), rfl⟩⟩
      have hall := (hafter.since hreviewed (Q := fun x => x.session.commitAttemptId = some attempt ∧
        x.session.commitPlanSha256 = some plan ∧ ∀ a p, x.effect = .commitAtomically a p → a = attempt ∧ p = plan)
        fun s l t hs hstep => ?_).2
      · intro x hx
        obtain rfl | hx := List.mem_cons.1 hx
        · refine ⟨by rw [hsession]; exact hattempt, by rw [hsession]; exact hplan, fun a p hcommit => ?_⟩
          cases heffect.symm.trans hcommit
          exact ⟨rfl, rfl⟩
        · exact hall x hx
      · obtain ⟨ht, hcommit⟩ := hs.step hstep
        rw [hstep.2.2] at ht
        exact ⟨by rw [hstep.2.2]; exact ht, ht.attempt, ht.plan, hcommit⟩
    · cases hnone.symm.trans hreviews

/-- The draft of an assistant is interrupted without effect and restarted. -/
def restartingActions : List ProviderDiscoveryAction :=
  assistantActions ++
    [ProviderDiscoveryAction.interrupt .buildAssistantManifestDraft .confirmedNoExternalEffect, .restartInterrupted]

theorem effects_disciplined_tide : ∃ run, replay tideLibrary restartingActions tideStart = .ok run ∧
    ∀ operation (first : List DiscoveryStep) l between k last, run.1 = first ++ l :: (between ++ k :: last) →
      Issues operation l → Issues operation k → ∃ x ∈ between ++ [k], Cleared operation x := by
  obtain ⟨run, hreplay, hrun⟩ := exists_tideRun restartingActions (by decide +kernel) (by decide) (by decide +kernel)
  exact ⟨run, hreplay, (effects_disciplined tideStart_new hrun).1⟩

end LorePia.Discovery
