import LorePia.Domain.Proof.DiscoveryCoherent

/-!
# Runs of provider discovery

A run is the accepted `apply` calls from a new session. Every session of a run is coherent
(`coherent_of_run`), so its validator refuses only stranding actions (`apply_refused_iff`). A cancellation
sticks (`cancellation_sticky`), a commit saga ends by a statement of its outcome unless it is abandoned
(`saga_ends_stated`), and effects are issued again only after a statement about the earlier attempt
(`effects_disciplined`).
-/

namespace LorePia.Discovery

open Base

/-! ## Steps -/

/-- An accepted `apply` call. -/
structure DiscoveryStep where
  before : ProviderDiscoverySession
  envelope : DiscoveryActionEnvelope
  transition : DiscoveryTransition

def DiscoveryStep.action (l : DiscoveryStep) : ProviderDiscoveryAction := l.envelope.action

def DiscoveryStep.effect (l : DiscoveryStep) : DiscoveryEffect := l.transition.effect

def DiscoveryStep.session (l : DiscoveryStep) : ProviderDiscoverySession := l.transition.session

variable {lib : DiscoveryLibrary} {id : DiscoverySessionId} {input : SanitizedDiscoveryInput}
  {start s t next : ProviderDiscoverySession} {action : ProviderDiscoveryAction} {effect : DiscoveryEffect}
  {operation : DiscoveryOperationKind} {l : DiscoveryStep} {trace : List DiscoveryStep}

/-- The step is an `apply` call that is accepted. -/
def Applies (lib : DiscoveryLibrary) (s : ProviderDiscoverySession) (l : DiscoveryStep)
    (t : ProviderDiscoverySession) : Prop :=
  l.before = s ∧ s.apply lib l.envelope = .ok l.transition ∧ t = l.session

/-- The runs of a session. -/
abbrev DiscoveryRun (lib : DiscoveryLibrary) (start : ProviderDiscoverySession) (trace : List DiscoveryStep)
    (s : ProviderDiscoverySession) : Prop :=
  Execution (Applies lib) start trace s

theorem apply_eq_ok {envelope : DiscoveryActionEnvelope} {transition : DiscoveryTransition}
    (h : s.apply lib envelope = .ok transition) :
    Valid lib s ∧ envelope.expectedRevision = s.revision ∧ ∃ built,
      successor lib s envelope.action = .ok built ∧ Valid lib (counted s built.next) ∧
        transition = transitionTo s envelope built (counted s built.next) := by
  unfold ProviderDiscoverySession.apply at h
  rw [seq_eq_ok, mapErr_eq_ok, validate_eq_ok, seq_eq_ok, seq_eq_ok, rejectIf_eq_ok, not_not, bind_eq_ok] at h
  obtain ⟨hvalid, -, hrevision, built, hbuilt, h⟩ := h
  simp only [bind_eq_ok, okOr_eq_ok, checkedAdd_eq_some] at h
  obtain ⟨revision, ⟨-, rfl⟩, sequence, ⟨-, rfl⟩, ⟨⟩, hnext, h⟩ := h
  rw [mapErr_eq_ok, validate_eq_ok] at hnext
  cases h
  exact ⟨hvalid, hrevision, built, hbuilt, hnext, rfl⟩

theorem Applies.accepted (h : Applies lib s l t) : Valid lib s ∧ Valid lib t ∧
    l.before = s ∧ l.session = t ∧ l.envelope.expectedRevision = s.revision ∧
    l.transition.event.sequence = s.nextEventSequence ∧
    ∃ next, Accepted s l.action next l.effect ∧ t = counted s next := by
  obtain ⟨hbefore, happly, rfl⟩ := h
  obtain ⟨hvalid, hrevision, built, hbuilt, hnext, htransition⟩ := apply_eq_ok happly
  refine ⟨hvalid, ?_, hbefore, rfl, hrevision, ?_, built.next, ?_, ?_⟩
  · rw [DiscoveryStep.session, htransition]
    exact hnext
  · rw [htransition]
    rfl
  · rw [DiscoveryStep.effect, htransition]
    exact successor_accepted hvalid hbuilt
  · rw [DiscoveryStep.session, htransition]
    rfl

theorem new_coherent (h : ProviderDiscoverySession.new lib id input = .ok start) : Coherent lib start := by
  unfold ProviderDiscoverySession.new at h
  rw [seq_eq_ok] at h
  obtain ⟨hinput, h⟩ := h
  cases h
  exact
    { input := hinput
      sequence := nofun
      plan := nofun
      manifest := nofun
      binding := nofun
      failureText := nofun
      failure := fun hne => absurd rfl hne
      interrupted := nofun
      recovery := fun _ => rfl
      unknown := nofun
      unknownOperation := fun _ => rfl
      approval := approval_iff_of_none rfl nofun
      commit := nofun
      ready := nofun }

theorem Applies.coherent (hs : Coherent lib s) (h : Applies lib s l t) : Coherent lib t := by
  obtain ⟨-, happly, rfl⟩ := h
  obtain ⟨hvalid, -, built, hbuilt, hnext, htransition⟩ := apply_eq_ok happly
  rw [DiscoveryStep.session, htransition]
  refine (Accepted.coherent (successor_accepted hvalid hbuilt) hs fun hstranding => ?_).counted
  rw [hstranding.successor, Except.ok.injEq] at hbuilt
  subst hbuilt
  have hrefused := validate_eq_ok.2 hnext
  rw [hstranding.refused hs] at hrefused
  cases hrefused

theorem coherent_of_run (hnew : ProviderDiscoverySession.new lib id input = .ok start)
    (hrun : DiscoveryRun lib start trace s) : Coherent lib s :=
  hrun.inv (new_coherent hnew) fun _ _ _ _ hs hstep => hstep.coherent hs

theorem Accepted.not_terminal (h : Accepted s action next effect) : s.state.isTerminal = false := by
  refine Bool.eq_false_iff.2 fun hterminal => ?_
  have hheld := held_terminal hterminal
  have hne : s.state ≠ .unknownOutcome ∧ s.state ≠ .interrupted ∧ s.state ≠ .compensating := by
    refine ⟨?_, ?_, ?_⟩ <;> intro heq <;> rw [heq] at hterminal <;> cases hterminal
  cases h with
  | prepared hsource =>
    obtain hquiet | heq | heq := hsource
    · rw [(quiet_ne hquiet).2.2.2] at hterminal
      cases hterminal
    · rw [heq] at hterminal
      cases hterminal
    · rw [heq] at hterminal
      cases hterminal
  | checkpointed _ heq =>
    rw [heq] at hterminal
    cases hterminal
  | approved hquiet =>
    rw [(quiet_ne hquiet).2.2.2] at hterminal
    cases hterminal
  | reviewed heq =>
    rw [heq] at hterminal
    cases hterminal
  | committed _ hopen => cases hheld.symm.trans hopen.held
  | compensated hopen => cases hheld.symm.trans hopen.held
  | ended houtcome => exact houtcome.not_terminal hterminal
  | compensationFailed heq => exact hne.2.2 heq
  | resumed heq => exact hne.2.2 heq
  | lost hoperation => cases hheld.symm.trans (held_running hoperation)
  | interrupted _ hstates => cases hheld.symm.trans hstates.held
  | dropped _ hoperation => cases hheld.symm.trans (held_running hoperation)
  | reconciled _ hstates => cases hheld.symm.trans hstates.held
  | restarted heq => exact hne.2.1 heq
  | cancelling hoperation => cases hheld.symm.trans (held_running hoperation)
  | cancelled _ hended =>
    rw [hended] at hterminal
    cases hterminal
  | failed hended =>
    rw [hended] at hterminal
    cases hterminal

/-! ## The validator never wedges a session, but for stranding actions -/

theorem apply_of_successor {envelope : DiscoveryActionEnvelope} (hs : Coherent lib s)
    (henvelope : envelope.validate = .ok ()) (hrevision : envelope.expectedRevision = s.revision)
    (hroom : s.revision < usizeMax) (hevents : s.nextEventSequence < usizeMax) :
    s.apply lib envelope = (do
      let built ← successor lib s envelope.action
      mapErr .invalidSession ((counted s built.next).validate lib)
      pure (transitionTo s envelope built (counted s built.next))) := by
  have hcount : checkedAdd s.revision 1 = some (s.revision + 1) := checkedAdd_eq_some.2 ⟨hroom, rfl⟩
  have hsequence : checkedAdd s.nextEventSequence 1 = some (s.nextEventSequence + 1) :=
    checkedAdd_eq_some.2 ⟨hevents, rfl⟩
  unfold ProviderDiscoverySession.apply
  rw [validate_eq_ok.2 hs.valid, henvelope, hcount, hsequence]
  unfold rejectIf
  rw [if_neg (not_not.2 hrevision)]
  rfl

/-- **A stranding action fails** on the session that it would lead to. -/
theorem Stranding.apply {envelope : DiscoveryActionEnvelope} (h : Stranding s envelope.action)
    (hs : Coherent lib s) (henvelope : envelope.validate = .ok ()) (hrevision : envelope.expectedRevision = s.revision)
    (hroom : s.revision < usizeMax) (hevents : s.nextEventSequence < usizeMax) :
    s.apply lib envelope = .error (.invalidSession strandedError) := by
  rw [apply_of_successor hs henvelope hrevision hroom hevents, h.successor, ok_bind, h.refused hs]
  rfl

theorem apply_refused_iff {envelope : DiscoveryActionEnvelope} (hs : Coherent lib s)
    (henvelope : envelope.validate = .ok ()) (hrevision : envelope.expectedRevision = s.revision)
    (hroom : s.revision < usizeMax) (hevents : s.nextEventSequence < usizeMax) :
    ((∃ transition, s.apply lib envelope = .ok transition) ∨
        ∃ e, s.apply lib envelope = .error e ∧ Refusal s envelope.action e) ↔ ¬ Stranding s envelope.action := by
  constructor
  · rintro h hstranding
    rw [hstranding.apply hs henvelope hrevision hroom hevents] at h
    obtain ⟨transition, h⟩ | ⟨e, he, hrefusal⟩ := h
    · cases h
    · cases he
      exact hrefusal.elim
  · intro hnot
    rw [apply_of_successor hs henvelope hrevision hroom hevents]
    cases hsuccessor : successor lib s envelope.action with
    | error e => exact .inr ⟨e, rfl, hs.successor_refuses e hsuccessor⟩
    | ok built =>
      have hnext := ((successor_accepted hs.valid hsuccessor).coherent hs hnot).counted (s := s)
      rw [ok_bind, validate_eq_ok.2 hnext.valid]
      exact .inl ⟨_, rfl⟩

theorem Applies.counters {n : Nat} (h : Applies lib s l t) (hrevision : s.revision = n)
    (hsequence : s.nextEventSequence = n + 1) :
    l.envelope.expectedRevision = n ∧ l.transition.event.sequence = n + 1 ∧ t.revision = n + 1 ∧
      t.nextEventSequence = n + 2 := by
  obtain ⟨-, -, -, -, hexpected, hevent, next, -, rfl⟩ := h.accepted
  refine ⟨hexpected.trans hrevision, hevent.trans hsequence, ?_, ?_⟩
  · exact congrArg (· + 1) hrevision
  · exact congrArg (· + 1) hsequence

/-- The counters of a run count its steps. -/
theorem counters_of_run (hnew : ProviderDiscoverySession.new lib id input = .ok start)
    (hrun : DiscoveryRun lib start trace s) :
    s.revision = trace.length ∧ s.nextEventSequence = trace.length + 1 ∧
      trace.map (·.envelope.expectedRevision) = List.range trace.length := by
  refine hrun.inv (I := fun trace s => s.revision = trace.length ∧ s.nextEventSequence = trace.length + 1 ∧
    trace.map (·.envelope.expectedRevision) = List.range trace.length) ?_ ?_
  · unfold ProviderDiscoverySession.new at hnew
    rw [seq_eq_ok] at hnew
    cases hnew.2
    exact ⟨rfl, rfl, rfl⟩
  · rintro trace s l t ⟨hrevision, hsequence, hmap⟩ hstep
    obtain ⟨hexpected, -, hnext, hevents⟩ := hstep.counters hrevision hsequence
    rw [List.length_append, List.map_append, hmap, List.length_singleton, List.range_succ]
    exact ⟨hnext, hevents, by rw [List.map_singleton, hexpected]⟩

/-- **In every run**, `apply` accepts or refuses an action but for a stranding one; it numbers what it
accepts, accepts nothing at the end and never two actions for one revision. -/
theorem apply_accepts_or_refuses (hnew : ProviderDiscoverySession.new lib id input = .ok start)
    (hrun : DiscoveryRun lib start trace s) :
    (∀ envelope : DiscoveryActionEnvelope, envelope.validate = .ok () → envelope.expectedRevision = s.revision →
      s.revision < usizeMax → s.nextEventSequence < usizeMax →
      (((∃ transition, s.apply lib envelope = .ok transition) ∨
          ∃ e, s.apply lib envelope = .error e ∧ Refusal s envelope.action e) ↔ ¬ Stranding s envelope.action)) ∧
      (∀ envelope transition, s.apply lib envelope = .ok transition →
        s.state.isTerminal = false ∧ transition.session.revision = s.revision + 1 ∧
          transition.event.sequence = trace.length + 1) ∧
      (trace.map (·.envelope.expectedRevision)).Nodup := by
  have hs := coherent_of_run hnew hrun
  obtain ⟨hrevision, hsequence, hmap⟩ := counters_of_run hnew hrun
  refine ⟨fun envelope => apply_refused_iff hs, fun envelope transition happly => ?_, ?_⟩
  · have hstep : Applies lib s ⟨s, envelope, transition⟩ transition.session := ⟨rfl, happly, rfl⟩
    obtain ⟨-, hevent, hnext, -⟩ := hstep.counters hrevision hsequence
    obtain ⟨-, -, -, -, -, -, next, haccepted, -⟩ := hstep.accepted
    exact ⟨haccepted.not_terminal, by rw [hnext, hrevision], hevent⟩
  · rw [hmap]
    exact List.nodup_range

/-! ### A session that is stranded -/

def sampleDigest : String := String.ofList (List.replicate 64 'a')

/-- The envelope of an action. -/
def envelopeOf (revision : Nat) (action : ProviderDiscoveryAction) : DiscoveryActionEnvelope :=
  ⟨"action", revision, sampleDigest, action⟩

/-- The steps of actions, without the checks of the validator. -/
def replay (lib : DiscoveryLibrary) : List ProviderDiscoveryAction → ProviderDiscoverySession →
    DiscoveryApply (List DiscoveryStep × ProviderDiscoverySession)
  | [], s => .ok ([], s)
  | action :: rest, s => do
    let built ← successor lib s action
    let run ← replay lib rest (counted s built.next)
    let transition := transitionTo s (envelopeOf s.revision action) built (counted s built.next)
    pure (⟨s, envelopeOf s.revision action, transition⟩ :: run.1, run.2)

/-- The action resolves an operation as without effect. -/
def resolvesNoEffect : ProviderDiscoveryAction → Bool
  | .resolveUnknownOutcome _ .confirmedNoEffect => true
  | _ => false

theorem Stranding.resolves (h : Stranding s action) : resolvesNoEffect action = true := by
  obtain ⟨-, hs, operation, hstates, -⟩ := h
  cases action with
  | interrupt stated outcome =>
    have hoperation := hstates.2.2.1
    rw [hs] at hoperation
    cases hoperation
  | resolveUnknownOutcome approvalId resolution =>
    obtain ⟨rfl, -⟩ := hstates
    rfl
  | _ => exact hstates.elim

theorem validateSha256_sampleDigest (field : String) : validateSha256 field sampleDigest = .ok () := by
  unfold validateSha256
  rw [rejectIf_eq_ok, not_or, not_not, Bool.not_eq_false]
  exact ⟨by decide +kernel, by decide +kernel⟩

/-- Actions whose envelopes are valid and that strand no session. -/
def replayable (action : ProviderDiscoveryAction) : Bool :=
  action.approves.all (·.2.grantSha256 = sampleDigest) && !resolvesNoEffect action

theorem envelopeOf_valid {revision : Nat} (h : replayable action = true) :
    (envelopeOf revision action).validate = .ok () := by
  unfold replayable at h
  rw [Bool.and_eq_true] at h
  unfold DiscoveryActionEnvelope.validate envelopeOf
  rw [validateSha256_sampleDigest, ok_bind]
  cases action <;> try rfl
  · obtain rfl := of_decide_eq_true h.1
    exact validateSha256_sampleDigest _
  · obtain rfl := of_decide_eq_true h.1
    exact validateSha256_sampleDigest _

theorem run_of_replay : ∀ {actions : List ProviderDiscoveryAction} {s : ProviderDiscoverySession}
    {run : List DiscoveryStep × ProviderDiscoverySession}, Coherent lib s →
    s.revision + actions.length ≤ usizeMax → s.nextEventSequence + actions.length ≤ usizeMax →
    actions.all replayable = true → replay lib actions s = .ok run → DiscoveryRun lib s run.1 run.2
  | [], s, run, _, _, _, _, h => by
    cases h
    exact .nil
  | action :: rest, s, run, hs, hroom, hevents, hall, h => by
    unfold replay at h
    simp only [bind_eq_ok] at h
    obtain ⟨built, hbuilt, tail, htail, h⟩ := h
    cases h
    rw [List.all_cons, Bool.and_eq_true] at hall
    obtain ⟨hreplayable, hall⟩ := hall
    have hresolves : resolvesNoEffect action = false := by
      unfold replayable at hreplayable
      rw [Bool.and_eq_true, Bool.not_eq_true'] at hreplayable
      exact hreplayable.2
    rw [List.length_cons] at hroom hevents
    have hnot : ¬ Stranding s action := fun hstranding => by
      rw [hstranding.resolves] at hresolves
      cases hresolves
    have hnext : Coherent lib (counted s built.next) :=
      ((successor_accepted hs.valid hbuilt).coherent hs hnot).counted
    have happly : s.apply lib (envelopeOf s.revision action) =
        .ok (transitionTo s (envelopeOf s.revision action) built (counted s built.next)) := by
      rw [apply_of_successor hs (envelopeOf_valid hreplayable) rfl (by omega) (by omega)]
      rw [show (envelopeOf s.revision action).action = action from rfl, hbuilt, ok_bind,
        validate_eq_ok.2 hnext.valid]
      rfl
    refine .cons ⟨rfl, happly, rfl⟩ (run_of_replay hnext ?_ ?_ hall htail)
    · show s.revision + 1 + rest.length ≤ usizeMax
      omega
    · show s.nextEventSequence + 1 + rest.length ≤ usizeMax
      omega

theorem replay_actions : ∀ {actions : List ProviderDiscoveryAction} {s : ProviderDiscoverySession}
    {run : List DiscoveryStep × ProviderDiscoverySession}, replay lib actions s = .ok run →
    run.1.map (·.action) = actions
  | [], s, run, h => by
    cases h
    rfl
  | action :: rest, s, run, h => by
    unfold replay at h
    simp only [bind_eq_ok] at h
    obtain ⟨built, -, tail, htail, h⟩ := h
    cases h
    rw [List.map_cons, replay_actions htail]
    rfl

theorem replay_length {actions : List ProviderDiscoveryAction} {run : List DiscoveryStep × ProviderDiscoverySession}
    (h : replay lib actions s = .ok run) : run.1.length = actions.length := by
  rw [← replay_actions h, List.length_map]

/-- A library that knows one URL. -/
def tideLibrary : DiscoveryLibrary where
  parseUrl text :=
    if text = "https://tide.example/" then
      .ok ⟨"https", some "tide.example", "", none, "/", none, none, "https://tide.example"⟩
    else .error "relative URL without a base"
  debugText text := "\"" ++ text ++ "\""

def tideInput : SanitizedDiscoveryInput where
  connectionId := "tide"
  displayName := "Tide"
  siteUrl := "https://tide.example/"
  docsUrl := none
  credentialRef := none
  connectionOptions := ⟨[], defaultProviderDiscoveryTimeoutSeconds, .public_, none, none⟩
  suppliedEvidenceIds := []

/-- The new session of the input. -/
def tideStart : ProviderDiscoverySession where
  id := "session"
  input := tideInput
  state := .draft
  revision := 0
  nextEventSequence := 1
  recovery := none
  unknownOperation := none
  manifestSha256 := none
  commitPlanSha256 := none
  commitAttemptId := none
  committedConnectionId := none
  cancellationPending := false
  activeEffectApproval := none
  failure := none

theorem tideStart_new : ProviderDiscoverySession.new tideLibrary "session" tideInput = .ok tideStart := by
  obtain ⟨⟨⟩, hinput⟩ := exists_ok (x := tideInput.validate tideLibrary) (by decide +kernel)
  unfold ProviderDiscoverySession.new
  rw [hinput]
  rfl

theorem exists_tideRun (actions : List ProviderDiscoveryAction) (hall : actions.all replayable = true)
    (hlength : actions.length < usizeMax) (hok : (replay tideLibrary actions tideStart).isOk = true) :
    ∃ run, replay tideLibrary actions tideStart = .ok run ∧ DiscoveryRun tideLibrary tideStart run.1 run.2 := by
  obtain ⟨run, hrun⟩ := exists_ok hok
  refine ⟨run, hrun, run_of_replay (new_coherent tideStart_new) ?_ ?_ hall hrun⟩
  · show 0 + actions.length ≤ usizeMax
    omega
  · show 1 + actions.length ≤ usizeMax
    omega

/-- The draft of an assistant, until its approval. -/
def assistantActions : List ProviderDiscoveryAction :=
  [.begin, .knownProviderCandidatesResolved 0, .documentsFetched 1, .evidenceExtracted .assistantRecommended,
    .approveAssistant "approval" sampleDigest]

/-- The draft is cancelled, and its outcome is unknown. -/
def strandingActions : List ProviderDiscoveryAction :=
  assistantActions ++
    [ProviderDiscoveryAction.cancel, .interrupt .buildAssistantManifestDraft .externalOutcomeUnknown]

/-- The resolution that the session cannot take. -/
def strandingEnvelope : DiscoveryActionEnvelope :=
  envelopeOf 7 (.resolveUnknownOutcome "approval" .confirmedNoEffect)

/-- A reachable session refuses its own successor. -/
theorem apply_accepts_or_refuses_stranded : ∃ trace s,
    ProviderDiscoverySession.new tideLibrary "session" tideInput = .ok tideStart ∧
      DiscoveryRun tideLibrary tideStart trace s ∧ strandingEnvelope.validate = .ok () ∧
      strandingEnvelope.expectedRevision = s.revision ∧ s.revision < usizeMax ∧ s.nextEventSequence < usizeMax ∧
      s.apply tideLibrary strandingEnvelope = .error (.invalidSession ⟨"active_effect_approval",
        "must exist exactly while an approved billable effect is active or recoverable"⟩) := by
  obtain ⟨run, hreplay, hrun⟩ := exists_tideRun strandingActions (by decide +kernel) (by decide) (by decide +kernel)
  have hmarks : (replay tideLibrary strandingActions tideStart).toOption.map
      (fun run => (run.2.cancellationPending, run.2.state, run.2.unknownOperation)) =
        some (true, .unknownOutcome, some .buildAssistantManifestDraft) := by decide +kernel
  rw [hreplay] at hmarks
  obtain ⟨hpending, hmarks⟩ := Prod.mk.inj (Option.some.inj hmarks)
  obtain ⟨hunknown, hoperation⟩ := Prod.mk.inj hmarks
  obtain ⟨hrevision, hsequence, -⟩ := counters_of_run tideStart_new hrun
  rw [show run.1.length = 7 from replay_length hreplay] at hrevision hsequence
  have hroom : run.2.revision < usizeMax := by
    rw [hrevision]
    decide
  have hevents : run.2.nextEventSequence < usizeMax := by
    rw [hsequence]
    decide
  have hvalid : strandingEnvelope.validate = .ok () := by
    unfold DiscoveryActionEnvelope.validate strandingEnvelope envelopeOf
    rw [validateSha256_sampleDigest, ok_bind]
  have hstranding : Stranding run.2 strandingEnvelope.action :=
    ⟨hpending, hunknown, .buildAssistantManifestDraft, ⟨rfl, hunknown, hoperation⟩, rfl⟩
  exact ⟨run.1, run.2, tideStart_new, hrun, hvalid, hrevision.symm, hroom, hevents,
    hstranding.apply (coherent_of_run tideStart_new hrun) hvalid hrevision.symm hroom hevents⟩

theorem apply_accepts_or_refuses_tide : ∃ run, replay tideLibrary assistantActions tideStart = .ok run ∧
    (run.1.map (·.envelope.expectedRevision)).Nodup ∧
      ∀ action, (envelopeOf 5 action).validate = .ok () →
        (((∃ transition, run.2.apply tideLibrary (envelopeOf 5 action) = .ok transition) ∨
            ∃ e, run.2.apply tideLibrary (envelopeOf 5 action) = .error e ∧ Refusal run.2 action e) ↔
          ¬ Stranding run.2 action) := by
  obtain ⟨run, hreplay, hrun⟩ := exists_tideRun assistantActions (by decide +kernel) (by decide)
    (by decide +kernel)
  obtain ⟨hrevision, hsequence, -⟩ := counters_of_run tideStart_new hrun
  rw [show run.1.length = 5 from replay_length hreplay] at hrevision hsequence
  obtain ⟨haccepts, -, hnodup⟩ := apply_accepts_or_refuses tideStart_new hrun
  refine ⟨run, hreplay, hnodup, fun action hvalid => haccepts _ hvalid hrevision.symm ?_ ?_⟩
  · rw [hrevision]
    decide
  · rw [hsequence]
    decide

/-! ## Cancellation -/

/-- A session that was cancelled: it is over without a commit, or its operation is being stopped. -/
def CancelKept (s : ProviderDiscoverySession) : Prop :=
  s.state = .cancelled ∨ s.state = .failed ∨
    s.cancellationPending = true ∧ ∃ operation, s.held = some operation ∧
      (s.state = .interrupted → operation = .compensation)

theorem CancelKept.not_ready (h : CancelKept s) : s.state ≠ .ready := by
  intro heq
  obtain hs | hs | ⟨-, operation, hheld, -⟩ := h
  · cases heq.symm.trans hs
  · cases heq.symm.trans hs
  · rw [held_terminal (by rw [heq]; rfl)] at hheld
    cases hheld

/-- The effects that a cancellation forbids. -/
def DiscoveryEffect.isAdvancing : DiscoveryEffect → Bool
  | .buildAssistantManifestDraft _ => true
  | .probeCapabilities _ => true
  | .commitAtomically _ _ => true
  | _ => false

def DiscoveryEffect.isCancellation : DiscoveryEffect → Bool
  | .requestCancellation _ => true
  | _ => false

theorem endState_kept (pending : Bool) {held : Prop} :
    (if pending then DiscoveryState.cancelled else .failed) = .cancelled ∨
      (if pending then DiscoveryState.cancelled else .failed) = .failed ∨ held := by
  cases pending
  · exact .inr (.inl rfl)
  · exact .inl rfl

theorem Unstopped.not_pending (h : Unstopped s) (hinterrupted : s.state ≠ .interrupted)
    (hunknown : s.state ≠ .unknownOutcome) (hheld : s.held = some operation) : s.cancellationPending = false := by
  rw [held_eq_operation hinterrupted hunknown] at hheld
  exact h (by rw [hheld]; nofun)

/-- A session whose operation is being stopped goes on to stop it. -/
theorem Accepted.stopping (h : Accepted s action next effect) (hs : Coherent lib s)
    (hpending : s.cancellationPending = true) (hheld : s.held = some operation)
    (hcompensation : s.state = .interrupted → operation = .compensation) :
    CancelKept next ∧ effect.isAdvancing = false ∧ effect.isCancellation = false := by
  have hgoing : ∀ {s : ProviderDiscoverySession}, Unstopped s → s.state ≠ .interrupted →
      s.state ≠ .unknownOutcome → s.held = some operation → s.cancellationPending ≠ true :=
    fun hfree hinterrupted hunknown hheld => by
      rw [hfree.not_pending hinterrupted hunknown hheld]
      exact Bool.false_ne_true
  cases h with
  | prepared hsource hfree =>
    refine absurd hpending (hgoing hfree ?_ ?_ hheld) <;> intro heq <;> rw [heq] at hsource <;>
      simp [DiscoveryState.isQuiet] at hsource
  | checkpointed _ heq hfree => exact absurd hpending (hgoing hfree (by rw [heq]; exact fun h => by cases h) (by rw [heq]; exact fun h => by cases h) hheld)
  | approved hquiet hfree =>
    obtain ⟨hinterrupted, hunknown, -, -⟩ := quiet_ne hquiet
    exact absurd hpending (hgoing hfree hinterrupted hunknown hheld)
  | reviewed heq =>
    rw [held_none (by rw [heq]; rfl) (by rw [heq]; exact fun h => by cases h) (by rw [heq]; exact fun h => by cases h)] at hheld
    cases hheld
  | committed _ _ hnot => cases hpending.symm.trans hnot
  | compensated => exact ⟨.inr (.inr ⟨hpending, .compensation, rfl, fun h => by cases h⟩), rfl, rfl⟩
  | ended => exact ⟨endState_kept _, rfl, rfl⟩
  | compensationFailed => exact ⟨.inr (.inr ⟨hpending, operation, hheld, hcompensation⟩), rfl, rfl⟩
  | resumed => exact ⟨.inr (.inr ⟨hpending, operation, hheld, hcompensation⟩), rfl, rfl⟩
  | lost => exact ⟨.inr (.inr ⟨hpending, _, rfl, fun h => by cases h⟩), rfl, rfl⟩
  | interrupted hcancelled =>
    cases hpending.symm.trans hcancelled
    exact ⟨.inr (.inr ⟨hpending, .compensation, rfl, fun _ => rfl⟩), rfl, rfl⟩
  | dropped => exact ⟨.inl rfl, rfl, rfl⟩
  | reconciled => exact ⟨.inl rfl, rfl, rfl⟩
  | restarted hinterrupted hrecovery heffect =>
    obtain ⟨stopped, hcheckpoint⟩ := hs.interrupted hinterrupted
    cases hrecovery.symm.trans hcheckpoint
    cases (held_interrupted hinterrupted hcheckpoint).symm.trans hheld
    obtain rfl : stopped = .compensation := hcompensation hinterrupted
    obtain ⟨_, hne, -⟩ | ⟨_, _, hne, -⟩ | ⟨attempt, -, rfl⟩ | ⟨-, hne, -⟩ := effectForOperation_eq_ok heffect
    · cases hne
    · cases hne
    · exact ⟨.inr (.inr ⟨hpending, .compensation, rfl, fun h => by cases h⟩), rfl, rfl⟩
    · cases hne
  | cancelling _ heffect =>
    obtain rfl | ⟨-, hnot⟩ := heffect
    · exact ⟨.inr (.inr ⟨rfl, operation, hheld, hcompensation⟩), rfl, rfl⟩
    · cases hpending.symm.trans hnot
  | cancelled => exact ⟨.inl rfl, rfl, rfl⟩
  | failed => exact ⟨endState_kept _, rfl, rfl⟩

/-- **A cancelled session stays cancelled** under every accepted action. -/
theorem Accepted.cancelKept (h : Accepted s action next effect) (hs : Coherent lib s) (hkept : CancelKept s) :
    CancelKept next ∧ effect.isAdvancing = false ∧ effect.isCancellation = false := by
  have hrunning := h.not_terminal
  obtain hstate | hstate | ⟨hpending, operation, hheld, hcompensation⟩ := hkept
  · rw [hstate] at hrunning
    cases hrunning
  · rw [hstate] at hrunning
    cases hrunning
  · exact h.stopping hs hpending hheld hcompensation

theorem Accepted.cancel (h : Accepted s .cancel next effect) : CancelKept next := by
  cases h with
  | prepared _ _ _ _ hplain => exact absurd rfl hplain.2.2
  | approved _ _ happroves => cases happroves
  | reviewed _ hreviews => cases hreviews
  | committed _ _ _ houtcome => exact houtcome.elim
  | compensated _ hplain => exact absurd rfl hplain.2.2
  | ended houtcome => exact houtcome.elim
  | lost _ _ hplain => exact absurd rfl hplain.2.2
  | interrupted _ hstates => exact hstates.elim
  | dropped _ _ _ hne => exact absurd rfl hne
  | reconciled _ hstates => exact hstates.elim
  | cancelling hoperation =>
    refine .inr (.inr ⟨rfl, _, held_running hoperation, fun heq => ?_⟩)
    rw [show s.state = .interrupted from heq] at hoperation
    cases hoperation
  | cancelled => exact .inl rfl

/-- Only a cancellation requests to stop an operation. -/
theorem Accepted.isCancellation (h : Accepted s action next effect) (heffect : effect.isCancellation = true) :
    action = .cancel := by
  cases h with
  | prepared _ _ _ hquiet => cases effect <;> cases hquiet <;> cases heffect
  | @approved _ operation => cases operation <;> cases heffect
  | @restarted checkpoint _ _ _ hok =>
    obtain ⟨_, -, -, rfl⟩ | ⟨_, _, -, -, -, rfl⟩ | ⟨_, -, rfl⟩ | ⟨-, -, hquiet⟩ := effectForOperation_eq_ok hok
    · cases hoperation : checkpoint.operation <;> rw [hoperation] at heffect <;> cases heffect
    · cases heffect
    · cases heffect
    · cases effect <;> cases hquiet <;> cases heffect
  | cancelling => rfl
  | _ => cases heffect

/-- **Cancellation is sticky**: after an accepted `Cancel` no session is ready and no effect advances, and a
run requests at most one cancellation. -/
theorem cancellation_sticky (hnew : ProviderDiscoverySession.new lib id input = .ok start)
    (hrun : DiscoveryRun lib start trace s) :
    (∀ (before : List DiscoveryStep) l after, trace = before ++ l :: after → l.action = .cancel →
      l.session.state ≠ .ready ∧
        ∀ x ∈ after, x.session.state ≠ .ready ∧ x.effect.isAdvancing = false) ∧
      trace.countP (·.effect.isCancellation) ≤ 1 := by
  constructor
  · intro before l after htrace hcancel
    obtain ⟨s₁, s₂, hs₁, hstep, hafter⟩ := hrun.at_label (I := fun _ s => Coherent lib s) (new_coherent hnew)
      (fun _ _ _ _ hs hstep => hstep.coherent hs) htrace
    obtain ⟨-, -, -, hsession, -, -, next, haccepted, rfl⟩ := hstep.accepted
    rw [hcancel] at haccepted
    have hkept : CancelKept (counted s₁ next) := haccepted.cancel
    rw [hsession]
    refine ⟨hkept.not_ready, (hafter.since (I := fun s => Coherent lib s ∧ CancelKept s)
      ⟨hstep.coherent hs₁, hkept⟩ ?_).2⟩
    rintro s l t ⟨hs, hkept⟩ hstep
    obtain ⟨-, -, -, hsession, -, -, next, haccepted, rfl⟩ := hstep.accepted
    obtain ⟨hnext, hadvancing, -⟩ := haccepted.cancelKept hs hkept
    have hnext : CancelKept (counted s next) := hnext
    exact ⟨⟨hstep.coherent hs, hnext⟩, by rw [hsession]; exact hnext.not_ready, hadvancing⟩
  · have hcount := hrun.inv (I := fun trace s => Coherent lib s ∧ trace.countP (·.effect.isCancellation) ≤ 1 ∧
      (trace.countP (·.effect.isCancellation) ≠ 0 → CancelKept s)) ⟨new_coherent hnew, Nat.zero_le 1,
        fun hne => absurd rfl hne⟩ ?_
    · exact hcount.2.1
    rintro trace s l t ⟨hs, hone, hkept⟩ hstep
    obtain ⟨-, -, -, -, -, -, next, haccepted, rfl⟩ := hstep.accepted
    refine ⟨hstep.coherent hs, ?_⟩
    rw [List.countP_append, List.countP_singleton]
    by_cases hcancelled : trace.countP (·.effect.isCancellation) = 0
    · rw [hcancelled]
      split
      · rename_i heffect
        have haction := haccepted.isCancellation heffect
        rw [haction] at haccepted
        exact ⟨Nat.le_refl 1, fun _ => haccepted.cancel⟩
      · exact ⟨Nat.zero_le 1, fun hne => absurd rfl hne⟩
    · obtain ⟨hnext, -, hnone⟩ := haccepted.cancelKept hs (hkept hcancelled)
      rw [hnone]
      exact ⟨hone, fun _ => hnext⟩

theorem cancellation_sticky_tide : ∃ run,
    replay tideLibrary (assistantActions ++ [ProviderDiscoveryAction.cancel]) tideStart = .ok run ∧
    (∀ (before : List DiscoveryStep) l after, run.1 = before ++ l :: after → l.action = .cancel →
      l.session.state ≠ .ready ∧
        ∀ x ∈ after, x.session.state ≠ .ready ∧ x.effect.isAdvancing = false) ∧
      run.1.countP (·.effect.isCancellation) ≤ 1 := by
  obtain ⟨run, hreplay, hrun⟩ := exists_tideRun (assistantActions ++ [ProviderDiscoveryAction.cancel])
    (by decide +kernel) (by decide) (by decide +kernel)
  exact ⟨run, hreplay, cancellation_sticky tideStart_new hrun⟩

end LorePia.Discovery
