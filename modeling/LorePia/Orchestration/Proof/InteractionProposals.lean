import LorePia.Orchestration.Proof.InteractionInvariant

/-!
# The lifecycle of proposals

Events, decisions and expiries reach a stored state in any order, each with the revision that it expects
and its own clock. `ProposalRequest.perform_eq_ok` says what one of them can do; over a whole history no
record changes after it was settled, no record is approved twice or after its deadline, and a request
that changed the state makes every later one with the same expected revision fail
(`history_lifecycle`).
-/

namespace LorePia

open Base

variable {lib : Externals} {state next : InteractionState}

/-! ## Requests -/

/-- An operation on a stored state. -/
inductive ProposalOperation
  | handle (engine : InteractionEngine) (event : InteractionEvent) (context : InteractionContext)
  | decide (proposalId : String) (decision : InteractionProposalDecision) (now : Int)
  | expire (proposalId : String) (now : Int)
  | sweep (now : Int)

/-- An operation with the revision that it expects. -/
structure ProposalRequest where
  operation : ProposalOperation
  expected : UInt64

namespace ProposalRequest

/-- The state and the event that a request returns. `handle_event` takes no expected revision: the store
checks it when the event is committed. -/
def perform (lib : Externals) (state : InteractionState) (request : ProposalRequest) :
    Interaction (InteractionState × Option InteractionEvent) :=
  match request.operation with
  | .handle engine event context => do
    checkRevision state request.expected
    let outcome ← handleEvent lib engine state event context
    return (outcome.state, none)
  | .decide proposalId decision now => do
    let outcome ← decidePending lib state proposalId decision request.expected now
    return (outcome.state, outcome.eventAfterCommit)
  | .expire proposalId now => do
    let outcome ← expirePendingProposal lib state proposalId request.expected now
    return (outcome.state, none)
  | .sweep now => do
    let outcome ← expirePendingProposals lib state request.expected now
    return (outcome.state, none)

/-- The stored state after a request. -/
def commit (lib : Externals) (state : InteractionState) (request : ProposalRequest) : InteractionState :=
  match request.perform lib state with
  | .ok (next, _) => next
  | .error _ => state

theorem commit_ok {request : ProposalRequest} {event : Option InteractionEvent}
    (h : request.perform lib state = .ok (next, event)) : request.commit lib state = next := by
  rw [commit, h]

theorem commit_error {request : ProposalRequest} {e : InteractionFailure}
    (h : request.perform lib state = .error e) : request.commit lib state = state := by
  rw [commit, h]

end ProposalRequest

/-! ## Records -/

theorem InteractionProposalRecord.Moves.trans {p q r : InteractionProposalRecord} (h : p.Moves q)
    (h' : q.Moves r) : p.Moves r := by
  rcases h with rfl | ⟨hp, status, now, rfl, hs, hrest⟩
  · exact h'
  · rcases h' with rfl | ⟨hq, _⟩
    · exact .inr ⟨hp, status, now, rfl, hs, hrest⟩
    · exact absurd hq hs

/-- Every record is still in its place, and has changed at most by being settled. -/
def ProposalsEvolve (s t : InteractionState) : Prop :=
  ∀ (i : Nat) (p : InteractionProposalRecord), s.proposals[i]? = some p →
    ∃ q, t.proposals[i]? = some q ∧ p.Moves q

theorem ProposalsEvolve.refl (s : InteractionState) : ProposalsEvolve s s :=
  fun _ p hp => ⟨p, hp, .inl rfl⟩

theorem ProposalsEvolve.trans {s t u : InteractionState} (h : ProposalsEvolve s t)
    (h' : ProposalsEvolve t u) : ProposalsEvolve s u := by
  intro i p hp
  obtain ⟨q, hq, hpq⟩ := h i p hp
  obtain ⟨r, hr, hqr⟩ := h' i q hq
  exact ⟨r, hr, hpq.trans hqr⟩

/-- What one request does to the records: it settles some, and appends pending ones. -/
structure ProposalsStep (s t : InteractionState) : Prop where
  evolve : ProposalsEvolve s t
  fresh : ∀ (i : Nat) (q : InteractionProposalRecord), s.proposals.length ≤ i →
    t.proposals[i]? = some q → q.status = .pending
  pendingNodup : (pendingProposalIds s.proposals).Nodup → (pendingProposalIds t.proposals).Nodup

theorem ProposalsStep.refl (s : InteractionState) : ProposalsStep s s := by
  refine ⟨.refl s, fun i q hi hq => ?_, id⟩
  rw [List.getElem?_eq_none hi] at hq
  cases hq

/-- Records settled. -/
theorem ProposalsStep.of_moves
    (h : List.Forall₂ InteractionProposalRecord.Moves state.proposals next.proposals) :
    ProposalsStep state next := by
  refine ⟨fun i p hp => forall₂_getElem? h hp, fun i q hi hq => ?_, fun hnodup => ?_⟩
  · rw [List.getElem?_eq_none (h.length_eq ▸ hi)] at hq
    cases hq
  · exact (pendingProposalIds_moves h).nodup hnodup

/-- Pending records appended. -/
theorem ProposalsStep.of_append {new : List InteractionProposalRecord}
    (h : next.proposals = state.proposals ++ new) (hnew : ∀ p ∈ new, p.status = .pending)
    (hnodup : (pendingProposalIds state.proposals).Nodup → (pendingProposalIds next.proposals).Nodup) :
    ProposalsStep state next := by
  refine ⟨fun i p hp => ⟨p, ?_, .inl rfl⟩, fun i q hi hq => ?_, hnodup⟩
  · obtain ⟨hlt, -⟩ := List.getElem?_eq_some_iff.1 hp
    rw [h, List.getElem?_append_left hlt, hp]
  · rw [h, List.getElem?_append_right hi] at hq
    exact hnew q (List.mem_of_getElem? hq)

/-! ## What a request can do -/

theorem ActionStep.proposals {limits : InteractionLimits} {source : ActionSource}
    {action : InteractionAction} {pushed : List InteractionEffect}
    (h : ActionStep lib limits source state action next pushed) :
    ∃ new, next.proposals = state.proposals ++ new ∧ (∀ p ∈ new, p.status = .pending) ∧
      ((pendingProposalIds state.proposals).Nodup → (pendingProposalIds next.proposals).Nodup) := by
  cases h with
  | write | activate | leave => exact ⟨[], (List.append_nil _).symm, by simp, id⟩
  | propose hfits =>
    refine ⟨_, rfl, ?_, fun hnodup => ?_⟩
    · intro p hp
      rw [List.mem_singleton.1 hp]
      rfl
    · rw [pendingProposalIds_append]
      exact (pending_new_iff hnodup _).1 fun _ => hfits.proposalNew

/-- An event appends pending records. -/
theorem EventHandled.proposalsStep {engine : InteractionEngine} {event : InteractionEvent}
    {context : InteractionContext} {outcome : InteractionOutcome} {run : RuleRun}
    (hh : EventHandled lib engine state event context outcome run) : ProposalsStep state outcome.state := by
  have hrun : ∃ new, run.state.proposals = state.proposals ++ new ∧ (∀ p ∈ new, p.status = .pending) ∧
      ((pendingProposalIds state.proposals).Nodup → (pendingProposalIds run.state.proposals).Nodup) := by
    refine hh.inv (I := fun _ run => ∃ new, run.state.proposals = state.proposals ++ new ∧
      (∀ p ∈ new, p.status = .pending) ∧ ((pendingProposalIds state.proposals).Nodup →
        (pendingProposalIds run.state.proposals).Nodup)) ⟨[], by simp [RuleRun.start], by simp, id⟩ ?_
    intro _ compiled run next trace progress _ hrun happlied
    rw [happlied.state_eq]
    refine applyActions_inv (I := fun _ p => ∃ new, p.state.proposals = state.proposals ++ new ∧
      (∀ p ∈ new, p.status = .pending) ∧ ((pendingProposalIds state.proposals).Nodup →
        (pendingProposalIds p.state.proposals).Nodup)) happlied.actions hrun ?_
    rintro _ action _ p p' pushed _ ⟨new, hp, hnew, hnodup⟩ hstep
    obtain ⟨more, hp', hmore, hnodup'⟩ := hstep.step.proposals
    refine ⟨new ++ more, by rw [hp', hp, List.append_assoc], fun q hq => ?_, hnodup' ∘ hnodup⟩
    exact (List.mem_append.1 hq).elim (hnew q) (hmore q)
  obtain ⟨new, hp, hnew, hnodup⟩ := hrun
  have hsame : outcome.state.proposals = run.state.proposals := by rw [hh.state_eq]
  exact .of_append (hsame.trans hp) hnew (hsame ▸ hnodup)

theorem InteractionState.Same.refl (s : InteractionState) : s.Same s := ⟨.refl _, rfl, rfl, rfl⟩

/-- **What a request can do**: it saw the revision that it expects, settled or appended records, and
advanced the revision unless it changed nothing but the sign of decimal zeros. -/
structure Performed (state : InteractionState) (expected : UInt64) (next : InteractionState) : Prop where
  revision : state.revision = expected
  step : ProposalsStep state next
  advanced : next.revision.toNat = state.revision.toNat + 1 ∨ next.Same state

theorem EventHandled.performed {engine : InteractionEngine} {event : InteractionEvent}
    {context : InteractionContext} {outcome : InteractionOutcome} {run : RuleRun} {expected : UInt64}
    (hh : EventHandled lib engine state event context outcome run) (hrevision : state.revision = expected) :
    Performed state expected outcome.state := by
  refine ⟨hrevision, hh.proposalsStep, ?_⟩
  cases heq : run.state.eq state with
  | false => exact .inl (hh.changed heq)
  | true =>
    right
    rw [hh.state_eq, hh.unchanged heq]
    exact InteractionState.same_of_eq heq

theorem Settled.performed {proposalId : String} {expected : UInt64} {now : Int}
    {status : InteractionProposalStatus} {index : Nat} {p : InteractionProposalRecord}
    (h : Settled lib state proposalId expected now status next index p) :
    Performed state expected next :=
  ⟨h.revision, .of_moves h.moves, .inl h.advanced⟩

theorem Swept.performed {expected : UInt64} {now : Int} (h : Swept lib state expected now next) :
    Performed state expected next := by
  have hok := (validateInteractionState_eq_ok defaultLimits_pending).1 h.accepted
  rcases h.next_eq with rfl | ⟨-, hnext, hadvanced⟩
  · exact ⟨h.revision, .refl next, .inr (.refl next)⟩
  · refine ⟨h.revision, .of_moves ?_, .inl hadvanced⟩
    rw [hnext]
    exact expireDue_moves hok

namespace ProposalRequest

variable {request : ProposalRequest} {event : Option InteractionEvent}

theorem perform_eq_ok (h : request.perform lib state = .ok (next, event)) :
    Performed state request.expected next := by
  unfold perform at h
  cases hop : request.operation with
  | handle engine e context =>
    rw [hop] at h
    obtain ⟨hrevision, h⟩ := seq_eq_ok.1 h
    obtain ⟨outcome, houtcome, h⟩ := bind_eq_ok.1 h
    rw [checkRevision, rejectIf_eq_ok, not_not] at hrevision
    obtain ⟨run, hh⟩ := handleEvent_eq_ok houtcome
    cases h
    exact hh.performed hrevision
  | decide proposalId decision now =>
    rw [hop] at h
    obtain ⟨outcome, houtcome, h⟩ := bind_eq_ok.1 h
    obtain ⟨index, p, hsettled, -, -⟩ := decidePending_eq_ok houtcome
    cases h
    exact hsettled.performed
  | expire proposalId now =>
    rw [hop] at h
    obtain ⟨outcome, houtcome, h⟩ := bind_eq_ok.1 h
    obtain ⟨index, p, hsettled⟩ := expirePendingProposal_eq_ok houtcome
    cases h
    exact hsettled.performed
  | sweep now =>
    rw [hop] at h
    obtain ⟨outcome, houtcome, h⟩ := bind_eq_ok.1 h
    cases h
    exact (expirePendingProposals_eq_ok houtcome).performed

/-- A request approves the record at an index: it was pending, its deadline had not come, and the event
names its proposal. -/
structure Approves (lib : Externals) (state : InteractionState) (request : ProposalRequest) (index : Nat)
    (p : InteractionProposalRecord) (now : Int) : Prop where
  operation : request.operation = .decide p.proposalId .approve now
  event : request.perform lib state = .ok (request.commit lib state, some (.userAction p.proposalId))
  found : state.proposals[index]? = some p
  pending : p.status = .pending
  early : ∀ deadline, p.expiresAtEpochSeconds = some deadline → now < deadline
  settled : (request.commit lib state).proposals = state.proposals.modify index (·.settle .approved now)

/-- Only approvals produce an event. -/
theorem perform_approves {e : InteractionEvent} (h : request.perform lib state = .ok (next, some e)) :
    ∃ index p now, request.Approves lib state index p now := by
  have hcommit := commit_ok h
  have hperform := h
  unfold perform at h
  cases hop : request.operation with
  | handle engine e context =>
    rw [hop] at h
    obtain ⟨-, h⟩ := seq_eq_ok.1 h
    obtain ⟨outcome, -, h⟩ := bind_eq_ok.1 h
    cases h
  | decide proposalId decision now =>
    rw [hop] at h
    obtain ⟨outcome, houtcome, h⟩ := bind_eq_ok.1 h
    obtain ⟨index, p, hsettled, -, hevent⟩ := decidePending_eq_ok houtcome
    obtain ⟨hnext, he⟩ := Prod.mk.inj (pure_eq_ok.1 h)
    rw [he] at hevent
    cases decision with
    | reject => cases hevent
    | approve =>
      rw [if_pos rfl] at hevent
      refine ⟨index, p, now, ?_, ?_, hsettled.found, hsettled.pending, fun deadline hd => ?_, ?_⟩
      · rw [hop, hsettled.proposalId_eq]
      · rw [hperform, hcommit, hevent]
      · by_contra hlate
        have hdue : p.due now = true := due_iff.2 ⟨deadline, hd, not_lt.1 hlate⟩
        cases hsettled.due.1 hdue
      · rw [hcommit, ← hnext, hsettled.next_eq]
        rfl
  | expire proposalId now =>
    rw [hop] at h
    obtain ⟨outcome, -, h⟩ := bind_eq_ok.1 h
    cases h
  | sweep now =>
    rw [hop] at h
    obtain ⟨outcome, -, h⟩ := bind_eq_ok.1 h
    cases h

/-- A request, failed or not, goes along the order of the records and of the revisions. -/
theorem commit_step (lib : Externals) (state : InteractionState) (request : ProposalRequest) :
    ProposalsStep state (request.commit lib state) ∧
      state.revision ≤ (request.commit lib state).revision := by
  cases h : request.perform lib state with
  | error e =>
    rw [commit_error h]
    exact ⟨.refl state, UInt64.le_refl _⟩
  | ok result =>
    obtain ⟨next, event⟩ := result
    rw [commit_ok h]
    have hp := perform_eq_ok h
    refine ⟨hp.step, ?_⟩
    rw [UInt64.le_iff_toNat_le]
    rcases hp.advanced with hadvanced | hsame
    · omega
    · rw [hsame.revision]

/-- A record that was approved is never approved again. -/
theorem Approves.not_again {later : InteractionState} {other : ProposalRequest} {index : Nat}
    {p q : InteractionProposalRecord} {now now' : Int} (h : request.Approves lib state index p now)
    (hevolve : ProposalsEvolve (request.commit lib state) later) :
    ¬ other.Approves lib later index q now' := by
  intro h'
  have hat : (request.commit lib state).proposals[index]? = some (p.settle .approved now) := by
    rw [h.settled, List.getElem?_modify_eq, h.found]
    rfl
  obtain ⟨r, hr, hmoves⟩ := hevolve index _ hat
  rw [h'.found, Option.some.injEq] at hr
  subst hr
  have hsame := hmoves.pending h'.pending
  have hstatus := h'.pending
  rw [hsame] at hstatus
  cases hstatus

/-- A request that advances the revision makes every later one with the same expected revision fail. -/
theorem perform_conflict {later : InteractionState} {other : ProposalRequest}
    (hexpected : request.expected = other.expected)
    (hchanged : ¬ (request.commit lib state).Same state)
    (hlater : (request.commit lib state).revision ≤ later.revision) :
    ∃ e, other.perform lib later = .error e := by
  cases h : request.perform lib state with
  | error e =>
    rw [commit_error h] at hchanged
    exact absurd (.refl state) hchanged
  | ok result =>
    obtain ⟨next, event⟩ := result
    rw [commit_ok h] at hchanged hlater
    have hp := perform_eq_ok h
    have hadvanced := hp.advanced.resolve_right hchanged
    cases h' : other.perform lib later with
    | error e => exact ⟨e, rfl⟩
    | ok result' =>
      obtain ⟨next', event'⟩ := result'
      have hrevision := (perform_eq_ok h').revision
      rw [← hexpected, ← hp.revision] at hrevision
      rw [UInt64.le_iff_toNat_le, hrevision] at hlater
      omega

end ProposalRequest

/-! ## Histories -/

/-- **The lifecycle of proposals** over a history of requests, each with the state that it meets. -/
structure ProposalLifecycle (lib : Externals) (log : List (InteractionState × ProposalRequest)) : Prop where
  /-- One request settles pending records and appends pending ones. -/
  steps : ∀ e ∈ log, ProposalsStep e.1 (e.2.commit lib e.1)
  /-- Between any two moments records stay in their place and were settled at most once. -/
  records : log.Pairwise fun e f => ProposalsEvolve e.1 (f.2.commit lib f.1)
  /-- An event approves a pending record before its deadline. -/
  approvals : ∀ e ∈ log, ∀ next event, e.2.perform lib e.1 = .ok (next, some event) →
    ∃ index p now, e.2.Approves lib e.1 index p now
  /-- No record is approved twice. -/
  once : log.Pairwise fun e f => ∀ index p q now now', e.2.Approves lib e.1 index p now →
    ¬ f.2.Approves lib f.1 index q now'
  /-- No two pending records have the same proposal id. -/
  pending : ∀ e ∈ log, (pendingProposalIds e.1.proposals).Nodup ∧
    (pendingProposalIds (e.2.commit lib e.1).proposals).Nodup
  /-- Once a request has changed the state, all others with its expected revision fail. -/
  exclusive : log.Pairwise fun e f => e.2.expected = f.2.expected → ¬ (e.2.commit lib e.1).Same e.1 →
    ∃ error, f.2.perform lib f.1 = .error error
  /-- Errors leave the state as it is. -/
  errors : ∀ e ∈ log, ∀ error, e.2.perform lib e.1 = .error error → e.2.commit lib e.1 = e.1

/-- **Proposals over any interleaving of requests.** -/
theorem history_lifecycle (lib : Externals) {start : InteractionState}
    (hstart : (pendingProposalIds start.proposals).Nodup) (requests : List ProposalRequest) :
    ProposalLifecycle lib (history (ProposalRequest.commit lib) start requests) := by
  have hevolve := history_pairwise (R := ProposalsEvolve) .refl (fun _ _ _ => .trans)
    (fun s r => (ProposalRequest.commit_step lib s r).1.evolve) start requests
  have hrevision := history_pairwise (R := fun s t : InteractionState => s.revision ≤ t.revision)
    (fun _ => UInt64.le_refl _) (fun _ _ _ => UInt64.le_trans)
    (fun s r => (ProposalRequest.commit_step lib s r).2) start requests
  refine ⟨fun e _ => (ProposalRequest.commit_step lib e.1 e.2).1, ?_, ?_, ?_, ?_, ?_, ?_⟩
  · refine hevolve.imp fun {e f} h => ?_
    exact ((ProposalRequest.commit_step lib e.1 e.2).1.evolve.trans h).trans
      (ProposalRequest.commit_step lib f.1 f.2).1.evolve
  · exact fun e _ next event h => ProposalRequest.perform_approves h
  · exact hevolve.imp fun h index p q now now' ha => ha.not_again h
  · intro e he
    have hnodup := history_inv (I := fun s : InteractionState => (pendingProposalIds s.proposals).Nodup)
      (fun s r hs => (ProposalRequest.commit_step lib s r).1.pendingNodup hs) hstart e he
    exact ⟨hnodup, (ProposalRequest.commit_step lib e.1 e.2).1.pendingNodup hnodup⟩
  · refine hrevision.imp fun {e f} h => ?_
    exact fun hexpected hchanged => ProposalRequest.perform_conflict hexpected hchanged h
  · exact fun e _ error h => ProposalRequest.commit_error h

/-! ## Samples -/

/-- The opened conversation, handled by one set under the revision `0`. -/
def openRequest (set : InteractionRuleSet) : ProposalRequest :=
  ⟨.handle (engineOf defaultInteractionLimits [] [set]) .conversationOpened plainContext, 0⟩

/-- A set that asks for an approval within a minute. -/
def ferrySet : InteractionRuleSet :=
  openingSet [.requestUserApproval ⟨"ferry", "Take the ferry?", ⟨[.text "The ferry leaves."], 64⟩, some 60⟩]

/-- A proposal asked for, approved, rejected under the same revision, and expired. -/
def ferryRequests : List ProposalRequest :=
  [openRequest ferrySet, ⟨.decide "ferry" .approve 10, 1⟩, ⟨.decide "ferry" .reject 20, 1⟩,
    ⟨.expire "ferry" 100, 2⟩]

/-- Only the first two requests change the record. -/
theorem history_lifecycle_ferryRequests :
    (pendingProposalIds (lampState false).proposals).Nodup ∧
      (history (ProposalRequest.commit sampleExternals) (lampState false) ferryRequests).map
        (fun e => (e.2.commit sampleExternals e.1).proposals.map (·.status)) =
          [[.pending], [.approved], [.approved], [.approved]] ∧
      ProposalLifecycle sampleExternals
        (history (ProposalRequest.commit sampleExternals) (lampState false) ferryRequests) :=
  ⟨by decide, by decide +kernel, history_lifecycle sampleExternals (by decide) ferryRequests⟩

/-- A set that lights the lamp. -/
def litSet : InteractionRuleSet := openingSet [.setVariable lampRef (.literal (.bool true))]

/-- **Two requests with the same expected revision that both change the state**: the first one changes the
sign of a zero. -/
theorem lampState_changed_twice : ∃ s,
    compileWithOptions [lampSet] defaultInteractionLimits [] =
      .ok (engineOf defaultInteractionLimits [] [lampSet]) ∧
    compileWithOptions [litSet] defaultInteractionLimits [] =
      .ok (engineOf defaultInteractionLimits [] [litSet]) ∧
    history (ProposalRequest.commit sampleExternals) (lampState false)
        [openRequest lampSet, openRequest litSet] =
      [(lampState false, openRequest lampSet), (s, openRequest litSet)] ∧
    (openRequest lampSet).commit sampleExternals (lampState false) ≠ lampState false ∧
    (openRequest litSet).commit sampleExternals s ≠ s ∧
    (openRequest lampSet).expected = (openRequest litSet).expected := by
  have hsigns : (history (ProposalRequest.commit sampleExternals) (lampState false)
      [openRequest lampSet, openRequest litSet]).map
      (fun e => (zeroSigns e.1.vars, zeroSigns (e.2.commit sampleExternals e.1).vars)) =
        [([false], [true]), ([true], [])] := by
    decide +kernel
  simp only [history, List.map_cons, List.map_nil, List.cons.injEq, Prod.mk.injEq, and_true] at hsigns
  obtain ⟨⟨hbefore, hfirst⟩, hmiddle, hsecond⟩ := hsigns
  refine ⟨_, lampSet_compiles, engineOf_compiles (by decide +kernel), rfl, fun heq => ?_, fun heq => ?_, rfl⟩
  · rw [heq, hbefore] at hfirst
    cases hfirst
  · rw [heq, hmiddle] at hsecond
    cases hsecond

end LorePia
