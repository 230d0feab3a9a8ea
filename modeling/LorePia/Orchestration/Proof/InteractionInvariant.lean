import LorePia.Base.Run
import LorePia.Orchestration.Proof.InteractionCompile
import LorePia.Orchestration.Proof.InteractionRun
import LorePia.Orchestration.Proof.Roles

/-!
# Every reachable interaction state is accepted

`handle_event` does not check the state it returns. `StateOk` is kept by every action that was validated
(`ActionStep.ok`), so by a rule, an event and every other operation on a state (`InteractionStep.ok`).
The engine compares states with `==`, which does not see the sign of a decimal zero: a step advances the
revision by one exactly when it changes the state beyond that (`InteractionState.Advances`).
-/

namespace LorePia

open Base Relation

variable {lib : Externals} {limits : InteractionLimits} {source : ActionSource}
  {state state' : InteractionState} {action : InteractionAction} {pushed : List InteractionEffect}

/-! ## What a validated action brings -/

theorem isIdentifierCharacter_hexDigit : ∀ n : Fin 16, isIdentifierCharacter (hexDigit n) = true := by
  decide

/-- A digest is an identifier. -/
theorem identifierOk_hexEncode (hbytes : 64 ≤ limits.maxIdentifierBytes) (digest : Vector UInt8 32) :
    IdentifierOk limits (hexEncode digest.toList) := by
  have hsize := utf8ByteSize_hexEncode digest
  refine ⟨?_, by omega, ?_⟩
  · rw [Bool.eq_false_iff]
    intro hempty
    rw [String.isEmpty_iff.1 hempty] at hsize
    simp at hsize
  · rw [show (hexEncode digest.toList).toList = hexDigits digest.toList from String.toList_ofList,
      List.all_eq_true]
    exact hexDigits_forall (fun n hn => isIdentifierCharacter_hexDigit ⟨n, hn⟩) _

theorem validateWriteTarget_ref {target : VariableRef} {provenance : Provenance} {u : Unit}
    (h : validateWriteTarget target provenance limits = .ok u) :
    checkVariableRef target limits = .ok () :=
  (seq_eq_ok.1 h).1

/-- The target of a validated action was validated. -/
theorem validateAction_target {provenance : Provenance} {target : VariableRef}
    (h : validateAction action provenance limits = .ok ()) (ht : action.target = some target) :
    validateWriteTarget target provenance limits = .ok () := by
  cases action with
  | setVariable t value =>
    cases ht
    exact (seq_eq_ok.1 h).1
  | incrementVariable t amount =>
    cases ht
    exact h
  | rollDice expression t =>
    cases ht
    exact forSome_eq_ok.1 (seq_eq_ok.1 h).2 target rfl
  | activateKnowledge | showAsset | playAudio | presentChoices | appendVisibleSystemEvent
  | requestUserApproval => cases ht

/-- The value that a validated action writes is accepted. -/
theorem validateAction_value {provenance : Provenance} {target : VariableRef} {expression : ValueExpr}
    {value : VariableValue} (hok : StateOk lib limits state)
    (h : validateAction (.setVariable target expression) provenance limits = .ok ())
    (hvalue : resolveValue expression state.vars = .ok value) :
    checkVariableValue value limits = .ok () := by
  cases expression with
  | literal literal =>
    cases hvalue
    exact (seq_eq_ok.1 h).2
  | varRef v =>
    exact hok.get_ok (okOr_eq_ok.1 hvalue)

/-- The ids that an action is recorded under. -/
def ActionSource.Named (limits : InteractionLimits) (source : ActionSource) : Prop :=
  IdentifierOk limits source.ruleSetId ∧ IdentifierOk limits source.ruleId

theorem pendingRecord_ok {proposal : ProposalSpec} {body : String} {expiresAt : Option Int}
    (hbytes : 64 ≤ limits.maxIdentifierBytes) (hsource : source.Named limits)
    (hid : IdentifierOk limits proposal.id)
    (hfits : ProposalFits lib limits source state proposal body expiresAt) :
    ProposalOk lib limits state.revision
      (pendingRecord lib source state.revision proposal body expiresAt) where
  id := identifierOk_hexEncode hbytes _
  ruleSetId := hsource.1
  ruleId := hsource.2
  proposalId := hid
  title := hfits.title
  body := hfits.body
  requested := hfits.time
  source := UInt64.le_refl _
  deadline := hfits.deadline
  times := rfl
  bound := rfl

/-- **A validated action keeps the state accepted.** -/
theorem ActionStep.ok (h : ActionStep lib limits source state action state' pushed)
    (hbytes : 64 ≤ limits.maxIdentifierBytes) (hsource : source.Named limits)
    (hvalid : validateAction action source.provenance limits = .ok ())
    (hvars : state'.vars.values.length ≤ limits.maxVariables)
    (hknowledge : state'.manuallyActiveKnowledge.length ≤ maxKnowledgeEntries)
    (hok : StateOk lib limits state) : StateOk lib limits state' := by
  cases h with
  | write htarget hvalue _ =>
    have href := validateWriteTarget_ref (validateAction_target hvalid htarget)
    refine hok.insert href ?_ hvars
    rcases hvalue with ⟨expression, rfl, hvalue⟩ | ⟨n, rfl⟩
    · exact validateAction_value hok hvalid hvalue
    · rfl
  | activate hnew =>
    refine hok.activate (validateIdentifier_eq_ok.1 hvalid) hnew ?_
    rwa [(List.perm_insertionSort _ _).length_eq] at hknowledge
  | propose hfits =>
    have hid := validateIdentifier_eq_ok.1 (seq_eq_ok.1 hvalid).1
    exact hok.propose (pendingRecord_ok hbytes hsource hid hfits) hfits.recordNew hfits.proposalNew
      hfits.count hfits.pending
  | leave => exact hok

/-! ## Events -/

variable {engine : InteractionEngine} {event : InteractionEvent} {context : InteractionContext}
  {seed : UInt64} {run : RuleRun} {outcome : InteractionOutcome}

/-- The rules of an engine are named by identifiers. -/
def InteractionEngine.Named (engine : InteractionEngine) : Prop :=
  ∀ compiled ∈ engine.rules, IdentifierOk engine.limits compiled.setId ∧
    IdentifierOk engine.limits compiled.rule.id

theorem compileWithOptions_named {sets : List InteractionRuleSet} {approvals : List String}
    (h : compileWithOptions sets limits approvals = .ok engine) :
    engine.limits = limits ∧ limits.validate = .ok () ∧ engine.Named := by
  obtain ⟨hcompiles, rfl⟩ := compileWithOptions_eq_ok.1 h
  refine ⟨rfl, hcompiles.valid, fun compiled hm => ?_⟩
  obtain ⟨set, hset, rule, hrule, rfl⟩ := mem_engineOf.1 hm
  exact ⟨(hcompiles.setOk set hset).id, ((hcompiles.setOk set hset).rules rule hrule).id⟩

/-- The rules of an event keep the state accepted. -/
theorem EventHandled.run_ok (hh : EventHandled lib engine state event context outcome run)
    (hbytes : 64 ≤ engine.limits.maxIdentifierBytes) (hnamed : engine.Named)
    (hok : StateOk lib engine.limits state) : StateOk lib engine.limits run.state := by
  refine hh.inv (I := fun _ run => StateOk lib engine.limits run.state) hok ?_
  intro _ compiled run next trace progress hmem hrun happlied
  rw [happlied.state_eq]
  refine applyActions_inv (I := fun _ p => StateOk lib engine.limits p.state) happlied.actions hrun ?_
  intro _ action _ p p' pushed _ hp hstep
  exact hstep.step.ok hbytes (hnamed compiled hmem) hstep.valid hstep.within.vars hstep.within.knowledge hp

/-- What a step does to the revision: it advances by one when the step changes the state beyond the sign
of a decimal zero, and else the step leaves all else as it is. -/
def InteractionState.Advances (s t : InteractionState) : Prop :=
  (¬ InteractionState.Same { t with revision := s.revision } s ∧
    t.revision.toNat = s.revision.toNat + 1) ∨ t.Same s

theorem InteractionState.Advances.le {s t : InteractionState} (h : s.Advances t) :
    s.revision ≤ t.revision := by
  rw [UInt64.le_iff_toNat_le]
  rcases h with ⟨_, hr⟩ | h
  · omega
  · rw [h.revision]

theorem checkVariableValue_number {value : VariableValue} {u : Unit}
    (h : checkVariableValue value limits = .ok u) : value.Number := by
  intro x hx
  rw [hx, checkVariableValue, rejectIf_eq_ok, not_not] at h
  exact Ieee.isNaN_of_isFinite h

theorem StateOk.number (h : StateOk lib limits state) : ∀ b ∈ state.vars.values, b.value.Number :=
  fun b hb => checkVariableValue_number (h.varValues b hb)

/-- **An event keeps the state accepted and counts its change.** -/
theorem EventHandled.ok (hh : EventHandled lib engine state event context outcome run)
    (hbytes : 64 ≤ engine.limits.maxIdentifierBytes) (hnamed : engine.Named)
    (hok : StateOk lib engine.limits state) :
    StateOk lib engine.limits outcome.state ∧ state.Advances outcome.state := by
  have hrun := hh.run_ok hbytes hnamed hok
  have hrevision := hh.run_revision
  have hadvances : state.Advances outcome.state := by
    cases heq : run.state.eq state with
    | false =>
      refine .inl ⟨fun hsame => ?_, hh.changed heq⟩
      have hback : ({ outcome.state with revision := state.revision } : InteractionState) = run.state := by
        rw [hh.state_eq, ← hrevision]
      rw [hback, ← InteractionState.eq_iff_same hrun.number, heq] at hsame
      cases hsame
    | true =>
      right
      have hstay : outcome.state = run.state := by
        rw [hh.state_eq, hh.unchanged heq]
      rw [hstay]
      exact InteractionState.same_of_eq heq
  refine ⟨?_, hadvances⟩
  rw [hh.state_eq]
  exact hrun.setRevision (hrevision ▸ hadvances.le)

/-! ## Proposals -/

variable {proposalId : String} {expected : UInt64} {now : Int} {p : InteractionProposalRecord}

theorem nextRevision_eq_ok {revision : UInt64} (h : nextRevision state = .ok revision) :
    revision.toNat = state.revision.toNat + 1 :=
  checkedSucc_eq_some (okOr_eq_ok.1 h)

theorem findPending_eq_ok {index : Nat} {e : InteractionFailure}
    (h : findPending state proposalId = .ok index) (hp : okOr state.proposals[index]? e = .ok p) :
    state.proposals[index]? = some p ∧ p.proposalId = proposalId ∧ p.status = .pending := by
  have hindex := okOr_eq_ok.1 h
  rw [okOr_eq_ok] at hp
  have hfound := List.findIdx?_eq_some_iff_getElem.1 hindex
  obtain ⟨hlt, hfound, -⟩ := hfound
  rw [List.getElem?_eq_getElem hlt, Option.some.injEq] at hp
  rw [hp] at hfound
  simp only [Bool.and_eq_true, decide_eq_true_eq] at hfound
  exact ⟨by rw [List.getElem?_eq_getElem hlt, hp], hfound⟩

/-- **One pending proposal settled**, under the expected revision. -/
structure Settled (lib : Externals) (state : InteractionState) (proposalId : String) (expected : UInt64)
    (now : Int) (status : InteractionProposalStatus) (next : InteractionState) (index : Nat)
    (p : InteractionProposalRecord) : Prop where
  accepted : validateInteractionState lib state defaultInteractionLimits = .ok ()
  revision : state.revision = expected
  found : state.proposals[index]? = some p
  proposalId_eq : p.proposalId = proposalId
  pending : p.status = .pending
  requested : p.requestedAtEpochSeconds ≤ now
  terminal : status ≠ .pending
  due : p.due now = true ↔ status = .expired
  next_eq : next = settleAt state index status now next.revision
  advanced : next.revision.toNat = state.revision.toNat + 1

theorem decidePending_eq_ok {decision : InteractionProposalDecision}
    {outcome : InteractionProposalDecisionOutcome}
    (h : decidePending lib state proposalId decision expected now = .ok outcome) :
    ∃ index p, Settled lib state proposalId expected now decision.status outcome.state index p ∧
      outcome.proposal = p.settle decision.status now ∧
      outcome.eventAfterCommit = if decision = .approve then some (.userAction p.proposalId) else none := by
  obtain ⟨-, h⟩ := seq_eq_ok.1 h
  obtain ⟨haccepted, h⟩ := seq_eq_ok.1 h
  obtain ⟨-, h⟩ := seq_eq_ok.1 h
  obtain ⟨-, h⟩ := seq_eq_ok.1 h
  obtain ⟨hrevision, h⟩ := seq_eq_ok.1 h
  obtain ⟨index, hindex, h⟩ := bind_eq_ok.1 h
  obtain ⟨p, hp, h⟩ := bind_eq_ok.1 h
  obtain ⟨hrequested, h⟩ := seq_eq_ok.1 h
  obtain ⟨hdue, h⟩ := seq_eq_ok.1 h
  obtain ⟨revision, hnext, h⟩ := bind_eq_ok.1 h
  have h := pure_eq_ok.1 h
  subst h
  obtain ⟨hfound, hid, hpending⟩ := findPending_eq_ok hindex hp
  rw [checkRevision, rejectIf_eq_ok, not_not] at hrevision
  rw [rejectIf_eq_ok] at hrequested hdue
  refine ⟨index, p, ⟨haccepted, hrevision, hfound, hid, hpending, by omega, ?_, ?_, rfl,
    nextRevision_eq_ok hnext⟩, rfl, rfl⟩
  · cases decision <;> simp [InteractionProposalDecision.status]
  · cases decision <;> simp [InteractionProposalDecision.status, hdue]

theorem expirePendingProposal_eq_ok {outcome : InteractionProposalExpiryOutcome}
    (h : expirePendingProposal lib state proposalId expected now = .ok outcome) :
    ∃ index p, Settled lib state proposalId expected now .expired outcome.state index p := by
  obtain ⟨-, h⟩ := seq_eq_ok.1 h
  obtain ⟨haccepted, h⟩ := seq_eq_ok.1 h
  obtain ⟨-, h⟩ := seq_eq_ok.1 h
  obtain ⟨-, h⟩ := seq_eq_ok.1 h
  obtain ⟨hrevision, h⟩ := seq_eq_ok.1 h
  obtain ⟨index, hindex, h⟩ := bind_eq_ok.1 h
  obtain ⟨p, hp, h⟩ := bind_eq_ok.1 h
  obtain ⟨hrequested, h⟩ := seq_eq_ok.1 h
  obtain ⟨hdue, h⟩ := seq_eq_ok.1 h
  obtain ⟨revision, hnext, h⟩ := bind_eq_ok.1 h
  obtain ⟨-, h⟩ := seq_eq_ok.1 h
  have h := pure_eq_ok.1 h
  subst h
  obtain ⟨hfound, hid, hpending⟩ := findPending_eq_ok hindex hp
  rw [checkRevision, rejectIf_eq_ok, not_not] at hrevision
  rw [rejectIf_eq_ok] at hrequested hdue
  exact ⟨index, p, haccepted, hrevision, hfound, hid, hpending, by omega, by simp, by simpa using hdue, rfl,
    nextRevision_eq_ok hnext⟩

/-- **The due proposals expired**, under the expected revision. -/
structure Swept (lib : Externals) (state : InteractionState) (expected : UInt64) (now : Int)
    (next : InteractionState) : Prop where
  accepted : validateInteractionState lib state defaultInteractionLimits = .ok ()
  revision : state.revision = expected
  next_eq : next = state ∨ (∃ p ∈ state.proposals, p.isDue now = true) ∧
    next = { state with proposals := expireDue now state.proposals, revision := next.revision } ∧
    next.revision.toNat = state.revision.toNat + 1

theorem expirePendingProposals_eq_ok {outcome : InteractionProposalExpiryOutcome}
    (h : expirePendingProposals lib state expected now = .ok outcome) :
    Swept lib state expected now outcome.state := by
  obtain ⟨-, h⟩ := seq_eq_ok.1 h
  obtain ⟨haccepted, h⟩ := seq_eq_ok.1 h
  obtain ⟨-, h⟩ := seq_eq_ok.1 h
  obtain ⟨hrevision, h⟩ := seq_eq_ok.1 h
  rw [checkRevision, rejectIf_eq_ok, not_not] at hrevision
  refine ⟨haccepted, hrevision, ?_⟩
  split at h
  · left
    have h := pure_eq_ok.1 h
    rw [← h]
  · rename_i hany
    obtain ⟨revision, hnext, h⟩ := bind_eq_ok.1 h
    obtain ⟨-, h⟩ := seq_eq_ok.1 h
    have h := pure_eq_ok.1 h
    rw [Bool.not_eq_false, List.any_eq_true] at hany
    subst h
    exact .inr ⟨hany, rfl, nextRevision_eq_ok hnext⟩

/-- The moves of one settled proposal. -/
theorem Settled.moves {status : InteractionProposalStatus} {next : InteractionState} {index : Nat}
    (h : Settled lib state proposalId expected now status next index p) :
    List.Forall₂ InteractionProposalRecord.Moves state.proposals next.proposals := by
  rw [h.next_eq]
  refine forall₂_modify (fun _ => .inl rfl) fun q hq => ?_
  rw [h.found, Option.some.injEq] at hq
  subst hq
  exact .inr ⟨h.pending, status, now, rfl, h.terminal, h.requested, h.due⟩

/-- The moves of the expired proposals. -/
theorem expireDue_moves (hok : StateOk lib limits state) :
    List.Forall₂ InteractionProposalRecord.Moves state.proposals (expireDue now state.proposals) := by
  refine forall₂_map fun q hq => ?_
  split
  · rename_i hdue
    simp only [InteractionProposalRecord.isDue, Bool.and_eq_true, decide_eq_true_eq] at hdue
    obtain ⟨e, he, hle⟩ := due_iff.1 hdue.2
    have := (hok.proposals q hq).deadline e he
    exact .inr ⟨hdue.1, .expired, now, rfl, by simp, by omega, by simp [hdue.2]⟩
  · exact .inl rfl

/-- A settled proposal is a change. -/
theorem Settled.changed {status : InteractionProposalStatus} {next : InteractionState} {index : Nat}
    (h : Settled lib state proposalId expected now status next index p) :
    next.proposals ≠ state.proposals := by
  intro heq
  have hat : next.proposals[index]? = some (p.settle status now) := by
    rw [h.next_eq]
    simp [settleAt, h.found]
  rw [heq, h.found, Option.some.injEq] at hat
  exact h.terminal (h.pending ▸ (congrArg (·.status) hat).symm)

theorem expireDue_changed {proposals : List InteractionProposalRecord} (hp : p ∈ proposals)
    (hdue : p.isDue now = true) : expireDue now proposals ≠ proposals := by
  intro heq
  obtain ⟨index, hindex⟩ := List.mem_iff_getElem?.1 hp
  have hat : (expireDue now proposals)[index]? = some (p.settle .expired now) := by
    simp [expireDue, hindex, hdue]
  rw [heq, hindex, Option.some.injEq] at hat
  simp only [InteractionProposalRecord.isDue, Bool.and_eq_true, decide_eq_true_eq] at hdue
  have := (congrArg (·.status) hat).symm.trans hdue.1
  simp [InteractionProposalRecord.settle] at this

theorem advances_of_proposals {next : InteractionState} (hchanged : next.proposals ≠ state.proposals)
    (hrevision : next.revision.toNat = state.revision.toNat + 1) : state.Advances next :=
  .inl ⟨fun hsame => hchanged hsame.proposals, hrevision⟩

/-! ## Runs -/

/-- One successful operation on a stored state. -/
inductive InteractionStep (lib : Externals) (state : InteractionState) : InteractionState → Prop
  | handle {sets : List InteractionRuleSet} {approvals : List String} {engine : InteractionEngine}
      {event : InteractionEvent} {context : InteractionContext} {outcome : InteractionOutcome}
      (hcompile : compileWithOptions sets defaultInteractionLimits approvals = .ok engine)
      (h : handleEvent lib engine state event context = .ok outcome) :
      InteractionStep lib state outcome.state
  | decide {proposalId : String} {decision : InteractionProposalDecision} {expected : UInt64} {now : Int}
      {outcome : InteractionProposalDecisionOutcome}
      (h : decidePending lib state proposalId decision expected now = .ok outcome) :
      InteractionStep lib state outcome.state
  | expire {proposalId : String} {expected : UInt64} {now : Int}
      {outcome : InteractionProposalExpiryOutcome}
      (h : expirePendingProposal lib state proposalId expected now = .ok outcome) :
      InteractionStep lib state outcome.state
  | sweep {expected : UInt64} {now : Int} {outcome : InteractionProposalExpiryOutcome}
      (h : expirePendingProposals lib state expected now = .ok outcome) :
      InteractionStep lib state outcome.state

theorem defaultLimits_pending : defaultInteractionLimits.maxPendingProposals < usizeMax := by decide

theorem Settled.ok {status : InteractionProposalStatus} {next : InteractionState} {index : Nat}
    (h : Settled lib state proposalId expected now status next index p)
    (hok : StateOk lib limits state) : StateOk lib limits next ∧ state.Advances next := by
  have hadvances := advances_of_proposals h.changed h.advanced
  have hnext : next =
      { state with proposals := next.proposals, revision := next.revision } := by
    rw [h.next_eq]
    rfl
  refine ⟨?_, hadvances⟩
  rw [hnext]
  exact hok.settle hadvances.le h.moves

theorem Swept.ok {next : InteractionState} (h : Swept lib state expected now next)
    (hok : StateOk lib limits state) : StateOk lib limits next ∧ state.Advances next := by
  rcases h.next_eq with rfl | ⟨⟨p, hp, hdue⟩, hnext, hrevision⟩
  · exact ⟨hok, .inr ⟨.refl _, rfl, rfl, rfl⟩⟩
  · have hproposals : next.proposals = expireDue now state.proposals := by rw [hnext]
    have hadvances := advances_of_proposals (hproposals ▸ expireDue_changed hp hdue) hrevision
    refine ⟨?_, hadvances⟩
    rw [hnext]
    exact hok.settle hadvances.le (expireDue_moves hok)

/-- **Every operation keeps the state accepted and counts its change.** -/
theorem InteractionStep.ok {next : InteractionState} (h : InteractionStep lib state next)
    (hok : StateOk lib defaultInteractionLimits state) :
    StateOk lib defaultInteractionLimits next ∧ state.Advances next := by
  cases h with
  | handle hcompile h =>
    obtain ⟨hlimits, -, hnamed⟩ := compileWithOptions_named hcompile
    obtain ⟨run, hh⟩ := handleEvent_eq_ok h
    rw [← hlimits] at hok ⊢
    exact hh.ok (by rw [hlimits]; decide) hnamed hok
  | decide h =>
    obtain ⟨index, p, h, -, -⟩ := decidePending_eq_ok h
    exact h.ok hok
  | expire h =>
    obtain ⟨index, p, h⟩ := expirePendingProposal_eq_ok h
    exact h.ok hok
  | sweep h => exact (expirePendingProposals_eq_ok h).ok hok

/-- **The state invariant of the interaction machine.** -/
theorem reachable_state_accepted {start : InteractionState}
    (haccepted : validateInteractionState lib start defaultInteractionLimits = .ok ())
    (hrun : ReflTransGen (InteractionStep lib) start state) :
    validateInteractionState lib state defaultInteractionLimits = .ok () ∧
      ∀ next, InteractionStep lib state next → state.Advances next := by
  have hstart := (validateInteractionState_eq_ok defaultLimits_pending).1 haccepted
  have hok : StateOk lib defaultInteractionLimits state :=
    run_inv (fun _ _ hs hstep => (hstep.ok hs).1) hrun hstart
  exact ⟨(validateInteractionState_eq_ok defaultLimits_pending).2 hok,
    fun next hnext => (hnext.ok hok).2⟩

/-! ## The sign of a zero -/

/-- `0.0` and `-0.0`. -/
def zero64 (negative : Bool) : F64 := .ofFields negative 0 0

def lampRef : VariableRef := ⟨.conversation, none, "lamp"⟩

/-- A state that binds one zero. -/
def lampState (negative : Bool) : InteractionState :=
  ⟨⟨[⟨lampRef, .decimal (zero64 negative)⟩]⟩, [], [], 0⟩

/-- A rule for opened conversations. -/
def openingRule (actions : List InteractionAction) : InteractionRule where
  id := "opening-rule"
  name := "Opening"
  enabled := true
  importedAuthorEnabled := false
  event := .conversationOpened
  condition := none
  actions := actions
  priority := 0
  stopAfterMatch := false
  provenance := plainProvenance .userCreated

/-- A set of one rule. -/
def openingSet (actions : List InteractionAction) : InteractionRuleSet where
  id := "opening-set"
  name := "Opening"
  schemaVersion := 1
  rules := [openingRule actions]
  maxActionsPerEvent := 4
  provenance := plainProvenance .userCreated

/-- The set that writes the negative zero. -/
def lampSet : InteractionRuleSet :=
  openingSet [.setVariable lampRef (.literal (.decimal (zero64 true)))]

/-- A context without template values, at the epoch. -/
def plainContext : InteractionContext := ⟨0, 0, [], ⟨none, none, none, none, none, none⟩⟩

/-- The signs of the decimals of a map. -/
def zeroSigns (m : VariableMap) : List Bool :=
  m.values.filterMap fun b =>
    match b.value with
    | .decimal x => some x.negative
    | _ => none

theorem engineOf_compiles {sets : List InteractionRuleSet} {approvals : List String}
    (h : (compileWithOptions sets limits approvals).isOk = true) :
    compileWithOptions sets limits approvals = .ok (engineOf limits approvals sets) := by
  obtain ⟨engine, hengine⟩ := exists_ok h
  rw [hengine, (compileWithOptions_eq_ok.1 hengine).2]

theorem lampSet_compiles :
    compileWithOptions [lampSet] defaultInteractionLimits [] =
      .ok (engineOf defaultInteractionLimits [] [lampSet]) :=
  engineOf_compiles (by decide +kernel)

/-- The event changes the sign of the zero and nothing else. -/
theorem lampState_handled : ∃ outcome,
    handleEvent sampleExternals (engineOf defaultInteractionLimits [] [lampSet]) (lampState false)
      .conversationOpened plainContext = .ok outcome ∧
    (outcome.state.revision, zeroSigns outcome.state.vars) = (0, [true]) :=
  exists_ok_of_map (by decide +kernel)

theorem lampState_accepted :
    validateInteractionState sampleExternals (lampState false) defaultInteractionLimits = .ok () := by
  decide +kernel

/-- A reachable state after the event. -/
theorem reachable_state_accepted_lampState : ∃ next,
    InteractionStep sampleExternals (lampState false) next ∧
      validateInteractionState sampleExternals next defaultInteractionLimits = .ok () ∧
      ∀ last, InteractionStep sampleExternals next last → next.Advances last := by
  obtain ⟨outcome, houtcome, -⟩ := lampState_handled
  have hstep : InteractionStep sampleExternals (lampState false) outcome.state :=
    .handle lampSet_compiles houtcome
  exact ⟨_, hstep, reachable_state_accepted lampState_accepted (.single hstep)⟩

/-- **A step that keeps the revision may still change the state**: the sign of a zero. -/
theorem lampState_sign_changes : ∃ next,
    validateInteractionState sampleExternals (lampState false) defaultInteractionLimits = .ok () ∧
      InteractionStep sampleExternals (lampState false) next ∧
      next.revision = (lampState false).revision ∧ next ≠ lampState false := by
  obtain ⟨outcome, houtcome, hsigns⟩ := lampState_handled
  rw [Prod.mk.injEq] at hsigns
  refine ⟨_, lampState_accepted, .handle lampSet_compiles houtcome, hsigns.1, fun heq => ?_⟩
  have := hsigns.2
  rw [heq] at this
  cases this

end LorePia
