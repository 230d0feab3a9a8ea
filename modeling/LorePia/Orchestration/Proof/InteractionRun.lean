import LorePia.Domain.Proof.Validate
import LorePia.Orchestration.Proof.InteractionState

/-!
# What the interaction engine can do

`ActionStep` lists everything one action may do to a state and which effects it pushes; each later fact
about the engine is a case analysis on it. `applyActions_inv` and `runRules_inv` carry an invariant of
one step over the actions of a rule and over the rules of an event, and `handleEvent_eq_ok` opens a
handled event.
-/

namespace LorePia

open Base

variable {lib : Externals} {limits : InteractionLimits} {source : ActionSource}
  {state state' : InteractionState} {action : InteractionAction} {pushed : List InteractionEffect}

/-! ## One action -/

/-- The variable that an action writes. -/
def InteractionAction.target : InteractionAction → Option VariableRef
  | .setVariable target _ | .incrementVariable target _ => some target
  | .rollDice _ target => target
  | .activateKnowledge _ | .showAsset .. | .playAudio _ | .presentChoices _
  | .appendVisibleSystemEvent _ | .requestUserApproval _ => none

/-- The proposal that an effect asks approval for: its rule set, rule, id, title and body. -/
def InteractionEffect.request : InteractionEffect →
    Option (InteractionRuleSetId × InteractionRuleId × String × String × String)
  | .approvalRequested ruleSetId ruleId proposalId title body _ =>
    some (ruleSetId, ruleId, proposalId, title, body)
  | .variableSet .. | .knowledgeActivated _ | .assetShown .. | .audioRequested _ | .choicesPresented _
  | .visibleSystemEvent _ | .diceRolled .. => none

/-- An effect that goes with no change of the state. -/
def InteractionEffect.Silent (effect : InteractionEffect) : Prop :=
  effect.derivedEvent = none ∧ effect.request = none

/-- The record that a proposal is stored as. -/
def pendingRecord (lib : Externals) (source : ActionSource) (revision : UInt64) (proposal : ProposalSpec)
    (body : String) (expiresAt : Option Int) : InteractionProposalRecord where
  id := proposalRecordId lib source.ruleSetId source.ruleId proposal.id revision
  ruleSetId := source.ruleSetId
  ruleId := source.ruleId
  proposalId := proposal.id
  title := proposal.title
  body := body
  status := .pending
  sourceInteractionStateRevision := revision
  requestedAtEpochSeconds := source.context.eventEpochSeconds
  expiresAtEpochSeconds := expiresAt
  decidedAtEpochSeconds := none

/-- What `append_pending_proposal` checked. -/
structure ProposalFits (lib : Externals) (limits : InteractionLimits) (source : ActionSource)
    (state : InteractionState) (proposal : ProposalSpec) (body : String) (expiresAt : Option Int) :
    Prop where
  time : 0 ≤ source.context.eventEpochSeconds
  title : StoredTextOk maxInteractionProposalTitleChars proposal.title
  body : StoredTextOk maxInteractionProposalBodyChars body
  count : state.proposals.length < limits.maxProposals
  pending : (pendingProposalIds state.proposals).length < limits.maxPendingProposals
  proposalNew : proposal.id ∉ pendingProposalIds state.proposals
  deadline : ∀ e, expiresAt = some e → source.context.eventEpochSeconds ≤ e
  recordNew : proposalRecordId lib source.ruleSetId source.ruleId proposal.id state.revision ∉
    state.proposals.map (·.id)

theorem proposalDeadline_le {now : Int} {seconds : Option UInt32} {expiresAt : Option Int}
    (h : proposalDeadline now seconds = .ok expiresAt) : ∀ e, expiresAt = some e → now ≤ e := by
  intro e he
  unfold proposalDeadline at h
  cases seconds with
  | none =>
    cases h
    cases he
  | some seconds =>
    obtain ⟨expires, hexpires, h⟩ := bind_eq_ok.1 h
    rw [okOr_eq_ok] at hexpires
    have := i64TryFrom_eq_some hexpires
    cases h
    cases he
    omega

theorem appendPendingProposal_eq_ok {proposal : ProposalSpec} {body : String}
    (h : appendPendingProposal lib limits source state proposal body = .ok state') :
    ∃ expiresAt, ProposalFits lib limits source state proposal body expiresAt ∧
      state' = { state with
        proposals := state.proposals ++
          [pendingRecord lib source state.revision proposal body expiresAt] } := by
  obtain ⟨htime, h⟩ := seq_eq_ok.1 h
  obtain ⟨htitle, h⟩ := seq_eq_ok.1 h
  obtain ⟨hbody, h⟩ := seq_eq_ok.1 h
  obtain ⟨hcount, h⟩ := seq_eq_ok.1 h
  obtain ⟨hpending, h⟩ := seq_eq_ok.1 h
  obtain ⟨hnew, h⟩ := seq_eq_ok.1 h
  obtain ⟨expiresAt, hexpires, h⟩ := bind_eq_ok.1 h
  obtain ⟨hrecord, h⟩ := seq_eq_ok.1 h
  rw [rejectIf_eq_ok] at hcount hpending hnew hrecord
  refine ⟨expiresAt, ⟨validateEpochSeconds_eq_ok.1 htime, validateRequiredNativePlainText_stored htitle,
    validateRequiredNativePlainText_stored hbody, by omega, ?_, ?_, proposalDeadline_le hexpires, ?_⟩,
    (pure_eq_ok.1 h).symm⟩
  · simpa [pendingProposalIds] using hpending
  · simpa [pendingProposalIds, and_comm] using hnew
  · simpa using hrecord

/-- **Everything that an action can do.** -/
inductive ActionStep (lib : Externals) (limits : InteractionLimits) (source : ActionSource)
    (state : InteractionState) :
    InteractionAction → InteractionState → List InteractionEffect → Prop
  /-- A variable is written, with an effect when its value changes. -/
  | write {action : InteractionAction} {target : VariableRef} {value : VariableValue}
      {silent : List InteractionEffect} (htarget : action.target = some target)
      (hvalue : (∃ expression, action = .setVariable target expression ∧
        resolveValue expression state.vars = .ok value) ∨ ∃ n, value = .integer n)
      (hsilent : ∀ effect ∈ silent, effect.Silent) :
      ActionStep lib limits source state action (setVariable state target value).1
        ((setVariable state target value).2 ++ silent)
  /-- An inactive entry is activated. -/
  | activate {entryId : KnowledgeEntryId} (hnew : entryId ∉ state.manuallyActiveKnowledge) :
      ActionStep lib limits source state (.activateKnowledge entryId)
        { state with
          manuallyActiveKnowledge :=
            (state.manuallyActiveKnowledge ++ [entryId]).insertionSort (· ≤ ·) }
        [.knowledgeActivated entryId]
  /-- A proposal is stored. -/
  | propose {proposal : ProposalSpec} {body : String} {expiresAt : Option Int}
      (hfits : ProposalFits lib limits source state proposal body expiresAt) :
      ActionStep lib limits source state (.requestUserApproval proposal)
        { state with
          proposals := state.proposals ++
            [pendingRecord lib source state.revision proposal body expiresAt] }
        [.approvalRequested source.ruleSetId source.ruleId proposal.id proposal.title body
          proposal.expiresAfterSeconds]
  /-- The state stays as it is. -/
  | leave {action : InteractionAction} {silent : List InteractionEffect} (htarget : action.target = none)
      (hsilent : ∀ effect ∈ silent, effect.Silent) :
      ActionStep lib limits source state action state silent

theorem silent_nil : ∀ effect ∈ ([] : List InteractionEffect), effect.Silent := by simp

theorem silent_singleton {effect : InteractionEffect} (h : effect.Silent) :
    ∀ e ∈ [effect], e.Silent := by
  intro e he
  rwa [List.mem_singleton.1 he]

theorem performAction_step {index : Nat}
    (h : performAction lib limits source state index action = .ok (state', pushed)) :
    ActionStep lib limits source state action state' pushed := by
  cases action with
  | setVariable target expression =>
    obtain ⟨value, hvalue, h⟩ := bind_eq_ok.1 h
    have h : (setVariable state target value) = (state', pushed) := pure_eq_ok.1 h
    have hs := @ActionStep.write lib limits source state _ target value [] rfl
      (.inl ⟨expression, rfl, hvalue⟩) silent_nil
    rwa [List.append_nil, h] at hs
  | incrementVariable target amount =>
    obtain ⟨current, -, h⟩ := bind_eq_ok.1 h
    obtain ⟨value, -, h⟩ := bind_eq_ok.1 h
    have h : (setVariable state target (.integer value)) = (state', pushed) := pure_eq_ok.1 h
    have hs := @ActionStep.write lib limits source state (.incrementVariable target amount) target
      (.integer value) [] rfl (.inr ⟨value, rfl⟩) silent_nil
    rwa [List.append_nil, h] at hs
  | activateKnowledge entryId =>
    simp only [performAction] at h
    split at h
    · cases h
      exact .leave rfl silent_nil
    · rename_i hnew
      cases h
      exact .activate hnew
  | showAsset assetId region =>
    cases h
    exact .leave rfl (silent_singleton ⟨rfl, rfl⟩)
  | playAudio assetId =>
    cases h
    exact .leave rfl (silent_singleton ⟨rfl, rfl⟩)
  | presentChoices choices =>
    obtain ⟨rendered, -, h⟩ := bind_eq_ok.1 h
    cases h
    refine .leave rfl ?_
    split
    · exact silent_nil
    · exact silent_singleton ⟨rfl, rfl⟩
  | appendVisibleSystemEvent text =>
    obtain ⟨rendered, -, h⟩ := bind_eq_ok.1 h
    cases h
    exact .leave rfl (silent_singleton ⟨rfl, rfl⟩)
  | rollDice expression target =>
    obtain ⟨⟨rolls, total⟩, -, h⟩ := bind_eq_ok.1 h
    cases target with
    | none =>
      cases h
      exact .leave rfl (silent_singleton ⟨rfl, rfl⟩)
    | some target =>
      cases h
      exact .write rfl (.inr ⟨total, rfl⟩) (silent_singleton ⟨rfl, rfl⟩)
  | requestUserApproval proposal =>
    obtain ⟨body, -, h⟩ := bind_eq_ok.1 h
    obtain ⟨next, hnext, h⟩ := bind_eq_ok.1 h
    obtain ⟨expiresAt, hfits, rfl⟩ := appendPendingProposal_eq_ok hnext
    cases h
    exact .propose hfits

theorem ActionStep.revision (h : ActionStep lib limits source state action state' pushed) :
    state'.revision = state.revision := by
  cases h <;> rfl

/-! ## The actions of a rule -/

/-- A derived event with its ordinals as numbers. -/
def InteractionDerivedEvent.key (derived : InteractionDerivedEvent) :
    InteractionEvent × InteractionRuleSetId × InteractionRuleId × Nat × Nat :=
  (derived.event, derived.sourceRuleSetId, derived.sourceRuleId, derived.sourceActionOrdinal.toNat,
    derived.sourceEffectOrdinal.toNat)

/-- The derived events of the effects that action `index` pushed, in order. -/
def derivedKeys (source : ActionSource) (index : Nat) (items : List (InteractionEffect × Nat)) :
    List (InteractionEvent × InteractionRuleSetId × InteractionRuleId × Nat × Nat) :=
  items.filterMap fun item => item.1.derivedEvent.map fun event =>
    (event, source.ruleSetId, source.ruleId, index, source.effectOrdinalBase + item.2)

theorem deriveEvents_eq_ok {index : Nat} : ∀ {items : List (InteractionEffect × Nat)}
    {derived derived' : List InteractionDerivedEvent},
    items.foldlM (deriveEvent source index) derived = .ok derived' →
    derived'.map (·.key) = derived.map (·.key) ++ derivedKeys source index items
  | [], derived, derived', h => by
    cases h
    simp [derivedKeys]
  | item :: items, derived, derived', h => by
    rw [List.foldlM_cons] at h
    obtain ⟨next, hnext, h⟩ := bind_eq_ok.1 h
    rw [deriveEvents_eq_ok h]
    cases he : item.1.derivedEvent with
    | none =>
      simp only [deriveEvent, he] at hnext
      cases hnext
      simp [derivedKeys, he]
    | some event =>
      simp only [deriveEvent, he] at hnext
      obtain ⟨actionOrdinal, haction, hnext⟩ := bind_eq_ok.1 hnext
      obtain ⟨effectOrdinal, heffect, hnext⟩ := bind_eq_ok.1 hnext
      simp only [okOr_eq_ok, u32TryFrom_eq_some] at haction heffect
      obtain ⟨sum, hsum, heffect⟩ := Option.bind_eq_some_iff.1 heffect
      rw [u32TryFrom_eq_some] at heffect
      obtain ⟨-, rfl⟩ := checkedAdd_eq_some.1 hsum
      rw [← pure_eq_ok.1 hnext]
      simp [derivedKeys, he, InteractionDerivedEvent.key, haction, heffect]

/-- The limits that are checked after every action. -/
structure ProgressFits (limits : InteractionLimits) (progress : ActionProgress) : Prop where
  vars : progress.state.vars.values.length ≤ limits.maxVariables
  knowledge : progress.state.manuallyActiveKnowledge.length ≤ maxKnowledgeEntries
  effects : progress.effects.length ≤ limits.maxEffects

/-- **One action of a rule**: it was valid, it made a step, and its effects were recorded. -/
structure ActionApplied (lib : Externals) (limits : InteractionLimits) (source : ActionSource)
    (index : Nat) (action : InteractionAction) (progress progress' : ActionProgress)
    (pushed : List InteractionEffect) : Prop where
  valid : validateAction action source.provenance limits = .ok ()
  performed : performAction lib limits source progress.state index action =
    .ok (progress'.state, pushed)
  effects : progress'.effects = progress.effects ++ pushed
  derived : progress'.derivedEvents.map (·.key) = progress.derivedEvents.map (·.key) ++
    derivedKeys source index (pushed.zipIdx progress.effects.length)
  within : ProgressFits limits progress'

theorem applyAction_eq_ok {index : Nat} {progress progress' : ActionProgress}
    (h : applyAction lib limits source progress (action, index) = .ok progress') :
    ∃ pushed, ActionApplied lib limits source index action progress progress' pushed := by
  obtain ⟨hvalid, h⟩ := seq_eq_ok.1 h
  obtain ⟨⟨next, pushed⟩, hperform, h⟩ := bind_eq_ok.1 h
  obtain ⟨derived, hderived, h⟩ := bind_eq_ok.1 h
  obtain ⟨hvars, h⟩ := seq_eq_ok.1 h
  obtain ⟨hknowledge, h⟩ := seq_eq_ok.1 h
  obtain ⟨-, h⟩ := seq_eq_ok.1 h
  obtain ⟨heffects, h⟩ := seq_eq_ok.1 h
  rw [rejectIf_eq_ok, gt_iff_lt, not_lt] at hvars hknowledge heffects
  have h := pure_eq_ok.1 h
  subst h
  exact ⟨pushed, hvalid, hperform, rfl, deriveEvents_eq_ok hderived, hvars, hknowledge, heffects⟩

theorem ActionApplied.step {index : Nat} {progress progress' : ActionProgress}
    (h : ActionApplied lib limits source index action progress progress' pushed) :
    ActionStep lib limits source progress.state action progress'.state pushed :=
  performAction_step h.performed

/-- **The invariant rule for the actions of a rule.** -/
theorem applyActions_inv {I : List InteractionAction → ActionProgress → Prop}
    {actions : List InteractionAction} {progress : ActionProgress}
    (h : applyActions lib limits source actions state = .ok progress) (hinit : I [] ⟨state, [], []⟩)
    (hstep : ∀ done action rest p p' pushed, actions = done ++ action :: rest → I done p →
      ActionApplied lib limits source done.length action p p' pushed → I (done ++ [action]) p') :
    I actions progress := by
  have hall : I (actions.zipIdx.map (·.1)) progress := by
    refine foldlM_ok_inv (I := fun done p => I (done.map (·.1)) p) h hinit ?_
    intro done item rest p p' hitems hp hitem
    obtain ⟨action, index⟩ := item
    have hactions : actions = done.map (·.1) ++ action :: rest.map (·.1) := by
      have := congrArg (List.map (·.1)) hitems
      simpa using this
    -- the index of an item is the number of items before it
    have hindex : index = (done.map (·.1)).length := by
      have := congrArg (·[done.length]?) hitems
      simp only [List.getElem?_zipIdx, List.getElem?_append_right (Nat.le_refl _), Nat.sub_self,
        List.getElem?_cons_zero, Option.map_eq_some_iff, Prod.mk.injEq] at this
      obtain ⟨_, -, -, hi⟩ := this
      simpa using hi.symm
    obtain ⟨pushed, happlied⟩ := applyAction_eq_ok hitem
    rw [List.map_append, List.map_singleton]
    exact hstep _ action _ p p' pushed hactions hp (hindex ▸ happlied)
  simpa using hall

/-! ## The rules of an event -/

/-- The source of the actions of a rule that runs after `base` effects. -/
def CompiledRule.actionSource (compiled : CompiledRule) (context : InteractionContext) (seed : UInt64)
    (base : Nat) : ActionSource :=
  ⟨compiled.setId, compiled.rule.id, compiled.rule.provenance, context,
    mixSeed seed (stableHash (stringBytes compiled.rule.id)), base⟩

variable {engine : InteractionEngine} {event : InteractionEvent} {context : InteractionContext}
  {seed : UInt64} {run next : RuleRun} {compiled : CompiledRule} {trace : InteractionRuleTrace}

/-- **A rule that was applied**: it was admitted and all its actions succeeded. -/
structure RuleApplied (lib : Externals) (engine : InteractionEngine) (event : InteractionEvent)
    (context : InteractionContext) (seed : UInt64) (run : RuleRun) (compiled : CompiledRule)
    (next : RuleRun) (trace : InteractionRuleTrace) (progress : ActionProgress) : Prop where
  enabled : compiled.rule.enabled = true
  approved : compiled.approvedForExecution = true
  event_eq : compiled.rule.event = event
  actions : applyActions lib engine.limits (compiled.actionSource context seed run.effects.length)
    compiled.rule.actions run.state = .ok progress
  state_eq : next.state = progress.state
  effects : next.effects = run.effects ++ progress.effects
  derived : next.derivedEvents = run.derivedEvents ++ progress.derivedEvents
  status : trace.status = .applied
  ruleId : trace.ruleId = compiled.rule.id

theorem runRule_commit (h : runRule lib engine event context seed run compiled = .commit next trace) :
    ∃ progress, RuleApplied lib engine event context seed run compiled next trace progress := by
  unfold runRule at h
  cases hadmitted : admitRule engine event context run compiled with
  | error e =>
    rw [hadmitted] at h
    cases h
  | ok counts =>
    cases hexecute : executeRule lib engine context seed run compiled with
    | error e =>
      rw [hadmitted, hexecute] at h
      cases h
    | ok progress =>
      rw [hadmitted, hexecute] at h
      obtain ⟨henabled, hadmitted⟩ := seq_eq_ok.1 hadmitted
      obtain ⟨happroved, hadmitted⟩ := seq_eq_ok.1 hadmitted
      obtain ⟨hevent, -⟩ := seq_eq_ok.1 hadmitted
      rw [rejectIf_eq_ok] at henabled happroved hevent
      obtain ⟨progress', hactions, hexecute⟩ := bind_eq_ok.1 hexecute
      obtain ⟨-, hexecute⟩ := seq_eq_ok.1 hexecute
      have hprogress := pure_eq_ok.1 hexecute
      subst hprogress
      cases h
      exact ⟨progress', by simpa using henabled, by simpa using happroved, not_not.1 hevent, hactions, rfl,
        rfl, rfl, rfl, rfl⟩

/-- The rules that an event applies, in order. -/
def appliedRules (lib : Externals) (engine : InteractionEngine) (event : InteractionEvent)
    (context : InteractionContext) (seed : UInt64) : List CompiledRule → RuleRun → List CompiledRule
  | [], _ => []
  | compiled :: rest, run =>
    match runRule lib engine event context seed run compiled with
    | .skip _ => appliedRules lib engine event context seed rest run
    | .commit next _ =>
      if compiled.rule.stopAfterMatch then [compiled]
      else compiled :: appliedRules lib engine event context seed rest next

theorem appliedRules_sublist : ∀ (rules : List CompiledRule) (run : RuleRun),
    (appliedRules lib engine event context seed rules run).Sublist rules
  | [], _ => .slnil
  | compiled :: rest, run => by
    rw [appliedRules]
    cases runRule lib engine event context seed run compiled with
    | skip trace => exact (appliedRules_sublist rest run).cons compiled
    | commit next trace =>
      dsimp only
      split
      · exact (List.nil_sublist rest).cons_cons compiled
      · exact (appliedRules_sublist rest next).cons_cons compiled

/-- **The invariant rule for the rules of an event**: `I done run` holds of the rules applied so far. -/
theorem runRules_inv {I : List CompiledRule → RuleRun → Prop} : ∀ {rules : List CompiledRule}
    {done : List CompiledRule} {run : RuleRun}, I done run →
    (∀ done compiled run next trace progress, compiled ∈ rules → I done run →
      RuleApplied lib engine event context seed run compiled next trace progress →
      I (done ++ [compiled]) next) →
    I (done ++ appliedRules lib engine event context seed rules run)
      (runRules lib engine event context seed rules run).1
  | [], done, run, hrun, _ => by
    rw [appliedRules, List.append_nil]
    exact hrun
  | compiled :: rest, done, run, hrun, hstep => by
    have hrest := fun done c run next trace progress (hc : c ∈ rest) =>
      hstep done c run next trace progress (List.mem_cons_of_mem compiled hc)
    rw [runRules, appliedRules]
    cases hrule : runRule lib engine event context seed run compiled with
    | skip trace => exact runRules_inv hrun hrest
    | commit next trace =>
      obtain ⟨progress, happlied⟩ := runRule_commit hrule
      have hnext := hstep done compiled run next trace progress (by simp) hrun happlied
      dsimp only
      split
      · exact hnext
      · have := runRules_inv hnext hrest
        rwa [List.append_assoc, List.singleton_append] at this

/-! ## Events -/

/-- **A handled event.** -/
structure EventHandled (lib : Externals) (engine : InteractionEngine) (state : InteractionState)
    (event : InteractionEvent) (context : InteractionContext) (outcome : InteractionOutcome)
    (run : RuleRun) : Prop where
  accepted : validateInteractionState lib state engine.limits = .ok ()
  time : 0 ≤ context.eventEpochSeconds
  rules : runRules lib engine event context (eventSeed context.deterministicSeed event state.revision)
    engine.rules (.start state) = (run, outcome.trace)
  effects : outcome.effects = run.effects
  derived : outcome.derivedEvents = run.derivedEvents
  state_eq : outcome.state = { run.state with revision := outcome.state.revision }
  changed : run.state.eq state = false → outcome.state.revision.toNat = state.revision.toNat + 1
  unchanged : run.state.eq state = true → outcome.state.revision = run.state.revision

theorem handleEvent_eq_ok {outcome : InteractionOutcome}
    (h : handleEvent lib engine state event context = .ok outcome) :
    ∃ run, EventHandled lib engine state event context outcome run := by
  obtain ⟨haccepted, h⟩ := seq_eq_ok.1 h
  obtain ⟨-, h⟩ := seq_eq_ok.1 h
  obtain ⟨htime, h⟩ := seq_eq_ok.1 h
  obtain ⟨revision, hrevision, h⟩ := bind_eq_ok.1 h
  have h := pure_eq_ok.1 h
  subst h
  refine ⟨_, haccepted, validateEpochSeconds_eq_ok.1 htime, rfl, rfl, rfl, rfl, fun hc => ?_, fun hc => ?_⟩
  · rw [eventRevision, if_neg (Bool.eq_false_iff.1 hc), nextRevision, okOr_eq_ok] at hrevision
    exact checkedSucc_eq_some hrevision
  · rw [eventRevision, if_pos hc] at hrevision
    cases hrevision
    rfl

/-- The rules that an event applies to a state. -/
def InteractionEngine.applied (lib : Externals) (engine : InteractionEngine) (state : InteractionState)
    (event : InteractionEvent) (context : InteractionContext) : List CompiledRule :=
  appliedRules lib engine event context (eventSeed context.deterministicSeed event state.revision)
    engine.rules (.start state)

/-- **The invariant rule for an event.** -/
theorem EventHandled.inv {I : List CompiledRule → RuleRun → Prop} {outcome : InteractionOutcome}
    (h : EventHandled lib engine state event context outcome run) (hinit : I [] (.start state))
    (hstep : ∀ done compiled run next trace progress, compiled ∈ engine.rules → I done run →
      RuleApplied lib engine event context
        (eventSeed context.deterministicSeed event state.revision) run compiled next trace progress →
      I (done ++ [compiled]) next) : I (engine.applied lib state event context) run := by
  have hrun := runRules_inv hinit hstep
  rwa [h.rules] at hrun

/-- The rules of an event do not touch the revision. -/
theorem EventHandled.run_revision {outcome : InteractionOutcome}
    (h : EventHandled lib engine state event context outcome run) :
    run.state.revision = state.revision := by
  refine h.inv (I := fun _ run => run.state.revision = state.revision) rfl ?_
  intro _ compiled run next trace progress _ hrun happlied
  rw [happlied.state_eq]
  refine applyActions_inv (I := fun _ p => p.state.revision = state.revision) happlied.actions hrun ?_
  intro _ action _ p p' pushed _ hp hstep
  exact hstep.step.revision.trans hp

end LorePia
