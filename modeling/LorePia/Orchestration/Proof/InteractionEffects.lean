import LorePia.Orchestration.Proof.InteractionInvariant

/-!
# Effects, derived events and replay

A handled event is a log of executed actions, each with the state before and after it and the effects it
pushed (`ActionLog`). The effects of the outcome are the effects of the log in order, and its derived
events are read off the log: one for each effect that changes a variable or activates an entry, at the
effect's index, under the rule and the action that pushed it (`EventHandled.log`). Replaying the effects
gives the state back up to the sign of a decimal zero, which a write may change without an effect.
-/

namespace LorePia

open Base

variable {lib : Externals} {limits : InteractionLimits} {source : ActionSource}
  {state state' : InteractionState} {action : InteractionAction} {pushed : List InteractionEffect}
  {engine : InteractionEngine} {event : InteractionEvent} {context : InteractionContext}
  {outcome : InteractionOutcome} {run : RuleRun}

/-! ## Logs -/

/-- One executed action. -/
structure ActionRecord where
  compiled : CompiledRule
  index : Nat
  action : InteractionAction
  before : InteractionState
  after : InteractionState
  pushed : List InteractionEffect

/-- The actions of a log follow one another from one state to another. -/
def ActionLog : InteractionState → List ActionRecord → InteractionState → Prop
  | s, [], t => s = t
  | s, r :: log, t => r.before = s ∧ ActionLog r.after log t

theorem ActionLog.append : ∀ {log log' : List ActionRecord} {s t u : InteractionState},
    ActionLog s log t → ActionLog t log' u → ActionLog s (log ++ log') u
  | [], _, _, _, _, rfl, h' => h'
  | _ :: _, _, _, _, _, ⟨hr, h⟩, h' => ⟨hr, ActionLog.append h h'⟩

theorem ActionLog.snoc {log : List ActionRecord} {s : InteractionState} {r : ActionRecord}
    (h : ActionLog s log r.before) : ActionLog s (log ++ [r]) r.after :=
  h.append ⟨rfl, rfl⟩

/-- The effects of a log in order, each with the action that pushed it. -/
def loggedEffects (log : List ActionRecord) : List (InteractionEffect × ActionRecord) :=
  log.flatMap fun r => r.pushed.map fun effect => (effect, r)

theorem loggedEffects_append (log log' : List ActionRecord) :
    loggedEffects (log ++ log') = loggedEffects log ++ loggedEffects log' := by
  simp [loggedEffects]

/-- The derived events of a log whose first effect has index `start`. -/
def loggedEvents (log : List ActionRecord) (start : Nat) :
    List (InteractionEvent × InteractionRuleSetId × InteractionRuleId × Nat × Nat) :=
  ((loggedEffects log).zipIdx start).filterMap fun item => item.1.1.derivedEvent.map fun event =>
    (event, item.1.2.compiled.setId, item.1.2.compiled.rule.id, item.1.2.index, item.2)

theorem loggedEvents_append (log log' : List ActionRecord) (start : Nat) :
    loggedEvents (log ++ log') start =
      loggedEvents log start ++ loggedEvents log' (start + (loggedEffects log).length) := by
  simp [loggedEvents, loggedEffects_append, List.zipIdx_append]

theorem map_loggedEffects_singleton (r : ActionRecord) : (loggedEffects [r]).map (·.1) = r.pushed := by
  simp [loggedEffects, Function.comp_def]

/-- The events of one action, with the ordinals that the engine gives them. -/
theorem loggedEvents_singleton {r : ActionRecord} (source : ActionSource) (hset : r.compiled.setId = source.ruleSetId)
    (hrule : r.compiled.rule.id = source.ruleId) (n : Nat) :
    loggedEvents [r] (source.effectOrdinalBase + n) =
      derivedKeys source r.index (r.pushed.zipIdx n) := by
  have hlist : ∀ (l : List InteractionEffect) (n : Nat),
      (((l.map fun effect => (effect, r)).zipIdx (source.effectOrdinalBase + n)).filterMap fun item =>
        item.1.1.derivedEvent.map fun event =>
          (event, item.1.2.compiled.setId, item.1.2.compiled.rule.id, item.1.2.index, item.2)) =
      derivedKeys source r.index (l.zipIdx n) := by
    intro l
    induction l with
    | nil => intro n; rfl
    | cons effect l ih =>
      intro n
      have ih := ih (n + 1)
      simp only [derivedKeys, ← Nat.add_assoc] at ih
      simp only [derivedKeys, List.map_cons, List.zipIdx_cons, List.filterMap_cons, ih, hset, hrule]
  simpa [loggedEvents, loggedEffects] using hlist r.pushed n

/-- An executed action of a rule that the event applies. -/
structure Executed (lib : Externals) (engine : InteractionEngine) (context : InteractionContext)
    (seed : UInt64) (r : ActionRecord) : Prop where
  action_at : r.compiled.rule.actions[r.index]? = some r.action
  performed : ∃ base, performAction lib engine.limits (r.compiled.actionSource context seed base) r.before
    r.index r.action = .ok (r.after, r.pushed)

/-- What a log says of the effects and derived events collected so far. -/
structure Recorded (log : List ActionRecord) (start : Nat) (effects : List InteractionEffect)
    (derived : List InteractionDerivedEvent) : Prop where
  effects_eq : effects = (loggedEffects log).map (·.1)
  derived_eq : derived.map (·.key) = loggedEvents log start

theorem Recorded.append {log log' : List ActionRecord} {start : Nat} {effects effects' : List InteractionEffect}
    {derived derived' : List InteractionDerivedEvent} (h : Recorded log start effects derived)
    (h' : Recorded log' (start + effects.length) effects' derived') :
    Recorded (log ++ log') start (effects ++ effects') (derived ++ derived') := by
  refine ⟨?_, ?_⟩
  · rw [h.effects_eq, h'.effects_eq, loggedEffects_append, List.map_append]
  · rw [List.map_append, h.derived_eq, h'.derived_eq, loggedEvents_append, h.effects_eq, List.length_map]

/-- The log of the actions of one rule. -/
theorem applyActions_log {compiled : CompiledRule} {seed : UInt64} {base : Nat} {progress : ActionProgress}
    (h : applyActions lib engine.limits (compiled.actionSource context seed base) compiled.rule.actions
      state = .ok progress) :
    ∃ log, ActionLog state log progress.state ∧ Recorded log base progress.effects progress.derivedEvents ∧
      ∀ r ∈ log, r.compiled = compiled ∧ Executed lib engine context seed r := by
  refine applyActions_inv (I := fun _ p => ∃ log, ActionLog state log p.state ∧
    Recorded log base p.effects p.derivedEvents ∧
    ∀ r ∈ log, r.compiled = compiled ∧ Executed lib engine context seed r) h
    ⟨[], rfl, ⟨rfl, rfl⟩, by simp⟩ ?_
  intro done action rest p p' pushed hactions hlog hstep
  obtain ⟨log, hchain, hlogged, hall⟩ := hlog
  -- the new record, and what it alone says
  let r : ActionRecord := ⟨compiled, done.length, action, p.state, p'.state, pushed⟩
  have hat : compiled.rule.actions[done.length]? = some action := by simp [hactions]
  refine ⟨log ++ [r], ActionLog.snoc (r := r) hchain, ⟨?_, ?_⟩, ?_⟩
  · rw [hstep.effects, hlogged.effects_eq, loggedEffects_append, List.map_append,
      map_loggedEffects_singleton]
  · rw [hstep.derived, hlogged.derived_eq, loggedEvents_append, hlogged.effects_eq, List.length_map]
    exact congrArg _ (loggedEvents_singleton (r := r) (compiled.actionSource context seed base)
      rfl rfl _).symm
  · intro other hother
    rcases List.mem_append.1 hother with hother | hother
    · exact hall other hother
    · rw [List.mem_singleton.1 hother]
      exact ⟨rfl, hat, base, hstep.performed⟩

/-- **The log of an event.** -/
theorem EventHandled.log (hh : EventHandled lib engine state event context outcome run) :
    ∃ log, ActionLog state log run.state ∧ Recorded log 0 outcome.effects outcome.derivedEvents ∧
      ∀ r ∈ log, r.compiled ∈ engine.applied lib state event context ∧
        Executed lib engine context (eventSeed context.deterministicSeed event state.revision) r := by
  rw [hh.effects, hh.derived]
  refine hh.inv (I := fun done run => ∃ log, ActionLog state log run.state ∧
    Recorded log 0 run.effects run.derivedEvents ∧ ∀ r ∈ log, r.compiled ∈ done ∧
      Executed lib engine context (eventSeed context.deterministicSeed event state.revision) r)
    ⟨[], rfl, ⟨rfl, rfl⟩, by simp⟩ ?_
  intro done compiled run next trace progress _ hlog happlied
  obtain ⟨log, hchain, hlogged, hall⟩ := hlog
  obtain ⟨log', hchain', hlogged', hall'⟩ := applyActions_log happlied.actions
  refine ⟨log ++ log', ?_, ?_, fun r hr => ?_⟩
  · rw [happlied.state_eq]
    exact hchain.append hchain'
  · rw [happlied.effects, happlied.derived]
    rw [← Nat.zero_add run.effects.length] at hlogged'
    exact hlogged.append hlogged'
  · rcases List.mem_append.1 hr with hr | hr
    · exact ⟨List.mem_append_left _ (hall r hr).1, (hall r hr).2⟩
    · exact ⟨by simp [(hall' r hr).1], (hall' r hr).2⟩

/-! ## Replay -/

/-- The change that an effect stands for. -/
def replayEffect (state : InteractionState) : InteractionEffect → InteractionState
  | .variableSet target _ value => { state with vars := state.vars.insert target value }
  | .knowledgeActivated entryId => { state with
      manuallyActiveKnowledge :=
        (state.manuallyActiveKnowledge ++ [entryId]).insertionSort (· ≤ ·) }
  | .assetShown .. | .audioRequested _ | .choicesPresented _ | .visibleSystemEvent _ | .diceRolled ..
  | .approvalRequested .. => state

/-- The changes of some effects, in order. -/
def replay (state : InteractionState) (effects : List InteractionEffect) : InteractionState :=
  effects.foldl replayEffect state

theorem replay_append (effects effects' : List InteractionEffect) :
    replay state (effects ++ effects') = replay (replay state effects) effects' :=
  List.foldl_append

theorem replay_silent {silent : List InteractionEffect} (h : ∀ effect ∈ silent, effect.Silent)
    (state : InteractionState) : replay state silent = state := by
  induction silent with
  | nil => rfl
  | cons effect silent ih =>
    have heffect : replayEffect state effect = state := by
      have hnone := (h effect (by simp)).1
      cases effect <;> first | rfl | cases hnone
    have := ih fun e he => h e (List.mem_cons_of_mem _ he)
    simp only [replay, List.foldl_cons, heffect]
    exact this

/-- How a record answers a request. -/
def InteractionProposalRecord.request (p : InteractionProposalRecord) :
    InteractionRuleSetId × InteractionRuleId × String × String × String :=
  (p.ruleSetId, p.ruleId, p.proposalId, p.title, p.body)

/-- `t` is what the effects make of `s`, with the requested proposals appended, up to the sign of a
decimal zero. -/
structure Replays (s : InteractionState) (effects : List InteractionEffect) (t : InteractionState) :
    Prop where
  vars : t.vars.Same (replay s effects).vars
  knowledge : t.manuallyActiveKnowledge = (replay s effects).manuallyActiveKnowledge
  proposals : ∃ new, t.proposals = s.proposals ++ new ∧
    new.map (·.request) = effects.filterMap (·.request) ∧ ∀ p ∈ new, p.status = .pending

theorem request_silent {silent : List InteractionEffect} (h : ∀ effect ∈ silent, effect.Silent) :
    silent.filterMap (·.request) = [] :=
  List.filterMap_eq_nil_iff.2 fun effect he => (h effect he).2

/-- **One action replays.** -/
theorem ActionStep.replays (h : ActionStep lib limits source state action state' pushed) :
    Replays state pushed state' := by
  cases h with
  | @write action target value silent htarget hvalue hsilent =>
    have hrequests : ((setVariable state target value).2 ++ silent).filterMap (·.request) = [] := by
      rw [List.filterMap_append, request_silent hsilent, List.append_nil, setVariable]
      split <;> rfl
    have hreplay : replay state ((setVariable state target value).2 ++ silent) =
        replay state (setVariable state target value).2 := by
      rw [replay_append, replay_silent hsilent]
    refine ⟨?_, ?_, [], by simp [setVariable], hrequests.symm, by simp⟩
    · rw [hreplay]
      simp only [setVariable]
      split
      · -- the code sees no change: the map stays the same up to a sign
        rename_i hsame
        cases hcurrent : state.vars.get target with
        | none => simp [hcurrent] at hsame
        | some current =>
          have heq : current.eq value = true := by simpa [hcurrent] using hsame
          exact (VariableMap.same_insert_of_get hcurrent (VariableValue.same_of_eq heq)).symm
      · exact .refl _
    · rw [hreplay]
      simp only [setVariable]
      split <;> rfl
  | activate hnew => exact ⟨.refl _, rfl, [], by simp, rfl, by simp⟩
  | propose hfits => exact ⟨.refl _, rfl, _, rfl, rfl, by simp [pendingRecord]⟩
  | leave htarget hsilent =>
    refine ⟨?_, ?_, [], by simp, (request_silent hsilent).symm, by simp⟩
    · rw [replay_silent hsilent]
      exact .refl _
    · rw [replay_silent hsilent]

theorem replayEffect_same {s t : InteractionState} (hvars : s.vars.Same t.vars)
    (hknowledge : s.manuallyActiveKnowledge = t.manuallyActiveKnowledge) (effect : InteractionEffect) :
    (replayEffect s effect).vars.Same (replayEffect t effect).vars ∧
      (replayEffect s effect).manuallyActiveKnowledge =
        (replayEffect t effect).manuallyActiveKnowledge := by
  cases effect with
  | variableSet target previous value => exact ⟨hvars.insert target value, hknowledge⟩
  | knowledgeActivated entryId =>
    refine ⟨hvars, ?_⟩
    simp only [replayEffect, hknowledge]
  | assetShown | audioRequested | choicesPresented | visibleSystemEvent | diceRolled
  | approvalRequested => exact ⟨hvars, hknowledge⟩

theorem replay_same (effects : List InteractionEffect) : ∀ {s t : InteractionState},
    s.vars.Same t.vars → s.manuallyActiveKnowledge = t.manuallyActiveKnowledge →
    (replay s effects).vars.Same (replay t effects).vars ∧
      (replay s effects).manuallyActiveKnowledge = (replay t effects).manuallyActiveKnowledge := by
  induction effects with
  | nil => exact fun hvars hknowledge => ⟨hvars, hknowledge⟩
  | cons effect effects ih =>
    intro s t hvars hknowledge
    obtain ⟨hvars, hknowledge⟩ := replayEffect_same hvars hknowledge effect
    exact ih hvars hknowledge

theorem Replays.trans {s t u : InteractionState} {effects effects' : List InteractionEffect}
    (h : Replays s effects t) (h' : Replays t effects' u) : Replays s (effects ++ effects') u := by
  obtain ⟨new, hnew, hrequests, hpending⟩ := h.proposals
  obtain ⟨new', hnew', hrequests', hpending'⟩ := h'.proposals
  obtain ⟨hvars, hknowledge⟩ := replay_same effects' h.vars h.knowledge
  refine ⟨?_, ?_, new ++ new', ?_, ?_, ?_⟩
  · rw [replay_append]
    exact h'.vars.trans hvars
  · rw [replay_append, h'.knowledge, hknowledge]
  · rw [hnew', hnew, List.append_assoc]
  · rw [List.map_append, List.filterMap_append, hrequests, hrequests']
  · intro p hp
    rcases List.mem_append.1 hp with hp | hp
    · exact hpending p hp
    · exact hpending' p hp

/-- **A log replays.** -/
theorem ActionLog.replays {seed : UInt64} : ∀ {log : List ActionRecord} {s t : InteractionState},
    ActionLog s log t → (∀ r ∈ log, Executed lib engine context seed r) →
    Replays s ((loggedEffects log).map (·.1)) t
  | [], _, _, rfl, _ => ⟨.refl _, rfl, [], by simp, rfl, by simp⟩
  | r :: log, s, t, ⟨hr, hlog⟩, hall => by
    obtain ⟨base, hperformed⟩ := (hall r (by simp)).performed
    have hfirst := (performAction_step hperformed).replays
    have hrest := ActionLog.replays hlog fun r' hr' => hall r' (List.mem_cons_of_mem _ hr')
    have heffects : (loggedEffects (r :: log)).map (·.1) =
        r.pushed ++ (loggedEffects log).map (·.1) := by
      rw [← map_loggedEffects_singleton r, ← List.map_append, ← loggedEffects_append,
        List.singleton_append]
    rw [heffects, ← hr]
    exact hfirst.trans hrest

/-! ## Handled events -/

/-- The derived events of some effects: the event and the index of each effect that changes the state. -/
def stateChanges (effects : List InteractionEffect) : List (InteractionEvent × Nat) :=
  effects.zipIdx.filterMap fun item => item.1.derivedEvent.map fun event => (event, item.2)

theorem map_loggedEvents (log : List ActionRecord) :
    (loggedEvents log 0).map (fun key => (key.1, key.2.2.2.2)) =
      stateChanges ((loggedEffects log).map (·.1)) := by
  simp only [loggedEvents, stateChanges, List.map_filterMap, List.zipIdx_map, List.filterMap_map,
    Option.map_map]
  rfl

/-- **A log that accounts for the outcome of an event.** -/
structure Accounts (lib : Externals) (engine : InteractionEngine) (state : InteractionState)
    (event : InteractionEvent) (context : InteractionContext) (outcome : InteractionOutcome)
    (log : List ActionRecord) : Prop where
  /-- The actions lead from the state to the outcome's, apart from the revision. -/
  chain : ActionLog state log { outcome.state with revision := state.revision }
  /-- Each is an action of a rule that the event applies, executed. -/
  executed : ∀ r ∈ log, r.compiled ∈ engine.applied lib state event context ∧
    Executed lib engine context (eventSeed context.deterministicSeed event state.revision) r
  /-- The effects are those that the actions pushed. -/
  effects : outcome.effects = (loggedEffects log).map (·.1)
  /-- The derived events are the state-changing effects, each at its index. -/
  changes : outcome.derivedEvents.map (fun derived => (derived.event, derived.sourceEffectOrdinal.toNat)) =
    stateChanges outcome.effects
  /-- Each derived event names the rule and the action that pushed its effect. -/
  sources : outcome.derivedEvents.map (·.key) = loggedEvents log 0
  /-- The effects replay to the outcome's state. -/
  replays : Replays state outcome.effects outcome.state

/-- **Derived events are exactly the state-changing effects**, and the effects replay. -/
theorem handleEvent_accounts (h : handleEvent lib engine state event context = .ok outcome) :
    ∃ log, Accounts lib engine state event context outcome log := by
  obtain ⟨run, hh⟩ := handleEvent_eq_ok h
  obtain ⟨log, hchain, hlogged, hall⟩ := hh.log
  have hback : ({ outcome.state with revision := state.revision } : InteractionState) = run.state := by
    rw [hh.state_eq, ← hh.run_revision]
  refine ⟨log, hback ▸ hchain, hall, hlogged.effects_eq, ?_, hlogged.derived_eq, ?_⟩
  · rw [hlogged.effects_eq, ← map_loggedEvents, ← hlogged.derived_eq, List.map_map]
    rfl
  · have hreplays := hchain.replays fun r hr => (hall r hr).2
    rw [← hlogged.effects_eq] at hreplays
    rw [hh.state_eq]
    exact ⟨hreplays.vars, hreplays.knowledge, hreplays.proposals⟩

/-- A set that raises a variable and activates an entry. -/
def tideSet : InteractionRuleSet :=
  openingSet [.incrementVariable ⟨.conversation, none, "tide"⟩ 2, .activateKnowledge "harbor"]

/-- The account of an event with two effects. -/
theorem handleEvent_accounts_tideSet : ∃ outcome,
    handleEvent sampleExternals (engineOf defaultInteractionLimits [] [tideSet]) (lampState false)
        .conversationOpened plainContext = .ok outcome ∧
      outcome.derivedEvents.length = 2 ∧
      ∃ log, Accounts sampleExternals (engineOf defaultInteractionLimits [] [tideSet]) (lampState false)
        .conversationOpened plainContext outcome log := by
  obtain ⟨outcome, houtcome, hlength⟩ := exists_ok_of_map
    (x := handleEvent sampleExternals (engineOf defaultInteractionLimits [] [tideSet]) (lampState false)
      .conversationOpened plainContext) (f := fun outcome => outcome.derivedEvents.length) (b := 2)
    (by decide +kernel)
  exact ⟨outcome, houtcome, hlength, handleEvent_accounts houtcome⟩

/-- **A write may change the state without an effect**: the sign of a zero is not replayed. -/
theorem lampState_not_replayed : ∃ outcome,
    handleEvent sampleExternals (engineOf defaultInteractionLimits [] [lampSet]) (lampState false)
        .conversationOpened plainContext = .ok outcome ∧
      outcome.effects = [] ∧ outcome.state.vars ≠ (replay (lampState false) outcome.effects).vars := by
  obtain ⟨outcome, houtcome, hresult⟩ := exists_ok_of_map
    (x := handleEvent sampleExternals (engineOf defaultInteractionLimits [] [lampSet]) (lampState false)
      .conversationOpened plainContext)
    (f := fun outcome => (outcome.effects.length, zeroSigns outcome.state.vars)) (b := (0, [true]))
    (by decide +kernel)
  rw [Prod.mk.injEq, List.length_eq_zero_iff] at hresult
  refine ⟨outcome, houtcome, hresult.1, fun heq => ?_⟩
  have hsigns := hresult.2
  rw [heq, hresult.1] at hsigns
  cases hsigns

end LorePia
