import LorePia.Orchestration.Proof.InteractionInvariant
import LorePia.Orchestration.Proof.Order

/-!
# Rules that do not matter

A rule that is not applied leaves nothing behind: the run over the remaining rules goes through the same
states (`runRules_filter`). Sets and rules in another order compile to the same engine, and fewer rules to
the engine with the others filtered out (`engineOf_keeps`), so an event has the same outcome when rules
that it does not apply are deleted and the rest is permuted.
-/

namespace LorePia

open Base

variable {lib : Externals} {limits : InteractionLimits} {approvals : List String}
  {engine : InteractionEngine} {event : InteractionEvent} {context : InteractionContext} {seed : UInt64}
  {keep : InteractionRuleId → Bool}

/-! ## The run over the remaining rules -/

@[simp] theorem ruleTrace_status (rule : InteractionRule) (status : InteractionRuleStatus) :
    (ruleTrace rule status).status = status := rfl

@[simp] theorem failedTrace_status (rule : InteractionRule) (error : InteractionFailure) :
    (failedTrace rule error).status = .failed := rfl

@[simp] theorem budgetTrace_status (rule : InteractionRule) :
    (budgetTrace rule).status = .actionBudgetExceeded := rfl

theorem checkRuleCondition_error {state : InteractionState} {rule : InteractionRule}
    {trace : InteractionRuleTrace} (h : checkRuleCondition engine context state rule = .error trace) :
    trace.ruleId = rule.id ∧ trace.status ≠ .applied := by
  unfold checkRuleCondition at h
  cases hcondition : rule.condition with
  | none =>
    rw [hcondition] at h
    cases h
  | some condition =>
    rw [hcondition] at h
    cases hc : evaluateConditionAst condition state.vars context.modelCapabilities engine.limits with
    | error e =>
      simp only [hc] at h
      cases h
      exact ⟨rfl, by simp⟩
    | ok holds =>
      cases holds <;> simp only [hc] at h <;> cases h
      exact ⟨rfl, by simp⟩

/-- A rule that is refused leaves a trace entry of its own. -/
theorem admitRule_error {run : RuleRun} {compiled : CompiledRule} {trace : InteractionRuleTrace}
    (h : admitRule engine event context run compiled = .error trace) :
    trace.ruleId = compiled.rule.id ∧ trace.status ≠ .applied := by
  unfold admitRule at h
  simp only [bind_eq_error, rejectIf_eq_error] at h
  rcases h with ⟨-, rfl⟩ | ⟨_, -, ⟨-, rfl⟩ | ⟨_, -, ⟨-, rfl⟩ | ⟨_, -, h | ⟨_, -, ⟨-, rfl⟩ | ⟨_, -, h⟩⟩⟩⟩⟩
  · exact ⟨rfl, by simp⟩
  · exact ⟨rfl, by simp⟩
  · exact ⟨rfl, by simp⟩
  · exact checkRuleCondition_error h
  · exact ⟨rfl, by simp⟩
  · cases h

theorem runRule_skip {run : RuleRun} {compiled : CompiledRule} {trace : InteractionRuleTrace}
    (h : runRule lib engine event context seed run compiled = .skip trace) :
    trace.ruleId = compiled.rule.id ∧ trace.status ≠ .applied := by
  unfold runRule at h
  cases hadmitted : admitRule engine event context run compiled with
  | error e =>
    rw [hadmitted] at h
    cases h
    exact admitRule_error hadmitted
  | ok counts =>
    cases hexecute : executeRule lib engine context seed run compiled with
    | error e =>
      rw [hadmitted, hexecute] at h
      cases h
      exact ⟨rfl, by simp⟩
    | ok progress =>
      rw [hadmitted, hexecute] at h
      cases h

/-- **Rules that are not applied can be deleted**: the run ends in the same state, and the remaining rules
have the same trace entries. -/
theorem runRules_filter : ∀ {rules : List CompiledRule} {run : RuleRun},
    (∀ trace ∈ (runRules lib engine event context seed rules run).2, trace.status = .applied →
      keep trace.ruleId = true) →
    runRules lib engine event context seed (rules.filter fun compiled => keep compiled.rule.id) run =
      ((runRules lib engine event context seed rules run).1,
        (runRules lib engine event context seed rules run).2.filter fun trace => keep trace.ruleId)
  | [], _, _ => rfl
  | compiled :: rest, run, h => by
    rw [runRules] at h ⊢
    cases hrule : runRule lib engine event context seed run compiled with
    | skip trace =>
      have hid := (runRule_skip hrule).1
      simp only [hrule] at h ⊢
      have ih := runRules_filter fun t ht => h t (List.mem_cons_of_mem _ ht)
      cases hkeep : keep compiled.rule.id with
      | true => simp only [List.filter_cons, hkeep, if_true, runRules, hrule, ih, hid]
      | false => simp only [List.filter_cons, hkeep, Bool.false_eq_true, if_false, ih, hid]
    | commit next trace =>
      obtain ⟨progress, happlied⟩ := runRule_commit hrule
      simp only [hrule] at h ⊢
      have hkeep : keep compiled.rule.id = true := by
        rw [← happlied.ruleId]
        refine h trace ?_ happlied.status
        split <;> simp
      simp only [List.filter_cons, hkeep, if_true, runRules, hrule]
      by_cases hstop : compiled.rule.stopAfterMatch = true
      · simp [hstop, happlied.ruleId, hkeep]
      · simp only [hstop, if_false, Bool.false_eq_true] at h ⊢
        have ih := runRules_filter fun t ht => h t (List.mem_cons_of_mem _ ht)
        simp only [ih, List.filter_cons, happlied.ruleId, hkeep, if_true]

/-- A trace entry that says applied is the entry of a rule that was applied. -/
theorem runRules_trace_applied : ∀ {rules : List CompiledRule} {run : RuleRun}
    {trace : InteractionRuleTrace}, trace ∈ (runRules lib engine event context seed rules run).2 →
    trace.status = .applied →
    ∃ compiled ∈ appliedRules lib engine event context seed rules run, compiled.rule.id = trace.ruleId
  | [], run, trace, h, _ => by
    simp [runRules] at h
  | compiled :: rest, run, trace, h, hstatus => by
    rw [runRules] at h
    rw [appliedRules]
    cases hrule : runRule lib engine event context seed run compiled with
    | skip skipped =>
      rw [hrule] at h
      rcases List.mem_cons.1 h with rfl | h
      · exact absurd hstatus (runRule_skip hrule).2
      · exact runRules_trace_applied h hstatus
    | commit next applied =>
      obtain ⟨progress, happlied⟩ := runRule_commit hrule
      simp only [hrule] at h ⊢
      by_cases hstop : compiled.rule.stopAfterMatch = true
      · rw [if_pos hstop] at h ⊢
        rw [List.mem_singleton.1 h]
        exact ⟨compiled, by simp, happlied.ruleId.symm⟩
      · rw [if_neg hstop] at h ⊢
        rcases List.mem_cons.1 h with rfl | h
        · exact ⟨compiled, by simp, happlied.ruleId.symm⟩
        · obtain ⟨other, hother, hid⟩ := runRules_trace_applied h hstatus
          exact ⟨other, List.mem_cons_of_mem _ hother, hid⟩

/-- The loop reads nothing of the engine but its limits. -/
theorem runRules_limits (rules rules' : List CompiledRule) : ∀ (l : List CompiledRule) (run : RuleRun),
    runRules lib ⟨rules, limits⟩ event context seed l run =
      runRules lib ⟨rules', limits⟩ event context seed l run
  | [], _ => rfl
  | compiled :: rest, run => by
    have hrule : runRule lib ⟨rules, limits⟩ event context seed run compiled =
      runRule lib ⟨rules', limits⟩ event context seed run compiled := rfl
    rw [runRules, runRules, hrule]
    cases runRule lib ⟨rules', limits⟩ event context seed run compiled with
    | skip trace => simp only [runRules_limits rules rules' rest run]
    | commit next trace => simp only [runRules_limits rules rules' rest next]

/-- **An event without some of the rules that it does not apply.** -/
theorem handleEvent_filter {rules : List CompiledRule} {state : InteractionState}
    {outcome : InteractionOutcome}
    (h : handleEvent lib ⟨rules, limits⟩ state event context = .ok outcome)
    (hkeep : ∀ trace ∈ outcome.trace, trace.status = .applied → keep trace.ruleId = true) :
    handleEvent lib ⟨rules.filter fun compiled => keep compiled.rule.id, limits⟩ state event context =
      .ok { outcome with trace := outcome.trace.filter fun trace => keep trace.ruleId } := by
  obtain ⟨haccepted, h⟩ := seq_eq_ok.1 h
  obtain ⟨hevent, h⟩ := seq_eq_ok.1 h
  obtain ⟨htime, h⟩ := seq_eq_ok.1 h
  obtain ⟨revision, hrevision, h⟩ := bind_eq_ok.1 h
  have h := pure_eq_ok.1 h
  subst h
  unfold handleEvent
  refine seq_eq_ok.2 ⟨haccepted, seq_eq_ok.2 ⟨hevent, seq_eq_ok.2 ⟨htime, ?_⟩⟩⟩
  dsimp only
  rw [runRules_limits _ rules, runRules_filter hkeep]
  exact bind_eq_ok.2 ⟨revision, hrevision, rfl⟩

/-! ## The engine of the remaining rules -/

/-- All compiled rules of some sets, in their order. -/
def compiledRules (approvals : List String) (sets : List InteractionRuleSet) : List CompiledRule :=
  sets.flatMap (compiledSet approvals)

theorem ruleIds_eq (approvals : List String) (sets : List InteractionRuleSet) :
    ruleIds sets = (compiledRules approvals sets).map (·.rule.id) := by
  simp only [ruleIds, compiledRules, List.map_flatMap, compiledSet, List.map_map]
  rfl

theorem ruleCount_eq (approvals : List String) (sets : List InteractionRuleSet) :
    ruleCount sets = (compiledRules approvals sets).length := by
  simp [ruleCount, compiledRules, compiledSet]

/-- `set'` is `set` with the rules that are kept, in any order. -/
def InteractionRuleSet.Keeps (keep : InteractionRuleId → Bool) (set set' : InteractionRuleSet) : Prop :=
  ∃ rules, rules.Perm (set.rules.filter fun rule => keep rule.id) ∧ set' = { set with rules := rules }

/-- `sets'` are the sets with the rules that are kept, in any order. -/
def KeepsRules (keep : InteractionRuleId → Bool) (sets sets' : List InteractionRuleSet) : Prop :=
  ∃ kept, List.Forall₂ (InteractionRuleSet.Keeps keep) sets kept ∧ kept.Perm sets'

theorem compiledSet_keeps {set set' : InteractionRuleSet} (h : set.Keeps keep set') :
    (compiledSet approvals set').Perm
      ((compiledSet approvals set).filter fun compiled => keep compiled.rule.id) := by
  obtain ⟨rules, hperm, rfl⟩ := h
  rw [compiledSet, compiledSet, List.filter_map]
  exact hperm.map _

theorem compiledRules_keeps {sets sets' : List InteractionRuleSet} (h : KeepsRules keep sets sets') :
    (compiledRules approvals sets').Perm
      ((compiledRules approvals sets).filter fun compiled => keep compiled.rule.id) := by
  obtain ⟨kept, hkept, hperm⟩ := h
  exact flatMap_perm_filter (fun _ _ hset => compiledSet_keeps hset) hkept hperm

theorem SetOk.keeps {set set' : InteractionRuleSet} (hok : SetOk limits approvals set)
    (h : set.Keeps keep set') : SetOk limits approvals set' := by
  obtain ⟨rules, hperm, rfl⟩ := h
  refine ⟨hok.id, hok.name, hok.actions, fun rule hrule => ?_⟩
  have hrule := hok.rules rule (List.mem_filter.1 (hperm.mem_iff.1 hrule)).1
  exact { hrule with }

theorem Compiles.keeps {sets sets' : List InteractionRuleSet} (hc : Compiles limits approvals sets)
    (h : KeepsRules keep sets sets') : Compiles limits approvals sets' := by
  have hrules : (compiledRules approvals sets').Perm
      ((compiledRules approvals sets).filter fun compiled => keep compiled.rule.id) :=
    compiledRules_keeps h
  obtain ⟨kept, hkept, hperm⟩ := h
  have hids : sets.map (·.id) = kept.map (·.id) := by
    refine forall₂_map_eq (R := InteractionRuleSet.Keeps keep) ?_ hkept
    rintro set set' ⟨rules, -, rfl⟩
    rfl
  have hcount : ruleCount sets' ≤ ruleCount sets := by
    rw [ruleCount_eq approvals, ruleCount_eq approvals, hrules.length_eq]
    exact List.length_filter_le _ _
  refine ⟨hc.valid, ?_, ⟨hcount.trans hc.total.1, hcount.trans hc.total.2⟩, ?_, ?_, ?_⟩
  · rw [← hperm.length_eq, ← hkept.length_eq]
    exact hc.setCount
  · intro set' hset'
    obtain ⟨set, hset, hkeeps⟩ := forall₂_mem_right hkept (hperm.mem_iff.2 hset')
    exact (hc.setOk set hset).keeps hkeeps
  · rw [← (hperm.map _).nodup_iff, ← hids]
    exact hc.setsNodup
  · rw [ruleIds_eq approvals, (hrules.map _).nodup_iff]
    have := hc.rulesNodup
    rw [ruleIds_eq approvals] at this
    exact (List.filter_sublist.map _).nodup this

theorem ruleLe_total (left right : CompiledRule) : ruleLe left right ∨ ruleLe right left :=
  lexLe_pair_total left.rule.priority right.rule.priority left.rule.id right.rule.id

theorem ruleLe_trans (a b c : CompiledRule) (hab : ruleLe a b) (hbc : ruleLe b c) : ruleLe a c :=
  lexLe_pair_trans hab hbc

/-- **The engine of the remaining rules** is the engine with the other rules filtered out. -/
theorem engineOf_keeps {sets sets' : List InteractionRuleSet} (hc : Compiles limits approvals sets)
    (h : KeepsRules keep sets sets') :
    engineOf limits approvals sets' =
      { engineOf limits approvals sets with
        rules := (engineOf limits approvals sets).rules.filter fun compiled => keep compiled.rule.id } := by
  have hnodup := hc.rulesNodup
  rw [ruleIds_eq approvals] at hnodup
  have hrules : (compiledRules approvals sets').Perm
      ((compiledRules approvals sets).filter fun compiled => keep compiled.rule.id) :=
    compiledRules_keeps h
  have hsort := stableSort_filter ruleLe_total ruleLe_trans hrules
    fun a ha b hb hab hba => List.inj_on_of_nodup_map hnodup ha hb (lexLe_pair_antisymm hab hba)
  simp only [engineOf]
  rw [← compiledRules, hsort]
  rfl

/-- **Rule atomicity and isolation.** -/
theorem handleEvent_keeps {sets sets' : List InteractionRuleSet} {state : InteractionState}
    {outcome : InteractionOutcome}
    (hcompile : compileWithOptions sets limits approvals = .ok engine)
    (hhandle : handleEvent lib engine state event context = .ok outcome)
    (hkeep : ∀ trace ∈ outcome.trace, trace.status = .applied → keep trace.ruleId = true)
    (hsets : KeepsRules keep sets sets') :
    ∃ engine', compileWithOptions sets' limits approvals = .ok engine' ∧
      handleEvent lib engine' state event context = .ok { outcome with
        trace := outcome.trace.filter fun trace => keep trace.ruleId } := by
  obtain ⟨hc, rfl⟩ := compileWithOptions_eq_ok.1 hcompile
  refine ⟨_, compileWithOptions_eq_ok.2 ⟨hc.keeps hsets, rfl⟩, ?_⟩
  rw [engineOf_keeps hc hsets]
  exact handleEvent_filter hhandle hkeep

/-! ## A set with a failing rule -/

/-- A rule that applies. -/
def harborRule : InteractionRule := openingRule [.activateKnowledge "harbor"]

/-- A rule that fails at its second action: the lamp is no integer. -/
def stuckRule : InteractionRule :=
  { openingRule [.activateKnowledge "lost", .incrementVariable lampRef 1] with id := "stuck-rule" }

/-- A rule that applies after the others. -/
def waveRule : InteractionRule :=
  { openingRule [.playAudio "wave"] with id := "wave-rule", priority := 1 }

/-- The set of some of the three rules. -/
def harborSet (rules : List InteractionRule) : InteractionRuleSet := { openingSet [] with rules := rules }

/-- The failing rule deleted and the others turned round. -/
theorem handleEvent_keeps_harborSet : ∃ outcome engine',
    handleEvent sampleExternals
        (engineOf defaultInteractionLimits [] [harborSet [harborRule, stuckRule, waveRule]])
        (lampState false) .conversationOpened plainContext = .ok outcome ∧
      outcome.trace.map (·.status) = [.applied, .failed, .applied] ∧
      compileWithOptions [harborSet [waveRule, harborRule]] defaultInteractionLimits [] = .ok engine' ∧
      handleEvent sampleExternals engine' (lampState false) .conversationOpened plainContext =
        .ok { outcome with trace := outcome.trace.filter fun trace => trace.ruleId ≠ "stuck-rule" } := by
  have hcompile : compileWithOptions [harborSet [harborRule, stuckRule, waveRule]]
      defaultInteractionLimits [] = .ok (engineOf defaultInteractionLimits [] _) :=
    engineOf_compiles (by decide +kernel)
  obtain ⟨outcome, houtcome, htrace⟩ := exists_ok_of_map
    (x := handleEvent sampleExternals
      (engineOf defaultInteractionLimits [] [harborSet [harborRule, stuckRule, waveRule]])
      (lampState false) .conversationOpened plainContext)
    (f := fun outcome => outcome.trace.map fun trace => (trace.ruleId, trace.status))
    (b := [("opening-rule", .applied), ("stuck-rule", .failed), ("wave-rule", .applied)])
    (by decide +kernel)
  have hstatus : outcome.trace.map (·.status) = [.applied, .failed, .applied] := by
    have hsnd := congrArg (List.map (·.2)) htrace
    rw [List.map_map] at hsnd
    exact hsnd
  have hkeep : ∀ trace ∈ outcome.trace, trace.status = .applied →
      decide (trace.ruleId ≠ "stuck-rule") = true := by
    intro trace hmem happlied
    have hpair := List.mem_map_of_mem (f := fun t : InteractionRuleTrace => (t.ruleId, t.status)) hmem
    rw [htrace, happlied] at hpair
    rcases List.mem_cons.1 hpair with h | h
    · rw [(Prod.mk.inj h).1]
      decide
    · rcases List.mem_cons.1 h with h | h
      · cases (Prod.mk.inj h).2
      · rw [(Prod.mk.inj (List.mem_singleton.1 h)).1]
        decide
  have hsets : KeepsRules (fun id => decide (id ≠ "stuck-rule"))
      [harborSet [harborRule, stuckRule, waveRule]] [harborSet [waveRule, harborRule]] :=
    ⟨_, .cons ⟨[waveRule, harborRule], .swap _ _ _, rfl⟩ .nil, .refl _⟩
  obtain ⟨engine', hengine', hhandle⟩ := handleEvent_keeps hcompile houtcome hkeep hsets
  exact ⟨outcome, engine', houtcome, hstatus, hengine', hhandle⟩

end LorePia
