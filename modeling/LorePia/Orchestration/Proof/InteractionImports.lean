import LorePia.Orchestration.Proof.InteractionDomain
import LorePia.Orchestration.Proof.InteractionRules

/-!
# What imported rules can do

The approval of a rule is decided when it is compiled, from its own provenance and its set's
(`ruleProvenanceIsApproved_true`), and the targets of its actions are checked again when it runs. So a
variable that an event changes was written by a rule of the user or by a rule of an approved source in its
own namespace, and rules of other sources are as good as deleted (`handleEvent_confined`).
-/

namespace LorePia

open Base

variable {lib : Externals} {limits : InteractionLimits} {approvals : List String}
  {engine : InteractionEngine} {event : InteractionEvent} {context : InteractionContext}
  {state : InteractionState} {outcome : InteractionOutcome} {run : RuleRun} {v : VariableRef}

/-! ## Where a rule comes from -/

/-- Content that was imported from a source. -/
def Provenance.ImportedFrom (provenance : Provenance) (origin : String) : Prop :=
  provenance.isImported = true ∧ provenance.sourceId = some origin

/-- Content of the user, or imported from an approved source. -/
def Provenance.Trusted (approvals : List String) (provenance : Provenance) : Prop :=
  provenance.isImported = false ∨ ∃ origin ∈ approvals, provenance.ImportedFrom origin

/-- A rule that is imported, by itself or with its set, from a source that is not approved. -/
def FromUnapproved (approvals : List String) (set : InteractionRuleSet) (rule : InteractionRule) : Prop :=
  ∃ origin ∉ approvals, set.provenance.ImportedFrom origin ∨ rule.provenance.ImportedFrom origin

theorem importedSourceId_eq_ok {provenance : Provenance} {r : Option String}
    (h : importedSourceId provenance = .ok r) :
    (provenance.isImported = false ∧ r = none) ∨ ∃ origin, provenance.ImportedFrom origin ∧ r = some origin := by
  unfold importedSourceId at h
  cases himported : provenance.isImported with
  | false =>
    simp only [himported, Bool.false_eq_true, if_false, Except.ok.injEq] at h
    exact .inl ⟨rfl, h.symm⟩
  | true =>
    rw [himported, if_pos rfl] at h
    obtain ⟨origin, horigin, h⟩ := bind_eq_ok.1 h
    exact .inr ⟨origin, ⟨himported, okOr_eq_ok.1 horigin⟩, (pure_eq_ok.1 h).symm⟩

theorem Provenance.Trusted.mem {provenance : Provenance} {origin : String}
    (h : provenance.Trusted approvals) (hfrom : provenance.ImportedFrom origin) : origin ∈ approvals := by
  rcases h with h | ⟨other, hother, h⟩
  · rw [hfrom.1] at h
    cases h
  · have hsame : origin = other := Option.some.inj (hfrom.2.symm.trans h.2)
    exact hsame ▸ hother

/-- **An approved rule** is trusted, and so is its set. -/
theorem ruleProvenanceIsApproved_true {setProvenance ruleProvenance : Provenance}
    (h : ruleProvenanceIsApproved setProvenance ruleProvenance approvals = .ok true) :
    setProvenance.Trusted approvals ∧ ruleProvenance.Trusted approvals := by
  obtain ⟨setSource, hset, h⟩ := bind_eq_ok.1 h
  obtain ⟨ruleSource, hrule, h⟩ := bind_eq_ok.1 h
  rcases importedSourceId_eq_ok hset with ⟨hnot, rfl⟩ | ⟨origin, hfrom, rfl⟩
  · refine ⟨.inl hnot, ?_⟩
    have h := pure_eq_ok.1 h
    rcases importedSourceId_eq_ok hrule with ⟨hnot, rfl⟩ | ⟨origin, hfrom, rfl⟩
    · exact .inl hnot
    · exact .inr ⟨origin, by simpa using h, hfrom⟩
  · obtain ⟨hsame, h⟩ := seq_eq_ok.1 h
    rw [rejectIf_eq_ok, not_not] at hsame
    have hmem : origin ∈ approvals := by simpa using pure_eq_ok.1 h
    refine ⟨.inr ⟨origin, hmem, hfrom⟩, ?_⟩
    rcases importedSourceId_eq_ok hrule with ⟨-, rfl⟩ | ⟨other, hother, rfl⟩
    · cases hsame
    · exact .inr ⟨origin, hmem, Option.some.inj hsame ▸ hother⟩

/-- An imported rule writes module variables of its own namespace only. -/
theorem validateWriteTarget_imported {provenance : Provenance} {origin : String}
    (h : validateWriteTarget v provenance limits = .ok ()) (hfrom : provenance.ImportedFrom origin) :
    v.scope = .module ∧ v.ns = some origin := by
  obtain ⟨-, h⟩ := seq_eq_ok.1 h
  rw [if_pos hfrom.1] at h
  obtain ⟨expected, hexpected, h⟩ := bind_eq_ok.1 h
  rw [okOr_eq_ok, hfrom.2, Option.some.injEq] at hexpected
  rw [rejectIf_eq_ok, not_or, not_not, not_not] at h
  exact hexpected ▸ h

/-! ## What an event writes -/

theorem ActionStep.get_eq {source : ActionSource} {action : InteractionAction} {state' : InteractionState}
    {pushed : List InteractionEffect} (h : ActionStep lib limits source state action state' pushed)
    (hnodup : state.vars.refs.Nodup) :
    state'.vars.refs.Nodup ∧ (action.target ≠ some v → state'.vars.get v = state.vars.get v) := by
  cases h with
  | write htarget hvalue _ =>
    refine ⟨VariableMap.refs_insert_nodup hnodup _ _, fun hv => ?_⟩
    rw [htarget, ne_eq, Option.some.injEq] at hv
    rw [setVariable, VariableMap.get_insert hnodup, if_neg (Ne.symm hv)]
  | activate | propose | leave => exact ⟨hnodup, fun _ => rfl⟩

/-- **A variable that no applied rule writes keeps its value.** -/
theorem EventHandled.get_eq (hh : EventHandled lib engine state event context outcome run)
    (hnodup : state.vars.refs.Nodup)
    (hv : ∀ compiled ∈ engine.applied lib state event context, ¬ compiled.Writes v) :
    outcome.state.vars.get v = state.vars.get v := by
  rw [hh.state_eq]
  refine (hh.inv (I := fun done run => run.state.vars.refs.Nodup ∧
    ((∀ compiled ∈ done, ¬ compiled.Writes v) → run.state.vars.get v = state.vars.get v))
    ⟨hnodup, fun _ => rfl⟩ ?_).2 hv
  intro done compiled run next trace progress _ hrun happlied
  have hactions : progress.state.vars.refs.Nodup ∧
      (¬ compiled.Writes v → progress.state.vars.get v = run.state.vars.get v) := by
    have hinv := applyActions_inv (I := fun done p => p.state.vars.refs.Nodup ∧
      ((∀ action ∈ done, action.target ≠ some v) → p.state.vars.get v = run.state.vars.get v))
      happlied.actions ⟨hrun.1, fun _ => rfl⟩ ?_
    · exact ⟨hinv.1, fun hw => hinv.2 fun action ha ht => hw ⟨action, ha, ht⟩⟩
    · intro done action _ p p' pushed _ hp hstep
      obtain ⟨hnodup', hkept⟩ := hstep.step.get_eq (v := v) hp.1
      refine ⟨hnodup', fun hdone => ?_⟩
      rw [hkept (hdone action (by simp)), hp.2 fun a ha => hdone a (List.mem_append_left _ ha)]
  rw [happlied.state_eq]
  refine ⟨hactions.1, fun hdone => ?_⟩
  rw [hactions.2 (hdone compiled (by simp)), hrun.2 fun c hc => hdone c (List.mem_append_left _ hc)]

/-- Applied rules are approved. -/
theorem EventHandled.approved (hh : EventHandled lib engine state event context outcome run) :
    ∀ compiled ∈ engine.applied lib state event context, compiled.approvedForExecution = true := by
  refine hh.inv (I := fun done _ => ∀ compiled ∈ done, compiled.approvedForExecution = true) (by simp) ?_
  intro done compiled run next trace progress _ hdone happlied other hother
  rcases List.mem_append.1 hother with hother | hother
  · exact hdone other hother
  · rw [List.mem_singleton.1 hother]
    exact happlied.approved

/-! ## Confinement -/

/-- An applied rule is a trusted rule of a trusted set. -/
theorem EventHandled.applied_trusted {sets : List InteractionRuleSet} {compiled : CompiledRule}
    (hc : Compiles limits approvals sets)
    (hh : EventHandled lib (engineOf limits approvals sets) state event context outcome run)
    (hmem : compiled ∈ (engineOf limits approvals sets).applied lib state event context) :
    ∃ set ∈ sets, ∃ rule ∈ set.rules, compiled = compiledRule approvals set rule ∧
      RuleOk limits approvals set rule ∧ set.provenance.Trusted approvals ∧
      rule.provenance.Trusted approvals := by
  obtain ⟨set, hset, rule, hrule, rfl⟩ := mem_engineOf.1 ((appliedRules_sublist _ _).subset hmem)
  have hok := (hc.setOk set hset).rules rule hrule
  have happroved : approvalOf approvals set rule = true := hh.approved _ hmem
  have happroval := hok.approval
  rw [happroved] at happroval
  exact ⟨set, hset, rule, hrule, rfl, hok, ruleProvenanceIsApproved_true happroval⟩

/-- The rules that an event applies are not from unapproved sources. -/
theorem EventHandled.applied_not_unapproved {sets : List InteractionRuleSet}
    {trace : InteractionRuleTrace} (hc : Compiles limits approvals sets)
    (hh : EventHandled lib (engineOf limits approvals sets) state event context outcome run)
    (htrace : trace ∈ outcome.trace) (hstatus : trace.status = .applied) :
    ∃ set ∈ sets, ∃ rule ∈ set.rules, rule.id = trace.ruleId ∧ ¬ FromUnapproved approvals set rule := by
  have hmem : trace ∈ (runRules lib (engineOf limits approvals sets) event context
      (eventSeed context.deterministicSeed event state.revision) (engineOf limits approvals sets).rules
      (.start state)).2 := by
    rw [hh.rules]
    exact htrace
  obtain ⟨compiled, hcompiled, hid⟩ := runRules_trace_applied hmem hstatus
  obtain ⟨set, hset, rule, hrule, rfl, -, htset, htrule⟩ := hh.applied_trusted hc hcompiled
  refine ⟨set, hset, rule, hrule, hid, fun ⟨origin, hnot, hfrom⟩ => ?_⟩
  rcases hfrom with hfrom | hfrom
  · exact hnot (htset.mem hfrom)
  · exact hnot (htrule.mem hfrom)

/-- **Imported rules are confined**: a changed variable was written by a rule of the user, or by a rule of
an approved source in the namespace of that source, and without the rules of unapproved sources the event
has the same outcome. -/
theorem handleEvent_confined {sets : List InteractionRuleSet}
    (hcompile : compileWithOptions sets limits approvals = .ok engine)
    (h : handleEvent lib engine state event context = .ok outcome) :
    (∀ v, outcome.state.vars.get v ≠ state.vars.get v → ∃ set ∈ sets, ∃ rule ∈ set.rules,
      compiledRule approvals set rule ∈ engine.applied lib state event context ∧
      (∃ action ∈ rule.actions, action.target = some v) ∧
      (rule.provenance.isImported = false ∨ ∃ origin ∈ approvals,
        rule.provenance.ImportedFrom origin ∧ v.scope = .module ∧ v.ns = some origin)) ∧
    ∀ (keep : InteractionRuleId → Bool) (sets' : List InteractionRuleSet),
      (∀ set ∈ sets, ∀ rule ∈ set.rules, ¬ FromUnapproved approvals set rule → keep rule.id = true) →
      KeepsRules keep sets sets' →
      ∃ engine', compileWithOptions sets' limits approvals = .ok engine' ∧
        handleEvent lib engine' state event context = .ok { outcome with
          trace := outcome.trace.filter fun trace => keep trace.ruleId } := by
  obtain ⟨hc, rfl⟩ := compileWithOptions_eq_ok.1 hcompile
  obtain ⟨run, hh⟩ := handleEvent_eq_ok h
  have hok : StateOk lib limits state :=
    (validateInteractionState_eq_ok (InteractionLimits.pending_lt hc.valid)).1 hh.accepted
  refine ⟨fun v hchanged => ?_, fun keep sets' hkeep hsets => ?_⟩
  · have hwritten : ∃ compiled ∈ (engineOf limits approvals sets).applied lib state event context,
        compiled.Writes v := by
      by_contra hnone
      exact hchanged (hh.get_eq hok.varsNodup fun compiled hmem hw => hnone ⟨compiled, hmem, hw⟩)
    obtain ⟨compiled, hmem, action, haction, htarget⟩ := hwritten
    obtain ⟨set, hset, rule, hrule, rfl, hrok, -, htrusted⟩ := hh.applied_trusted hc hmem
    refine ⟨set, hset, rule, hrule, hmem, ⟨action, haction, htarget⟩, ?_⟩
    rcases htrusted with huser | ⟨origin, horigin, hfrom⟩
    · exact .inl huser
    · have hwrite := validateAction_target (hrok.actions action haction) htarget
      exact .inr ⟨origin, horigin, hfrom, validateWriteTarget_imported hwrite hfrom⟩
  · refine ⟨_, compileWithOptions_eq_ok.2 ⟨hc.keeps hsets, rfl⟩, ?_⟩
    rw [engineOf_keeps hc hsets]
    refine handleEvent_filter h fun trace htrace hstatus => ?_
    obtain ⟨set, hset, rule, hrule, hid, hnot⟩ := hh.applied_not_unapproved hc htrace hstatus
    exact hid ▸ hkeep set hset rule hrule hnot

/-! ## An approved and an unapproved source -/

/-- A provenance of an imported package. -/
def packageProvenance (origin : String) : Provenance :=
  { plainProvenance .importedPackage with sourceId := some origin }

/-- A variable of the module `tide`. -/
def tideRef : VariableRef := ⟨.module, some "tide", "level"⟩

/-- A rule of the module `tide`. -/
def tideRule : InteractionRule :=
  { openingRule [.incrementVariable tideRef 2] with provenance := packageProvenance "tide" }

/-- A rule of the module `storm`, which shows an asset and writes its own variable. -/
def stormRule : InteractionRule :=
  { openingRule [.playAudio "thunder", .incrementVariable ⟨.module, some "storm", "force"⟩ 9] with
    id := "storm-rule", provenance := packageProvenance "storm" }

/-- The module `tide` is approved and `storm` is not: only `tide` acts, and without the rule of `storm`
the event has the same outcome. -/
theorem handleEvent_confined_tideRule : ∃ outcome engine',
    handleEvent sampleExternals
        (engineOf defaultInteractionLimits ["tide"] [harborSet [stormRule, tideRule]])
        emptyState .conversationOpened plainContext = .ok outcome ∧
      outcome.state.vars.get tideRef ≠ emptyState.vars.get tideRef ∧
      (∃ set ∈ [harborSet [stormRule, tideRule]], ∃ rule ∈ set.rules,
        compiledRule ["tide"] set rule ∈
          (engineOf defaultInteractionLimits ["tide"] [harborSet [stormRule, tideRule]]).applied
            sampleExternals emptyState .conversationOpened plainContext ∧
        (∃ action ∈ rule.actions, action.target = some tideRef) ∧
        (rule.provenance.isImported = false ∨ ∃ origin ∈ ["tide"],
          rule.provenance.ImportedFrom origin ∧ tideRef.scope = .module ∧ tideRef.ns = some origin)) ∧
      compileWithOptions [harborSet [tideRule]] defaultInteractionLimits ["tide"] = .ok engine' ∧
      handleEvent sampleExternals engine' emptyState .conversationOpened plainContext =
        .ok { outcome with trace := outcome.trace.filter fun trace => trace.ruleId ≠ "storm-rule" } := by
  have hcompile : compileWithOptions [harborSet [stormRule, tideRule]] defaultInteractionLimits ["tide"] =
      .ok (engineOf defaultInteractionLimits ["tide"] _) :=
    engineOf_compiles (by decide +kernel)
  obtain ⟨outcome, houtcome, hlevel⟩ := exists_ok_of_map
    (x := handleEvent sampleExternals
      (engineOf defaultInteractionLimits ["tide"] [harborSet [stormRule, tideRule]]) emptyState
      .conversationOpened plainContext)
    (f := fun outcome => (outcome.state.vars.get tideRef).isSome) (b := true) (by decide +kernel)
  have hchanged : outcome.state.vars.get tideRef ≠ emptyState.vars.get tideRef := by
    intro heq
    rw [heq] at hlevel
    cases hlevel
  obtain ⟨hwritten, hdelete⟩ := handleEvent_confined hcompile houtcome
  have hkeep : ∀ set ∈ [harborSet [stormRule, tideRule]], ∀ rule ∈ set.rules,
      ¬ FromUnapproved ["tide"] set rule → decide (rule.id ≠ "storm-rule") = true := by
    intro set hset rule hrule hnot
    rw [List.mem_singleton.1 hset] at hrule
    rcases List.mem_cons.1 hrule with rfl | hrule
    · exact absurd ⟨"storm", by decide, .inr ⟨rfl, rfl⟩⟩ hnot
    · rw [List.mem_singleton.1 hrule]
      decide
  have hsets : KeepsRules (fun id => decide (id ≠ "storm-rule")) [harborSet [stormRule, tideRule]]
      [harborSet [tideRule]] :=
    ⟨_, .cons ⟨[tideRule], .refl _, rfl⟩ .nil, .refl _⟩
  obtain ⟨engine', hengine', hhandle⟩ := hdelete _ _ hkeep hsets
  exact ⟨outcome, engine', houtcome, hchanged, hwritten tideRef hchanged, hengine', hhandle⟩

end LorePia
