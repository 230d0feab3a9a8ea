import LorePia.Orchestration.Proof.InteractionInvariant

/-!
# The engine's states at the durable boundary

The engine and the domain check a state with validators of their own. On a state that the engine accepts
the domain's check comes down to one thing (`StateOk.validate_iff`): no variable outside the module scope
carries a namespace, which the engine's `validate_variable_ref` does not ask. So an event takes a valid
state to an invalid one exactly when a rule that it applies writes such a variable
(`handleEvent_validate_iff`).
-/

namespace LorePia

open Base

variable {lib : Externals} {state : InteractionState}

/-! ## The engine's checks imply the domain's -/

/-- A variable with a namespace outside the module scope. -/
def VariableRef.misplaced (v : VariableRef) : Bool := v.ns.isSome && v.scope ≠ .module

theorem not_mem_nul {value : String} (h : value.toList.all isIdentifierCharacter = true) :
    value.toList.any (· = Char.ofNat 0) = false := by
  rw [List.any_eq_false]
  intro c hc hnul
  have := List.all_eq_true.1 h c hc
  rw [of_decide_eq_true hnul] at this
  revert this
  decide

theorem IdentifierOk.textOk {value : String} (h : IdentifierOk defaultInteractionLimits value) :
    TextOk value 1 maxIdentifierChars := by
  obtain ⟨hempty, hbytes, hchars⟩ := h
  have hlength := length_le_utf8ByteSize value
  have hpos : value.length ≠ 0 := by
    intro h0
    rw [← String.length_toList, List.length_eq_zero_iff, String.toList_eq_nil_iff] at h0
    rw [h0] at hempty
    cases hempty
  have hmax : defaultInteractionLimits.maxIdentifierBytes = 128 := rfl
  refine ⟨⟨by omega, ?_⟩, not_mem_nul hchars⟩
  unfold maxIdentifierChars
  omega

theorem no_nul_of_printable {value : String} (h : value.toList.any isDisallowedControl = false) :
    value.toList.any (· = Char.ofNat 0) = false := by
  rw [List.any_eq_false] at h ⊢
  intro c hc hnul
  refine h c hc ?_
  rw [of_decide_eq_true hnul]
  decide

theorem StoredTextOk.textOk {value : String} {n : Nat} (h : StoredTextOk n value) : TextOk value 1 n :=
  ⟨⟨Nat.one_le_iff_ne_zero.2 h.nonempty, h.short⟩, no_nul_of_printable h.printable⟩

theorem validatePlainText_textOk {label value : String} {u : Unit} {n : Nat}
    (hn : maxInteractionNativeTextChars ≤ n)
    (h : validatePlainText label value defaultInteractionLimits = .ok u) : TextOk value 0 n := by
  obtain ⟨hlength, hprintable⟩ := seq_eq_ok.1 h
  rw [rejectIf_eq_ok, gt_iff_lt, not_lt] at hlength
  rw [rejectIf_eq_ok, Bool.not_eq_true] at hprintable
  exact ⟨⟨Nat.zero_le _, hlength.trans hn⟩, no_nul_of_printable hprintable⟩

theorem validateVariableValue_of_check {value : VariableValue} {path : String}
    (h : checkVariableValue value defaultInteractionLimits = .ok ()) :
    validateVariableValue value path = .ok () := by
  cases value with
  | bool | integer => rfl
  | decimal x => exact rejectIf_eq_ok.2 (rejectIf_eq_ok.1 h)
  | text s | enum s => exact validateText_eq_ok.2 (validatePlainText_textOk (by decide) h)
  | stringList l =>
    obtain ⟨hcount, hitems⟩ := seq_eq_ok.1 h
    rw [rejectIf_eq_ok, gt_iff_lt, not_lt] at hcount
    rw [forM_eq_ok] at hitems
    refine seq_eq_ok.2 ⟨rejectIf_eq_ok.2 ?_, forIdx_eq_ok.2 fun j s hj => ?_⟩
    · have hmax : defaultInteractionLimits.maxChoices ≤ maxVariableListItems := by decide
      omega
    · exact validateText_eq_ok.2 (validatePlainText_textOk (by decide)
        (hitems s (List.mem_of_getElem? hj)))

/-- The domain's check of a reference that the engine accepts. -/
theorem validateVariableRef_iff {v : VariableRef} {path : String} {u : Unit}
    (h : checkVariableRef v defaultInteractionLimits = .ok ()) :
    validateVariableRef v path = .ok u ↔ v.misplaced = false := by
  obtain ⟨hid, h⟩ := seq_eq_ok.1 h
  obtain ⟨hns, hmodule⟩ := seq_eq_ok.1 h
  have hid : validateId s!"{path}.id" v.id = .ok () :=
    validateText_eq_ok.2 (validateIdentifier_eq_ok.1 hid).textOk
  rw [forSome_eq_ok] at hns
  rw [rejectIf_eq_ok] at hmodule
  unfold validateVariableRef VariableRef.misplaced
  rw [seq_eq_ok]
  obtain ⟨scope, ns, id⟩ := v
  cases ns with
  | none => cases scope <;> simp_all
  | some ns =>
    have hns : validateId s!"{path}.namespace" ns = .ok () :=
      validateText_eq_ok.2 (validateIdentifier_eq_ok.1 (hns ns rfl)).textOk
    cases scope <;> simp_all

theorem validateProposalTimes_of_ok {p : InteractionProposalRecord} {path : String} (h : p.TimesOk) :
    validateProposalTimes p path = .ok () := by
  unfold InteractionProposalRecord.TimesOk at h
  unfold validateProposalTimes
  cases hs : p.status with
  | pending =>
    rw [hs] at h
    rw [h]
  | approved | rejected =>
    simp only [hs] at h
    obtain ⟨d, hd, hreq, hdue⟩ := h
    simp only [hd, rejectIf_eq_ok, Option.any_some, Bool.not_eq_false, Bool.and_eq_true, decide_eq_true_eq]
    refine ⟨hreq, ?_⟩
    cases he : p.expiresAtEpochSeconds with
    | none => rfl
    | some e => simpa [InteractionProposalRecord.due, he] using hdue
  | expired =>
    simp only [hs] at h
    obtain ⟨d, hd, -, hdue⟩ := h
    obtain ⟨e, he, hle⟩ := due_iff.1 hdue
    simp [hd, he, hle]

theorem validateStateProposal_of_ok {revision : UInt64} {index : Nat} {p : InteractionProposalRecord}
    (h : ProposalOk lib defaultInteractionLimits revision p) :
    validateStateProposal revision index p = .ok () := by
  have hdeadline : ¬ (p.expiresAtEpochSeconds.any fun expires =>
      decide (expires < p.requestedAtEpochSeconds)) = true := by
    cases he : p.expiresAtEpochSeconds with
    | none => simp
    | some e => simpa using h.deadline e he
  unfold validateStateProposal validateInteractionProposal validateId
  simp only [seq_eq_ok, validateText_eq_ok, rejectIf_eq_ok]
  exact ⟨⟨h.id.textOk, h.ruleSetId.textOk, h.ruleId.textOk, h.proposalId.textOk, h.title.textOk,
    h.body.textOk, not_lt.2 h.requested, hdeadline, validateProposalTimes_of_ok h.times⟩,
    UInt64.not_lt.2 h.source⟩

/-- **The domain's check of a state that the engine accepts.** -/
theorem StateOk.validate_iff (h : StateOk lib defaultInteractionLimits state) :
    state.validate = .ok () ↔ ∀ v ∈ state.vars.refs, v.misplaced = false := by
  have hrest : ¬ state.manuallyActiveKnowledge.length > maxKnowledgeEntries ∧
      ¬ hasDuplicate state.manuallyActiveKnowledge = true ∧
      ¬ state.proposals.length > maxInteractionProposals ∧
      forIdx (validateStateProposal state.revision) state.proposals = .ok () ∧
      ¬ hasDuplicate (state.proposals.map (·.id)) = true ∧
      ¬ hasDuplicate (pendingProposalIds state.proposals) = true := by
    simp only [Bool.not_eq_true, hasDuplicate_eq_false, gt_iff_lt, not_lt, forIdx_eq_ok]
    exact ⟨h.knowledgeCount, h.knowledgeNodup, h.proposalCount,
      fun j p hj => validateStateProposal_of_ok (h.proposals p (List.mem_of_getElem? hj)),
      h.recordsNodup, h.pendingNodup⟩
  have hcount : state.vars.values.length ≤ LorePia.maxVariables := h.varCount
  unfold InteractionState.validate validateVariableMap
  simp only [seq_eq_ok, rejectIf_eq_ok, gt_iff_lt, not_lt, forIdx_eq_ok, Bool.not_eq_true,
    hasDuplicate_eq_false] at hrest ⊢
  constructor
  · rintro ⟨⟨-, hbindings, -⟩, -⟩ v hv
    obtain ⟨b, hb, rfl⟩ := List.mem_map.1 hv
    obtain ⟨j, hj⟩ := List.mem_iff_getElem?.1 hb
    exact (validateVariableRef_iff (h.varRefs b hb)).1 (hbindings j b hj).1
  · intro hplaced
    refine ⟨⟨hcount, fun j b hj => ?_, h.varsNodup⟩, hrest⟩
    have hb := List.mem_of_getElem? hj
    exact ⟨(validateVariableRef_iff (h.varRefs b hb)).2 (hplaced _ (List.mem_map.2 ⟨b, hb, rfl⟩)),
      validateVariableValue_of_check (h.varValues b hb)⟩

/-! ## What an event writes -/

variable {limits : InteractionLimits} {source : ActionSource} {engine : InteractionEngine}
  {event : InteractionEvent} {context : InteractionContext} {outcome : InteractionOutcome} {run : RuleRun}

theorem ActionStep.mem_refs {action : InteractionAction} {state' : InteractionState}
    {pushed : List InteractionEffect} (h : ActionStep lib limits source state action state' pushed)
    (w : VariableRef) : w ∈ state'.vars.refs ↔ w ∈ state.vars.refs ∨ action.target = some w := by
  cases h with
  | write htarget _ _ =>
    rw [htarget, Option.some.injEq, setVariable, VariableMap.mem_refs_insert, or_comm, @eq_comm _ w]
  | activate | propose => simp [InteractionAction.target]
  | leave htarget _ => simp [htarget]

/-- A rule writes a variable. -/
def CompiledRule.Writes (compiled : CompiledRule) (w : VariableRef) : Prop :=
  ∃ action ∈ compiled.rule.actions, action.target = some w

/-- **The variables after an event** are the ones before it and those that its applied rules write. -/
theorem EventHandled.mem_refs (hh : EventHandled lib engine state event context outcome run)
    (w : VariableRef) : w ∈ outcome.state.vars.refs ↔
      w ∈ state.vars.refs ∨ ∃ compiled ∈ engine.applied lib state event context, compiled.Writes w := by
  rw [hh.state_eq]
  refine hh.inv (I := fun done run => w ∈ run.state.vars.refs ↔
    w ∈ state.vars.refs ∨ ∃ compiled ∈ done, compiled.Writes w) (by simp [RuleRun.start]) ?_
  intro done compiled run next trace progress _ hrun happlied
  have hactions : w ∈ progress.state.vars.refs ↔ w ∈ run.state.vars.refs ∨ compiled.Writes w := by
    refine applyActions_inv (I := fun done p => w ∈ p.state.vars.refs ↔ w ∈ run.state.vars.refs ∨
      ∃ action ∈ done, action.target = some w) happlied.actions (by simp) ?_
    intro done action _ p p' pushed _ hp hstep
    rw [hstep.step.mem_refs, hp]
    simp [or_assoc]
  rw [happlied.state_eq, hactions, hrun]
  simp [or_assoc]

/-- The durable check of an event's state looks at what the applied rules wrote. -/
theorem EventHandled.validate_iff (hh : EventHandled lib engine state event context outcome run)
    (hlimits : engine.limits = defaultInteractionLimits) (hnamed : engine.Named)
    (hok : StateOk lib defaultInteractionLimits state) (hvalid : state.validate = .ok ()) :
    outcome.state.validate = .ok () ↔
      ∀ compiled ∈ engine.applied lib state event context, ∀ w, compiled.Writes w →
        w.misplaced = false := by
  have hplaced := hok.validate_iff.1 hvalid
  have hout : StateOk lib defaultInteractionLimits outcome.state := by
    rw [← hlimits] at hok ⊢
    exact (hh.ok (by rw [hlimits]; decide) hnamed hok).1
  rw [hout.validate_iff]
  constructor
  · intro hall compiled hmem w hw
    exact hall w ((hh.mem_refs w).2 (.inr ⟨compiled, hmem, hw⟩))
  · intro hall w hw
    rcases (hh.mem_refs w).1 hw with hw | ⟨compiled, hmem, hw⟩
    · exact hplaced w hw
    · exact hall compiled hmem w hw

/-- **When an event returns a state that the durable boundary accepts.** -/
theorem handleEvent_validate_iff {sets : List InteractionRuleSet} {approvals : List String}
    (hcompile : compileWithOptions sets defaultInteractionLimits approvals = .ok engine)
    (haccepted : validateInteractionState lib state defaultInteractionLimits = .ok ())
    (hvalid : state.validate = .ok ())
    (h : handleEvent lib engine state event context = .ok outcome) :
    outcome.state.validate = .ok () ↔
      ∀ compiled ∈ engine.applied lib state event context, ∀ w, compiled.Writes w →
        w.misplaced = false := by
  obtain ⟨hlimits, -, hnamed⟩ := compileWithOptions_named hcompile
  obtain ⟨run, hh⟩ := handleEvent_eq_ok h
  have hok := (validateInteractionState_eq_ok defaultLimits_pending).1 haccepted
  exact hh.validate_iff hlimits hnamed hok hvalid

/-- The event that changes the sign of a zero, at the durable boundary. -/
theorem handleEvent_validate_iff_lampState : ∃ outcome,
    handleEvent sampleExternals (engineOf defaultInteractionLimits [] [lampSet]) (lampState false)
        .conversationOpened plainContext = .ok outcome ∧
      (outcome.state.validate = .ok () ↔
        ∀ compiled ∈ (engineOf defaultInteractionLimits [] [lampSet]).applied sampleExternals
          (lampState false) .conversationOpened plainContext, ∀ w, compiled.Writes w →
          w.misplaced = false) := by
  obtain ⟨outcome, houtcome, -⟩ := lampState_handled
  exact ⟨outcome, houtcome, handleEvent_validate_iff lampSet_compiles lampState_accepted (by decide +kernel)
    houtcome⟩

/-! ## A namespace outside the module scope -/

/-- A state without variables, entries and proposals. -/
def emptyState : InteractionState := ⟨⟨[]⟩, [], [], 0⟩

/-- A set that writes a conversation variable with a namespace. -/
def strayingSet : InteractionRuleSet :=
  openingSet [.setVariable ⟨.conversation, some "x", "y"⟩ (.literal (.bool true))]

/-- **The engine accepts and stores a variable that the durable boundary refuses.** -/
theorem strayingSet_invalid : ∃ engine outcome, strayingSet.validate = .ok () ∧
    compileWithOptions [strayingSet] defaultInteractionLimits [] = .ok engine ∧
    validateInteractionState sampleExternals emptyState defaultInteractionLimits = .ok () ∧
    emptyState.validate = .ok () ∧
    handleEvent sampleExternals engine emptyState .conversationOpened plainContext = .ok outcome ∧
    outcome.state.validate = .error ⟨"variables[0].variable.namespace",
      "only module variables may carry a module namespace"⟩ := by
  obtain ⟨engine, hengine⟩ := exists_ok
    (x := compileWithOptions [strayingSet] defaultInteractionLimits []) (by decide +kernel)
  obtain ⟨-, rfl⟩ := compileWithOptions_eq_ok.1 hengine
  obtain ⟨outcome, houtcome, hvalidate⟩ := exists_ok_of_map (f := fun outcome => outcome.state.validate)
    (x := handleEvent sampleExternals (engineOf defaultInteractionLimits [] [strayingSet]) emptyState
      .conversationOpened plainContext)
    (b := .error ⟨"variables[0].variable.namespace",
      "only module variables may carry a module namespace"⟩) (by decide +kernel)
  exact ⟨_, outcome, by decide +kernel, hengine, by decide +kernel, by decide +kernel, houtcome, hvalidate⟩

end LorePia
