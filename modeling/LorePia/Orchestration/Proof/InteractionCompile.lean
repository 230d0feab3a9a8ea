import LorePia.Orchestration.Proof.InteractionState

/-!
# Compiled interaction rules

`compile_with_options` accepts rule sets exactly when every set and rule passes its checks on its own and
no id comes twice, and its rules are then the rules of the sets in the order of priority and id
(`compileWithOptions_eq_ok`). The checks look at one set or rule at a time, so they do not depend on the
order of the sets and rules, and fewer rules pass too.
-/

namespace LorePia

open Base

variable {limits : InteractionLimits} {approvals : List String} {set : InteractionRuleSet}
  {rule : InteractionRule}

/-- Whether a rule may run: the approval of its provenance and its set's. -/
def approvalOf (approvals : List String) (set : InteractionRuleSet) (rule : InteractionRule) : Bool :=
  match ruleProvenanceIsApproved set.provenance rule.provenance approvals with
  | .ok approved => approved
  | .error _ => false

/-- The compiled form of a rule of a set. -/
def compiledRule (approvals : List String) (set : InteractionRuleSet) (rule : InteractionRule) :
    CompiledRule :=
  ⟨set.id, rule, approvalOf approvals set rule, set.maxActionsPerEvent.toNat⟩

/-- The compiled rules of a set. -/
def compiledSet (approvals : List String) (set : InteractionRuleSet) : List CompiledRule :=
  set.rules.map (compiledRule approvals set)

/-- A rule that compiles. -/
structure RuleOk (limits : InteractionLimits) (approvals : List String) (set : InteractionRuleSet)
    (rule : InteractionRule) : Prop where
  id : IdentifierOk limits rule.id
  name : validatePlainText "interaction rule name" rule.name limits = .ok ()
  event : validateEvent rule.event limits = .ok ()
  condition : ∀ condition, rule.condition = some condition → checkCondition condition limits = .ok ()
  count : rule.actions.length ≤ limits.maxActionsPerRule
  actions : ∀ action ∈ rule.actions, validateAction action rule.provenance limits = .ok ()
  approval : ruleProvenanceIsApproved set.provenance rule.provenance approvals =
    .ok (approvalOf approvals set rule)

theorem compileRule_eq_ok {state r : CompileState} :
    compileRule limits approvals set state rule = .ok r ↔
      RuleOk limits approvals set rule ∧ rule.id ∉ state.ids ∧
        r = { state with
          ids := state.ids ++ [rule.id], rules := state.rules ++ [compiledRule approvals set rule] } := by
  unfold compileRule
  simp only [seq_eq_ok, validateIdentifier_eq_ok, rejectIf_eq_ok, forSome_eq_ok, forM_eq_ok, gt_iff_lt,
    not_lt]
  simp only [bind_eq_ok, pure_eq_ok]
  constructor
  · rintro ⟨hid, hname, hnew, hevent, hcondition, hcount, hactions, approved, happroval, rfl⟩
    have happroved : approvalOf approvals set rule = approved := by
      rw [approvalOf, happroval]
    refine ⟨⟨hid, hname, hevent, hcondition, hcount, hactions, by rw [happroved, happroval]⟩, hnew, ?_⟩
    rw [compiledRule, happroved]
  · rintro ⟨h, hnew, rfl⟩
    exact ⟨h.id, h.name, hnew, h.event, h.condition, h.count, h.actions, _, h.approval, rfl⟩

/-- The rules of one set. -/
theorem compileRules_eq_ok : ∀ {rules : List InteractionRule} {state r : CompileState},
    rules.foldlM (compileRule limits approvals set) state = .ok r ↔
      (∀ rule ∈ rules, RuleOk limits approvals set rule) ∧ (rules.map (·.id)).Nodup ∧
      (∀ rule ∈ rules, rule.id ∉ state.ids) ∧
      r = { state with
        ids := state.ids ++ rules.map (·.id)
        rules := state.rules ++ rules.map (compiledRule approvals set) }
  | [], state, r => by simp [@eq_comm _ r]
  | rule :: rules, state, r => by
    rw [List.foldlM_cons, bind_eq_ok, List.forall_mem_cons, List.forall_mem_cons]
    simp only [compileRule_eq_ok, compileRules_eq_ok, List.map_cons, List.nodup_cons]
    constructor
    · rintro ⟨_, ⟨hrule, hnew, rfl⟩, hrules, hnodup, hnews, rfl⟩
      refine ⟨⟨hrule, hrules⟩, ⟨fun hm => ?_, hnodup⟩, ⟨hnew, fun other ho hm => ?_⟩, by simp⟩
      · obtain ⟨other, ho, hid⟩ := List.mem_map.1 hm
        exact hnews other ho (by simp [hid])
      · exact hnews other ho (by simp [hm])
    · rintro ⟨⟨hrule, hrules⟩, ⟨hn, hnodup⟩, ⟨hnew, hnews⟩, rfl⟩
      refine ⟨_, ⟨hrule, hnew, rfl⟩, hrules, hnodup, fun other ho hm => ?_, by simp⟩
      rcases List.mem_append.1 hm with hm | hm
      · exact hnews other ho hm
      · exact hn (List.mem_map.2 ⟨other, ho, by simpa using hm⟩)

/-- A set that compiles. -/
structure SetOk (limits : InteractionLimits) (approvals : List String) (set : InteractionRuleSet) :
    Prop where
  id : IdentifierOk limits set.id
  name : validatePlainText "interaction rule set name" set.name limits = .ok ()
  actions : set.maxActionsPerEvent.toNat ≠ 0 ∧ set.maxActionsPerEvent.toNat ≤ limits.maxActionsPerEvent
  rules : ∀ rule ∈ set.rules, RuleOk limits approvals set rule

/-- The ids of the rules of some sets. -/
def ruleIds (sets : List InteractionRuleSet) : List InteractionRuleId :=
  sets.flatMap fun set => set.rules.map (·.id)

theorem compileSet_eq_ok {state r : CompileState} :
    compileSet limits approvals state set = .ok r ↔
      SetOk limits approvals set ∧ set.id ∉ state.setIds ∧ (set.rules.map (·.id)).Nodup ∧
        (∀ rule ∈ set.rules, rule.id ∉ state.ids) ∧
        r = ⟨state.setIds ++ [set.id], state.ids ++ set.rules.map (·.id),
          state.rules ++ compiledSet approvals set⟩ := by
  unfold compileSet
  simp only [seq_eq_ok, validateIdentifier_eq_ok, rejectIf_eq_ok, not_or, gt_iff_lt, not_lt,
    compileRules_eq_ok]
  constructor
  · rintro ⟨hid, hname, hnew, hactions, hrules, hnodup, hnews, rfl⟩
    exact ⟨⟨hid, hname, hactions, hrules⟩, hnew, hnodup, hnews, rfl⟩
  · rintro ⟨h, hnew, hnodup, hnews, rfl⟩
    exact ⟨h.id, h.name, hnew, h.actions, h.rules, hnodup, hnews, rfl⟩

/-- The sets, one after the other. -/
theorem compileSets_eq_ok : ∀ {sets : List InteractionRuleSet} {state r : CompileState},
    state.setIds.Nodup → state.ids.Nodup →
    (sets.foldlM (compileSet limits approvals) state = .ok r ↔
      (∀ set ∈ sets, SetOk limits approvals set) ∧ (state.setIds ++ sets.map (·.id)).Nodup ∧
      (state.ids ++ ruleIds sets).Nodup ∧
      r = ⟨state.setIds ++ sets.map (·.id), state.ids ++ ruleIds sets,
        state.rules ++ sets.flatMap (compiledSet approvals)⟩)
  | [], state, r, hsets, hids => by simp [ruleIds, hsets, hids, @eq_comm _ r]
  | set :: sets, state, r, hsets, hids => by
    have hcons : ruleIds (set :: sets) = set.rules.map (·.id) ++ ruleIds sets := by
      simp [ruleIds]
    rw [List.foldlM_cons, bind_eq_ok, List.forall_mem_cons, hcons, List.map_cons]
    constructor
    · rintro ⟨state', hset, hrest⟩
      obtain ⟨hok, hnew, hnodup, hnews, rfl⟩ := compileSet_eq_ok.1 hset
      have hsets' := nodup_snoc.2 ⟨hsets, hnew⟩
      have hids' : (state.ids ++ set.rules.map (·.id)).Nodup := by
        refine List.nodup_append.2 ⟨hids, hnodup, fun a ha b hb => ?_⟩
        obtain ⟨rule, hrule, rfl⟩ := List.mem_map.1 hb
        exact fun he => hnews rule hrule (he ▸ ha)
      obtain ⟨hoks, hsets, hids, rfl⟩ := (compileSets_eq_ok hsets' hids').1 hrest
      exact ⟨⟨hok, hoks⟩, by simpa using hsets, by simpa using hids, by simp⟩
    · rintro ⟨⟨hok, hoks⟩, hnodup, hnodups, rfl⟩
      have hnodup' : (state.setIds ++ [set.id] ++ sets.map (·.id)).Nodup := by simpa using hnodup
      have hnodups' : (state.ids ++ set.rules.map (·.id) ++ ruleIds sets).Nodup := by
        simpa using hnodups
      have hset := nodup_snoc.1 hnodup'.of_append_left
      have hrules := List.nodup_append.1 hnodups'.of_append_left
      refine ⟨_, compileSet_eq_ok.2 ⟨hok, hset.2, hrules.2.1, fun rule hrule hm => ?_, rfl⟩, ?_⟩
      · exact hrules.2.2 _ hm _ (List.mem_map.2 ⟨rule, hrule, rfl⟩) rfl
      · refine (compileSets_eq_ok hnodup'.of_append_left hnodups'.of_append_left).2
          ⟨hoks, hnodup', hnodups', by simp⟩

/-- The number of rules of some sets. -/
def ruleCount (sets : List InteractionRuleSet) : Nat := (sets.map (·.rules.length)).sum

/-- **What compiles.** -/
structure Compiles (limits : InteractionLimits) (approvals : List String)
    (sets : List InteractionRuleSet) : Prop where
  valid : limits.validate = .ok ()
  setCount : sets.length ≤ limits.maxRuleSets
  total : ruleCount sets ≤ usizeMax ∧ ruleCount sets ≤ limits.maxRules
  setOk : ∀ set ∈ sets, SetOk limits approvals set
  setsNodup : (sets.map (·.id)).Nodup
  rulesNodup : (ruleIds sets).Nodup

/-- The engine of some sets. -/
def engineOf (limits : InteractionLimits) (approvals : List String) (sets : List InteractionRuleSet) :
    InteractionEngine :=
  ⟨stableSort ruleLe (sets.flatMap (compiledSet approvals)), limits⟩

theorem compileWithOptions_eq_ok {sets : List InteractionRuleSet} {engine : InteractionEngine} :
    compileWithOptions sets limits approvals = .ok engine ↔
      Compiles limits approvals sets ∧ engine = engineOf limits approvals sets := by
  have hloop := fun r => @compileSets_eq_ok limits approvals sets ⟨[], [], []⟩ r List.nodup_nil
    List.nodup_nil
  have hcount : ∀ total, sets.foldlM (fun count set => checkedAdd count set.rules.length) 0 = some total ↔
      0 + ruleCount sets ≤ usizeMax ∧ total = 0 + ruleCount sets :=
    fun total => foldlM_checkedAdd (fun set : InteractionRuleSet => set.rules.length) (Nat.zero_le _)
  unfold compileWithOptions
  simp only [seq_eq_ok, rejectIf_eq_ok]
  simp only [bind_eq_ok, okOr_eq_ok, rejectIf_eq_ok, exists_const, pure_eq_ok, hloop, hcount,
    List.nil_append, Nat.zero_add, gt_iff_lt, not_lt]
  constructor
  · rintro ⟨hlimits, hsets, _, ⟨hfit, rfl⟩, hrules, _, ⟨hoks, hnodup, hnodups, rfl⟩, rfl⟩
    exact ⟨⟨hlimits, hsets, ⟨hfit, hrules⟩, hoks, hnodup, hnodups⟩, rfl⟩
  · rintro ⟨h, rfl⟩
    exact ⟨h.valid, h.setCount, _, ⟨h.total.1, rfl⟩, h.total.2, _,
      ⟨h.setOk, h.setsNodup, h.rulesNodup, rfl⟩, rfl⟩

/-- The rules of an engine are the compiled rules of its sets. -/
theorem mem_engineOf {sets : List InteractionRuleSet} {compiled : CompiledRule} :
    compiled ∈ (engineOf limits approvals sets).rules ↔
      ∃ set ∈ sets, ∃ rule ∈ set.rules, compiled = compiledRule approvals set rule := by
  simp only [engineOf, mem_stableSort, List.mem_flatMap, compiledSet, List.mem_map, @eq_comm _ compiled]

end LorePia
