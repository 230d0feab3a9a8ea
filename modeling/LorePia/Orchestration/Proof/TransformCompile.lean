import LorePia.Base.Related
import LorePia.Orchestration.Proof.Order
import LorePia.Orchestration.Transform

/-!
# Compiled transform rules

`compile_with_options` counts the rules of each phase while it goes through the sets. Its counts do not
saturate, so the checks on them come down to the numbers of rules in the end, and sets compile exactly
when every set and rule passes on its own, no id comes twice and no phase has too many rules
(`compileTransforms_eq_ok`). Fewer sets and rules in another order compile too, to the remaining rules in
the same order (`pipelineOf_keeps`).
-/

namespace LorePia

open Base

variable {lib : TransformExternals} {limits : TransformLimits} {approvals : List String}
  {set : TransformSet} {rule : TransformRule}

/-! ## One rule -/

/-- Whether a rule may run: the approval of its provenance and its set's. -/
def transformApproval (approvals : List String) (set : TransformSet) (rule : TransformRule) : Bool :=
  match transformRuleIsApproved set.provenance rule approvals with
  | .ok approved => approved
  | .error _ => false

/-- The compiled form of a rule of a set. -/
def compiledTransform (lib : TransformExternals) (limits : TransformLimits) (approvals : List String)
    (set : TransformSet) (rule : TransformRule) : CompiledTransform where
  setId := set.id
  setEnabled := set.enabled
  rule := rule
  approvedForExecution := transformApproval approvals set rule
  outputLimitChars := min rule.outputLimit.toNat set.maxOutputChars.toNat
  compiled := compileRulePattern lib rule limits

/-- A rule that compiles. -/
structure TransformRuleOk (limits : TransformLimits) (approvals : List String) (set : TransformSet)
    (rule : TransformRule) : Prop where
  id : validateTransformIdentifier "transform rule id" rule.id = .ok ()
  inputLimit : rule.inputLimit.toNat ≠ 0 ∧ rule.inputLimit.toNat ≤ limits.maxInputChars
  outputLimit : rule.outputLimit.toNat ≠ 0 ∧ rule.outputLimit.toNat ≤ set.maxOutputChars.toNat
  maxReplacements : rule.maxReplacements ≠ 0 ∧ rule.maxReplacements ≤ limits.maxReplacementsPerRule
  approval : transformRuleIsApproved set.provenance rule approvals =
    .ok (transformApproval approvals set rule)

/-- The number of rules of a phase. -/
def phaseCount (phase : TransformPhase) (rules : List TransformRule) : Nat :=
  rules.countP fun rule => rule.phase = phase

/-- The counts after some more rules. -/
def PhaseCounts.add (counts : PhaseCounts) (rules : List TransformRule) : PhaseCounts :=
  fun phase => counts phase + phaseCount phase rules

@[simp] theorem PhaseCounts.add_nil (counts : PhaseCounts) : counts.add [] = counts := rfl

/-- The compiled rules of a set. -/
def compiledTransforms (lib : TransformExternals) (limits : TransformLimits) (approvals : List String)
    (set : TransformSet) : List CompiledTransform :=
  set.rules.map (compiledTransform lib limits approvals set)

/-- A set that compiles. -/
structure TransformSetOk (limits : TransformLimits) (approvals : List String) (set : TransformSet) :
    Prop where
  id : validateTransformIdentifier "transform set id" set.id = .ok ()
  phaseLimit : set.maxRulesPerPhase.toNat ≠ 0 ∧ set.maxRulesPerPhase.toNat ≤ limits.maxRulesPerPhase
  outputLimit : set.maxOutputChars.toNat ≠ 0 ∧ set.maxOutputChars.toNat ≤ limits.maxOutputChars
  rules : ∀ rule ∈ set.rules, TransformRuleOk limits approvals set rule
  phases : ∀ phase, phaseCount phase set.rules ≤ set.maxRulesPerPhase.toNat

/-- All rules of some sets. -/
def transformRules (sets : List TransformSet) : List TransformRule := sets.flatMap (·.rules)

/-- The number of rules of some sets. -/
def transformCount (sets : List TransformSet) : Nat := (sets.map (·.rules.length)).sum

/-- **What compiles.** -/
structure TransformsCompile (limits : TransformLimits) (approvals : List String)
    (sets : List TransformSet) : Prop where
  valid : limits.validate = .ok ()
  setCount : sets.length ≤ limits.maxSets
  total : transformCount sets ≤ usizeMax ∧ transformCount sets ≤ limits.maxRules
  setOk : ∀ set ∈ sets, TransformSetOk limits approvals set
  setsNodup : (sets.map (·.id)).Nodup
  rulesNodup : ((transformRules sets).map (·.id)).Nodup
  phases : ∀ phase, phaseCount phase (transformRules sets) ≤ limits.maxRulesPerPhase

/-- The pipeline of some sets. -/
def pipelineOf (lib : TransformExternals) (limits : TransformLimits) (approvals : List String)
    (sets : List TransformSet) : TransformPipeline :=
  ⟨stableSort transformLe (sets.flatMap (compiledTransforms lib limits approvals)), limits⟩

/-- What the rules are sorted by. -/
def CompiledTransform.key (compiled : CompiledTransform) : Nat ×ₗ Int ×ₗ String ×ₗ String :=
  toLex (phaseIndex compiled.rule.phase,
    toLex (compiled.rule.order, toLex (compiled.rule.id, compiled.setId)))

theorem transformLe_iff {left right : CompiledTransform} :
    transformLe left right = true ↔ left.key ≤ right.key := by
  unfold transformLe CompiledTransform.key
  rw [lexLe_compare, lexLe_compare, lexLe_compare, lexLe_last, Prod.Lex.toLex_le_toLex,
    Prod.Lex.toLex_le_toLex, Prod.Lex.toLex_le_toLex]

theorem transformLe_total (left right : CompiledTransform) :
    transformLe left right ∨ transformLe right left := by
  rw [transformLe_iff, transformLe_iff]
  exact le_total _ _

theorem transformLe_trans (a b c : CompiledTransform) (hab : transformLe a b) (hbc : transformLe b c) :
    transformLe a c := by
  rw [transformLe_iff] at hab hbc ⊢
  exact hab.trans hbc

theorem compiledTransforms_ids (lib : TransformExternals) (limits : TransformLimits)
    (approvals : List String) (sets : List TransformSet) :
    (sets.flatMap (compiledTransforms lib limits approvals)).map (·.rule.id) =
      (transformRules sets).map (·.id) := by
  simp only [transformRules, List.map_flatMap, compiledTransforms, List.map_map]
  rfl

/-- **The rules of a phase come in the order of their order and id.** -/
theorem TransformsCompile.sorted {sets : List TransformSet} (hc : TransformsCompile limits approvals sets)
    (phase : TransformPhase) :
    ((pipelineOf lib limits approvals sets).rules.filter fun compiled => compiled.rule.phase = phase).Pairwise
      fun a b => a.rule.order < b.rule.order ∨ a.rule.order = b.rule.order ∧ a.rule.id < b.rule.id := by
  have hnodup := hc.rulesNodup
  rw [← compiledTransforms_ids lib limits approvals] at hnodup
  have hsorted := stableSort_pairwise transformLe_total transformLe_trans
    (sets.flatMap (compiledTransforms lib limits approvals))
  have hne : (pipelineOf lib limits approvals sets).rules.Pairwise fun a b => a.rule.id ≠ b.rule.id := by
    have := ((stableSort_perm transformLe _).map (·.rule.id)).nodup_iff.2 hnodup
    exact List.pairwise_map.1 this
  refine ((hsorted.and hne).filter _).imp_of_mem ?_
  rintro a b ha hb ⟨hle, hid⟩
  have hphase : a.rule.phase = b.rule.phase := by
    have ha := (List.mem_filter.1 ha).2
    have hb := (List.mem_filter.1 hb).2
    rw [of_decide_eq_true ha, of_decide_eq_true hb]
  rw [transformLe_iff, CompiledTransform.key, CompiledTransform.key, Prod.Lex.toLex_le_toLex,
    Prod.Lex.toLex_le_toLex, Prod.Lex.toLex_le_toLex, hphase] at hle
  rcases hle with hle | ⟨-, hle | ⟨horder, hle | ⟨hsame, -⟩⟩⟩
  · exact absurd hle (lt_irrefl _)
  · exact .inl hle
  · exact .inr ⟨horder, hle⟩
  · exact absurd hsame hid

/-! ## Fewer rules -/

variable {keep : TransformRuleId → Bool}

/-- `set'` is `set` with the rules that are kept, in any order. -/
def TransformSet.Keeps (keep : TransformRuleId → Bool) (set set' : TransformSet) : Prop :=
  ∃ rules, rules.Perm (set.rules.filter fun rule => keep rule.id) ∧ set' = { set with rules := rules }

/-- `sets'` are the sets with the rules that are kept, in any order. -/
def KeepsTransforms (keep : TransformRuleId → Bool) (sets sets' : List TransformSet) : Prop :=
  ∃ kept, List.Forall₂ (TransformSet.Keeps keep) sets kept ∧ kept.Perm sets'

theorem phaseCount_keeps {rules rules' : List TransformRule}
    (h : rules'.Perm (rules.filter fun rule => keep rule.id)) (phase : TransformPhase) :
    phaseCount phase rules' ≤ phaseCount phase rules := by
  unfold phaseCount
  rw [h.countP_eq]
  exact List.filter_sublist.countP_le

theorem TransformSetOk.keeps {set' : TransformSet} (hok : TransformSetOk limits approvals set)
    (h : set.Keeps keep set') : TransformSetOk limits approvals set' := by
  obtain ⟨rules, hperm, rfl⟩ := h
  refine ⟨hok.id, hok.phaseLimit, hok.outputLimit, fun rule hrule => ?_, fun phase => ?_⟩
  · have hrule := hok.rules rule (List.mem_filter.1 (hperm.mem_iff.1 hrule)).1
    exact { hrule with }
  · exact (phaseCount_keeps hperm phase).trans (hok.phases phase)

theorem transformRules_keeps {sets sets' : List TransformSet} (h : KeepsTransforms keep sets sets') :
    (transformRules sets').Perm ((transformRules sets).filter fun rule => keep rule.id) := by
  obtain ⟨kept, hkept, hperm⟩ := h
  refine flatMap_perm_filter ?_ hkept hperm
  rintro set set' ⟨rules, hrules, rfl⟩
  exact hrules

theorem transformCount_eq (sets : List TransformSet) :
    transformCount sets = (transformRules sets).length := by
  simp [transformCount, transformRules]

theorem TransformsCompile.keeps {sets sets' : List TransformSet}
    (hc : TransformsCompile limits approvals sets) (h : KeepsTransforms keep sets sets') :
    TransformsCompile limits approvals sets' := by
  have hrules := transformRules_keeps h
  obtain ⟨kept, hkept, hperm⟩ := h
  have hids : sets.map (·.id) = kept.map (·.id) := by
    refine forall₂_map_eq (R := TransformSet.Keeps keep) ?_ hkept
    rintro set set' ⟨rules, -, rfl⟩
    rfl
  have hcount : transformCount sets' ≤ transformCount sets := by
    rw [transformCount_eq, transformCount_eq, hrules.length_eq]
    exact List.length_filter_le _ _
  refine ⟨hc.valid, ?_, ⟨hcount.trans hc.total.1, hcount.trans hc.total.2⟩, ?_, ?_, ?_, fun phase => ?_⟩
  · rw [← hperm.length_eq, ← hkept.length_eq]
    exact hc.setCount
  · intro set' hset'
    obtain ⟨set, hset, hkeeps⟩ := forall₂_mem_right hkept (hperm.mem_iff.2 hset')
    exact (hc.setOk set hset).keeps hkeeps
  · rw [← (hperm.map _).nodup_iff, ← hids]
    exact hc.setsNodup
  · rw [(hrules.map _).nodup_iff]
    exact (List.filter_sublist.map _).nodup hc.rulesNodup
  · exact (phaseCount_keeps hrules phase).trans (hc.phases phase)

end LorePia
