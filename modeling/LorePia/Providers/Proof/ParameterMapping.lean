import LorePia.Providers.ParameterMapping

/-!
# Presets are closed under their rules

What a preset gives is a relation between a parameter and an explicit literal (`Gives`), and what the engine reads
from the collected states is that relation (`explicitOf_collected`). So the verdict is a statement about the values
as a set (`Admissible`): their order, and entries that inherit, make no difference.
-/

namespace LorePia

namespace ParameterMapping

open Base

/-! ## What a preset says -/

/-- The preset gives the parameter an explicit value. -/
def Gives (values : List ParameterValue) (id : ParameterId) (literal : ParameterLiteral) : Prop :=
  ∃ value ∈ values, normalizeId value.parameterId = normalizeId id ∧ value.state = .explicit literal

/-- The values make a condition true. -/
inductive Shows (values : List ParameterValue) : ParameterConditionExpr → Prop
  | equals {id : ParameterId} {value actual : ParameterLiteral} (h : Gives values id actual)
    (heq : actual.eq value = true) : Shows values (.equals id value)
  | notEquals {id : ParameterId} {value actual : ParameterLiteral} (h : Gives values id actual)
    (hne : actual.eq value = false) : Shows values (.notEquals id value)
  | all {conditions : List ParameterConditionExpr} (h : ∀ condition ∈ conditions, Shows values condition) :
    Shows values (.all conditions)
  | any {conditions : List ParameterConditionExpr} {condition : ParameterConditionExpr}
    (hm : condition ∈ conditions) (h : Shows values condition) : Shows values (.any conditions)

/-- The parameter of a definition is visible. -/
def Visible (values : List ParameterValue) (spec : TypedParameterSpec) : Prop :=
  ∀ condition, spec.visibility = some condition → Shows values condition

/-- A rule of an explicit parameter holds. -/
def RuleHolds (values : List ParameterValue) : ParameterRule → Prop
  | .mutuallyExclusive other _ => ∀ literal, ¬Gives values other literal
  | .requires other _ => ∃ literal, Gives values other literal

/-- A preset without fault. -/
structure Admissible (fromStr : String → Option Json) (engine : ParameterEngine)
    (values : List ParameterValue) : Prop where
  known : ∀ value ∈ values, ∃ spec ∈ engine.specs, normalizeId spec.id = normalizeId value.parameterId
  distinct : (values.map fun value => normalizeId value.parameterId).Nodup
  literals : ∀ spec ∈ engine.specs, ∀ literal, Gives values spec.id literal →
    validateLiteral fromStr spec.schema literal = .ok () ∧ Visible values spec
  required : ∀ spec ∈ engine.specs, Visible values spec → spec.defaultMode = .explicitRequired →
    ∃ literal, Gives values spec.id literal
  rules : ∀ spec ∈ engine.specs, ∀ literal, Gives values spec.id literal →
    ∀ rule ∈ spec.rules, RuleHolds values rule

/-- A validated set is the preset's explicit values, closed under the rules of the definitions. -/
structure Closed (engine : ParameterEngine) (values : List ParameterValue) (set : ValidatedParameterSet) :
    Prop where
  order : (set.applied.map (·.parameterId)).Sublist (engine.specs.map (·.id))
  applied : ∀ parameter, parameter ∈ set.applied ↔ ∃ spec ∈ engine.specs,
    parameter.parameterId = spec.id ∧ parameter.mapping = spec.providerMapping ∧
      Gives values spec.id parameter.value
  partition : (set.applied.map (·.parameterId) ++ set.omittedProviderDefaults).Perm (engine.specs.map (·.id))
  unique : (engine.specs.map fun spec => normalizeId spec.id).Nodup
  exclusive : ∀ spec ∈ engine.specs, spec.id ∈ set.applied.map (·.parameterId) →
    ∀ other messageKey, .mutuallyExclusive other messageKey ∈ spec.rules →
      ∀ parameter ∈ set.applied, normalizeId parameter.parameterId ≠ normalizeId other
  required : ∀ spec ∈ engine.specs, spec.id ∈ set.applied.map (·.parameterId) →
    ∀ other messageKey, .requires other messageKey ∈ spec.rules →
      ∃ parameter ∈ set.applied, normalizeId parameter.parameterId = normalizeId other

/-- Entries that inherit the default of known parameters that nothing else mentions. -/
structure Inherits (engine : ParameterEngine) (values entries : List ParameterValue) : Prop where
  state : ∀ entry ∈ entries, entry.state = .inheritProviderDefault
  known : ∀ entry ∈ entries, ∃ spec ∈ engine.specs, normalizeId spec.id = normalizeId entry.parameterId
  distinct : (entries.map fun entry => normalizeId entry.parameterId).Nodup
  unmentioned : ∀ entry ∈ entries, ∀ value ∈ values,
    normalizeId entry.parameterId ≠ normalizeId value.parameterId

/-! ## Loops that report -/

@[simp] theorem reportIf_eq_nil {α : Type} {bad : Prop} [Decidable bad] {issue : α} :
    reportIf bad issue = [] ↔ ¬bad := by
  unfold reportIf
  split <;> simp_all

/-- A loop that inserts under distinct keys and reports everything else. -/
theorem foldl_insert_reports {α ι ν : Type} {P : α → Prop} {key : α → String} {val : α → ν}
    {g : OrdMap String ν × List ι → α → OrdMap String ν × List ι}
    (hg : ∀ acc a r, g acc a = (r, []) ↔
      acc.2 = [] ∧ P a ∧ acc.1.contains (key a) = false ∧ r = acc.1.insert (key a) (val a)) :
    ∀ {l : List α} {acc : OrdMap String ν × List ι} {r : OrdMap String ν}, l.foldl g acc = (r, []) ↔
      acc.2 = [] ∧ (∀ a ∈ l, P a) ∧ (l.map key).Nodup ∧ (∀ a ∈ l, acc.1.contains (key a) = false) ∧
        r = (l.map fun a => (key a, val a)).foldl (fun m e => m.insert e.1 e.2) acc.1
  | [], (m, issues), r => by
    rw [List.foldl_nil, Prod.mk.injEq]
    constructor
    · rintro ⟨rfl, rfl⟩
      exact ⟨rfl, by simp, by simp, by simp, rfl⟩
    · rintro ⟨rfl, -, -, -, rfl⟩
      exact ⟨rfl, rfl⟩
  | a :: l, acc, r => by
    rw [List.foldl_cons, foldl_insert_reports hg]
    have hstep : (g acc a).2 = [] ↔ g acc a = ((g acc a).1, []) := by
      rw [Prod.ext_iff]
      simp
    simp only [hstep, hg, List.map_cons, List.nodup_cons, List.forall_mem_cons, List.foldl_cons]
    constructor
    · rintro ⟨⟨hnil, ha, hna, heq⟩, hl, hnd, hns, rfl⟩
      rw [heq] at hns ⊢
      refine ⟨hnil, ⟨ha, hl⟩, ⟨?_, hnd⟩, ⟨hna, fun b hb => ?_⟩, rfl⟩
      · intro hm
        obtain ⟨b, hb, hk⟩ := List.mem_map.1 hm
        simpa [OrdMap.contains, hk] using hns b hb
      · have hb' := hns b hb
        simp only [OrdMap.contains, OrdMap.get?_insert] at hb' ⊢
        split at hb'
        · simp at hb'
        · exact hb'
    · rintro ⟨hnil, ⟨ha, hl⟩, ⟨hn, hnd⟩, ⟨hna, hns⟩, rfl⟩
      have heq : (g acc a).1 = acc.1.insert (key a) (val a) :=
        congrArg Prod.fst ((hg acc a _).2 ⟨hnil, ha, hna, rfl⟩)
      rw [heq]
      refine ⟨⟨hnil, ha, hna, rfl⟩, hl, hnd, fun b hb => ?_, rfl⟩
      have hne : key a ≠ key b := fun hk => hn (List.mem_map.2 ⟨b, hb, hk.symm⟩)
      simpa [OrdMap.contains, hne] using hns b hb

variable {fromStr : String → Option Json} {specs : List TypedParameterSpec} {engine : ParameterEngine}

/-! ## Literals -/

/-! ## The engine -/

/-- The index of the definitions, when nothing is reported. -/
theorem indexSpecs_eq {start : List ParameterIssue} {indices : OrdMap String Nat}
    (h : specs.zipIdx.foldl (indexSpec fromStr) (.empty, start) = (indices, [])) :
    (specs.map fun spec => normalizeId spec.id).Nodup ∧
      ∀ id, indices.contains id = true ↔ ∃ spec ∈ specs, normalizeId spec.id = id := by
  have hstep : ∀ (acc : OrdMap String Nat × List ParameterIssue) (item : TypedParameterSpec × Nat)
      (r : OrdMap String Nat), indexSpec fromStr acc item = (r, []) ↔
        acc.2 = [] ∧ validateDefinitionShape fromStr item.1 = [] ∧
          acc.1.contains (normalizeId item.1.id) = false ∧ r = acc.1.insert (normalizeId item.1.id) item.2 := by
    intro acc item r
    simp only [indexSpec, Prod.mk.injEq, List.append_eq_nil_iff, reportIf_eq_nil, Bool.not_eq_true]
    constructor
    · rintro ⟨rfl, ⟨hnil, hshape⟩, hnew⟩
      exact ⟨hnil, hshape, hnew, rfl⟩
    · rintro ⟨hnil, hshape, hnew, rfl⟩
      exact ⟨rfl, ⟨hnil, hshape⟩, hnew⟩
  obtain ⟨-, -, hnodup, -, rfl⟩ := (foldl_insert_reports hstep).1 h
  have hkeys : specs.zipIdx.map (fun item => normalizeId item.1.id) =
      specs.map fun spec => normalizeId spec.id := by
    calc specs.zipIdx.map (fun item => normalizeId item.1.id)
        = (specs.zipIdx.map Prod.fst).map (fun spec => normalizeId spec.id) := by
          rw [List.map_map]
          rfl
      _ = specs.map fun spec => normalizeId spec.id := by rw [List.zipIdx_map_fst]
  have hpairs : ((specs.zipIdx.map fun item => (normalizeId item.1.id, item.2)).map Prod.fst).Nodup := by
    rw [List.map_map]
    exact hnodup
  refine ⟨hkeys ▸ hnodup, fun id => ?_⟩
  rw [OrdMap.contains, Option.isSome_iff_exists, ← OrdMap.ofList]
  simp only [OrdMap.get?_ofList_eq_some hpairs, List.mem_map, Prod.mk.injEq]
  constructor
  · rintro ⟨index, item, hm, hid, -⟩
    exact ⟨item.1, List.fst_mem_of_mem_zipIdx hm, hid⟩
  · rintro ⟨spec, hm, hid⟩
    have hfst : spec ∈ specs.zipIdx.map Prod.fst := by rwa [List.zipIdx_map_fst]
    obtain ⟨item, hitem, rfl⟩ := List.mem_map.1 hfst
    exact ⟨item.2, item, hitem, hid, rfl⟩

/-- An accepted engine has its definitions under distinct identifiers, which its index knows. -/
theorem new_eq_ok (h : ParameterEngine.new fromStr specs = .ok engine) :
    (engine.specs.map fun spec => normalizeId spec.id).Nodup ∧
      ∀ id, engine.indices.contains id = true ↔ ∃ spec ∈ engine.specs, normalizeId spec.id = id := by
  unfold ParameterEngine.new at h
  dsimp only at h
  split at h
  · rename_i hissues
    cases h
    exact indexSpecs_eq (Prod.ext rfl (List.append_eq_nil_iff.1 hissues).1)
  · cases h

/-- The collected states, when nothing is reported. -/
theorem collectStates_eq {values : List ParameterValue} {states : OrdMap String ParameterValueState} :
    engine.collectStates values = (states, []) ↔
      (∀ value ∈ values, engine.indices.contains (normalizeId value.parameterId) = true) ∧
        (values.map fun value => normalizeId value.parameterId).Nodup ∧
        states = OrdMap.ofList (values.map fun value => (normalizeId value.parameterId, value.state)) := by
  have hstep : ∀ (acc : OrdMap String ParameterValueState × List ParameterIssue) (value : ParameterValue)
      (r : OrdMap String ParameterValueState), collectState engine.indices acc value = (r, []) ↔
        acc.2 = [] ∧ engine.indices.contains (normalizeId value.parameterId) = true ∧
          acc.1.contains (normalizeId value.parameterId) = false ∧
          r = acc.1.insert (normalizeId value.parameterId) value.state := by
    intro acc value r
    unfold collectState
    dsimp only
    split
    · rename_i hknown
      simp only [Prod.mk.injEq, List.append_eq_nil_iff, reportIf_eq_nil, Bool.not_eq_true]
      constructor
      · rintro ⟨rfl, hnil, hnew⟩
        exact ⟨hnil, hknown, hnew, rfl⟩
      · rintro ⟨hnil, -, hnew, rfl⟩
        exact ⟨rfl, hnil, hnew⟩
    · rename_i hunknown
      simp [hunknown]
  rw [ParameterEngine.collectStates, foldl_insert_reports hstep]
  simp [OrdMap.ofList, OrdMap.contains]

/-! ## Reading the states -/

/-- The explicit value of a parameter in the collected states. -/
def explicitOf (states : OrdMap String ParameterValueState) (id : ParameterId) : Option ParameterLiteral :=
  (states.get? (normalizeId id)).bind explicitLiteral

/-- **The engine reads what the preset gives.** -/
theorem explicitOf_collected {values : List ParameterValue} {states : OrdMap String ParameterValueState}
    (h : engine.collectStates values = (states, [])) (id : ParameterId) (literal : ParameterLiteral) :
    explicitOf states id = some literal ↔ Gives values id literal := by
  obtain ⟨-, hnodup, rfl⟩ := collectStates_eq.1 h
  have hpairs : ((values.map fun value => (normalizeId value.parameterId, value.state)).map Prod.fst).Nodup := by
    rw [List.map_map]
    exact hnodup
  have hstate : ∀ state : ParameterValueState, explicitLiteral state = some literal ↔ state = .explicit literal := by
    intro state
    cases state with
    | inheritProviderDefault => simp [explicitLiteral]
    | explicit value => simp [explicitLiteral]
  rw [explicitOf, Option.bind_eq_some_iff]
  simp only [OrdMap.get?_ofList_eq_some hpairs, List.mem_map, Prod.mk.injEq, hstate]
  constructor
  · rintro ⟨state, ⟨value, hm, hid, rfl⟩, hexplicit⟩
    exact ⟨value, hm, hid, hexplicit⟩
  · rintro ⟨value, hm, hid, hexplicit⟩
    exact ⟨_, ⟨value, hm, hid, rfl⟩, hexplicit⟩

theorem mem_explicitIds {states : OrdMap String ParameterValueState} {id : ParameterId} :
    normalizeId id ∈ explicitIds states ↔ ∃ literal, explicitOf states id = some literal := by
  simp only [explicitIds, List.mem_filterMap, Option.map_eq_some_iff, explicitOf, Option.bind_eq_some_iff]
  constructor
  · rintro ⟨⟨key, state⟩, hm, literal, hliteral, rfl⟩
    exact ⟨literal, state, OrdMap.mem_entries.1 hm, hliteral⟩
  · rintro ⟨literal, state, hget, hliteral⟩
    exact ⟨(normalizeId id, state), OrdMap.mem_entries.2 hget, literal, hliteral, rfl⟩

theorem specState_eq (states : OrdMap String ParameterValueState) (spec : TypedParameterSpec) :
    specState states spec = match explicitOf states spec.id with
      | some literal => .explicit literal
      | none => .inheritProviderDefault := by
  unfold specState explicitOf
  cases states.get? (normalizeId spec.id) with
  | none => rfl
  | some state => cases state <;> rfl

section Reading

variable {values : List ParameterValue} {states : OrdMap String ParameterValueState}

mutual
/-- A condition is true in the states when the values show it. -/
theorem conditionHolds_iff (hread : ∀ id literal, explicitOf states id = some literal ↔ Gives values id literal) :
    ∀ condition : ParameterConditionExpr, conditionHolds states condition = true ↔ Shows values condition
  | .equals id value => by
    rw [conditionHolds, ← explicitOf, Option.any_eq_true]
    constructor
    · rintro ⟨actual, hactual, heq⟩
      exact .equals ((hread id actual).1 hactual) heq
    · rintro (⟨h, heq⟩)
      exact ⟨_, (hread id _).2 h, heq⟩
  | .notEquals id value => by
    rw [conditionHolds, ← explicitOf, Option.any_eq_true]
    constructor
    · rintro ⟨actual, hactual, hne⟩
      exact .notEquals ((hread id actual).1 hactual) (by simpa using hne)
    · intro h
      cases h with
      | notEquals h hne => exact ⟨_, (hread id _).2 h, by simpa using hne⟩
  | .all conditions => by
    rw [conditionHolds, allHold_iff hread conditions]
    exact ⟨.all, fun h => by cases h with | all h => exact h⟩
  | .any conditions => by
    rw [conditionHolds, anyHolds_iff hread conditions]
    exact ⟨fun ⟨_, hm, h⟩ => .any hm h, fun h => by cases h with | any hm h => exact ⟨_, hm, h⟩⟩

theorem allHold_iff (hread : ∀ id literal, explicitOf states id = some literal ↔ Gives values id literal) :
    ∀ conditions : List ParameterConditionExpr,
      allHold states conditions = true ↔ ∀ condition ∈ conditions, Shows values condition
  | [] => by simp [allHold]
  | condition :: rest => by
    rw [allHold, Bool.and_eq_true, conditionHolds_iff hread condition, allHold_iff hread rest,
      List.forall_mem_cons]

theorem anyHolds_iff (hread : ∀ id literal, explicitOf states id = some literal ↔ Gives values id literal) :
    ∀ conditions : List ParameterConditionExpr,
      anyHolds states conditions = true ↔ ∃ condition ∈ conditions, Shows values condition
  | [] => by simp [anyHolds]
  | condition :: rest => by
    rw [anyHolds, Bool.or_eq_true, conditionHolds_iff hread condition, anyHolds_iff hread rest]
    simp
end

theorem conditionIsTrue_iff (hread : ∀ id literal, explicitOf states id = some literal ↔ Gives values id literal)
    (spec : TypedParameterSpec) : conditionIsTrue spec.visibility states = true ↔ Visible values spec := by
  unfold conditionIsTrue Visible
  cases spec.visibility with
  | none => simp
  | some condition => simp [conditionHolds_iff hread]

theorem literalIssues_eq_nil {id : ParameterId} {outcome : Except String Unit} :
    literalIssues id outcome = [] ↔ outcome = .ok () := by
  cases outcome with
  | ok u => simp [literalIssues]
  | error message => simp [literalIssues]

theorem ruleIssue_eq_nil (hread : ∀ id literal, explicitOf states id = some literal ↔ Gives values id literal)
    (id : ParameterId) (rule : ParameterRule) :
    ruleIssue (explicitIds states) id rule = [] ↔ RuleHolds values rule := by
  cases rule with
  | mutuallyExclusive other messageKey =>
    rw [ruleIssue, reportIf_eq_nil, mem_explicitIds, RuleHolds, not_exists]
    simp only [hread]
  | requires other messageKey =>
    rw [ruleIssue, reportIf_eq_nil, not_not, mem_explicitIds, RuleHolds]
    simp only [hread]

/-- **What the checks of one definition say.** -/
theorem controlIssues_eq_nil (hread : ∀ id literal, explicitOf states id = some literal ↔ Gives values id literal)
    (spec : TypedParameterSpec) : controlIssues fromStr states spec = [] ↔
      (∀ literal, Gives values spec.id literal →
        validateLiteral fromStr spec.schema literal = .ok () ∧ Visible values spec) ∧
      (Visible values spec → spec.defaultMode = .explicitRequired → ∃ literal, Gives values spec.id literal) ∧
      (∀ literal, Gives values spec.id literal → ∀ rule ∈ spec.rules, RuleHolds values rule) := by
  have hvisible := conditionIsTrue_iff hread spec
  simp only [← hread spec.id]
  rw [controlIssues, List.append_eq_nil_iff, valueIssues, specState_eq]
  cases hgiven : explicitOf states spec.id with
  | none =>
    have hnot : normalizeId spec.id ∉ explicitIds states := by
      rw [mem_explicitIds, hgiven]
      simp
    simp [hvisible, hnot]
  | some literal =>
    have hmem : normalizeId spec.id ∈ explicitIds states := mem_explicitIds.2 ⟨literal, hgiven⟩
    have hrules : spec.rules.flatMap (ruleIssue (explicitIds states) spec.id) = [] ↔
        ∀ rule ∈ spec.rules, RuleHolds values rule := by
      simp only [List.flatMap_eq_nil_iff, ruleIssue_eq_nil hread]
    dsimp only
    rw [List.append_eq_nil_iff, reportIf_eq_nil, literalIssues_eq_nil, Bool.not_eq_false]
    constructor
    · rintro ⟨⟨hshown, hvalid⟩, hholds⟩
      rw [if_pos ⟨hshown, hmem⟩, hrules] at hholds
      refine ⟨fun other hother => ?_, fun _ _ => ⟨literal, rfl⟩, fun _ _ => hholds⟩
      cases hother
      exact ⟨hvalid, hvisible.1 hshown⟩
    · rintro ⟨hvalid, -, hholds⟩
      obtain ⟨hvalid, hshown⟩ := hvalid literal rfl
      rw [if_pos ⟨hvisible.2 hshown, hmem⟩, hrules]
      exact ⟨⟨hvisible.2 hshown, hvalid⟩, hholds literal rfl⟩

end Reading

/-! ## The verdict -/

theorem validateForRequest_eq_ok {values : List ParameterValue} {set : ValidatedParameterSet} :
    engine.validateForRequest fromStr values = .ok set ↔
      ∃ states, engine.collectStates values = (states, []) ∧
        (∀ spec ∈ engine.specs, controlIssues fromStr states spec = []) ∧
        set = ⟨engine.specs.filterMap (specApplied fromStr states), engine.specs.filterMap (specOmitted states)⟩ := by
  unfold ParameterEngine.validateForRequest ParameterEngine.evaluate
  dsimp only
  constructor
  · intro h
    split at h
    · rename_i hissues
      obtain ⟨hcollect, hspecs⟩ := List.append_eq_nil_iff.1 hissues
      cases h
      exact ⟨_, Prod.ext rfl hcollect, List.flatMap_eq_nil_iff.1 hspecs, rfl⟩
    · cases h
  · rintro ⟨states, hcollect, hspecs, rfl⟩
    rw [hcollect, if_pos]
    exact List.append_eq_nil_iff.2 ⟨rfl, List.flatMap_eq_nil_iff.2 hspecs⟩

/-- **Exactly the presets without fault are accepted.** -/
theorem exists_validateForRequest (hnew : ParameterEngine.new fromStr specs = .ok engine)
    (values : List ParameterValue) :
    (∃ set, engine.validateForRequest fromStr values = .ok set) ↔ Admissible fromStr engine values := by
  have hknown := (new_eq_ok hnew).2
  simp only [validateForRequest_eq_ok]
  constructor
  · rintro ⟨-, states, hcollect, hspecs, -⟩
    have hcontrol := fun spec hm => (controlIssues_eq_nil (explicitOf_collected hcollect) spec).1 (hspecs spec hm)
    obtain ⟨hindexed, hnodup, -⟩ := collectStates_eq.1 hcollect
    exact {
      known := fun value hm => (hknown _).1 (hindexed value hm)
      distinct := hnodup
      literals := fun spec hm => (hcontrol spec hm).1
      required := fun spec hm => (hcontrol spec hm).2.1
      rules := fun spec hm => (hcontrol spec hm).2.2 }
  · intro h
    have hindexed : ∀ value ∈ values, engine.indices.contains (normalizeId value.parameterId) = true :=
      fun value hm => (hknown _).2 (h.known value hm)
    have hcollect := collectStates_eq.2 ⟨hindexed, h.distinct, rfl⟩
    refine ⟨_, _, hcollect, fun spec hm => ?_, rfl⟩
    exact (controlIssues_eq_nil (explicitOf_collected hcollect) spec).2
      ⟨h.literals spec hm, h.required spec hm, h.rules spec hm⟩

/-! ## The set -/

section Set

variable {α β γ δ : Type}

/-- What is selected of the items, by their names. -/
theorem map_filterMap_map {g : α → Option β} {make : α → β → γ} {name : γ → δ} {name' : α → δ}
    (hname : ∀ a b, name (make a b) = name' a) (l : List α) :
    (l.filterMap fun a => (g a).map (make a)).map name = (l.filter fun a => (g a).isSome).map name' := by
  induction l with
  | nil => rfl
  | cons a l ih =>
    cases hg : g a with
    | none => simp [hg, ih]
    | some b => simp [hg, ih, hname]

/-- What is left of the items, by their names. -/
theorem filterMap_none {g : α → Option β} {name : α → δ} (l : List α) :
    (l.filterMap fun a => if (g a).isSome then none else some (name a)) =
      (l.filter fun a => !(g a).isSome).map name := by
  induction l with
  | nil => rfl
  | cons a l ih =>
    cases hg : g a with
    | none => simp [hg, ih]
    | some b => simp [hg, ih]

end Set

theorem specOmitted_eq (states : OrdMap String ParameterValueState) (spec : TypedParameterSpec) :
    specOmitted states spec = if (explicitOf states spec.id).isSome then none else some spec.id := by
  rw [specOmitted, specState_eq]
  cases explicitOf states spec.id <;> rfl

/-- Without fault, the explicit value of a definition is applied. -/
theorem specApplied_eq {values : List ParameterValue} {states : OrdMap String ParameterValueState}
    (hread : ∀ id literal, explicitOf states id = some literal ↔ Gives values id literal)
    {spec : TypedParameterSpec} (h : controlIssues fromStr states spec = []) :
    specApplied fromStr states spec = (explicitOf states spec.id).map (⟨spec.id, spec.providerMapping, ·⟩) := by
  obtain ⟨hliteral, -, -⟩ := (controlIssues_eq_nil hread spec).1 h
  rw [specApplied, specState_eq]
  cases hgiven : explicitOf states spec.id with
  | none => rfl
  | some literal =>
    obtain ⟨hvalid, hvisible⟩ := hliteral literal ((hread spec.id literal).1 hgiven)
    dsimp only
    rw [hvalid, (conditionIsTrue_iff hread spec).2 hvisible]
    rfl

/-- **What an accepted set holds.** -/
theorem closed_of_validateForRequest (hnew : ParameterEngine.new fromStr specs = .ok engine)
    {values : List ParameterValue} {set : ValidatedParameterSet}
    (h : engine.validateForRequest fromStr values = .ok set) : Closed engine values set := by
  have hadmissible := (exists_validateForRequest hnew values).1 ⟨set, h⟩
  obtain ⟨states, hcollect, hspecs, rfl⟩ := validateForRequest_eq_ok.1 h
  have hread := explicitOf_collected hcollect
  have happlied : engine.specs.filterMap (specApplied fromStr states) = engine.specs.filterMap fun spec =>
      (explicitOf states spec.id).map (⟨spec.id, spec.providerMapping, ·⟩) :=
    List.filterMap_congr fun spec hm => specApplied_eq hread (hspecs spec hm)
  have homitted : engine.specs.filterMap (specOmitted states) =
      (engine.specs.filter fun spec => !(explicitOf states spec.id).isSome).map (·.id) := by
    rw [← filterMap_none]
    exact List.filterMap_congr fun spec _ => specOmitted_eq states spec
  have hnames : (engine.specs.filterMap (specApplied fromStr states)).map (·.parameterId) =
      (engine.specs.filter fun spec => (explicitOf states spec.id).isSome).map (·.id) := by
    have hname : ∀ (spec : TypedParameterSpec) (literal : ParameterLiteral),
        (AppliedParameter.mk spec.id spec.providerMapping literal).parameterId = spec.id := fun _ _ => rfl
    rw [happlied]
    exact map_filterMap_map hname engine.specs
  have hmem : ∀ parameter, parameter ∈ engine.specs.filterMap (specApplied fromStr states) ↔
      ∃ spec ∈ engine.specs, parameter.parameterId = spec.id ∧ parameter.mapping = spec.providerMapping ∧
        Gives values spec.id parameter.value := by
    intro parameter
    rw [happlied, List.mem_filterMap]
    simp only [Option.map_eq_some_iff, hread]
    constructor
    · rintro ⟨spec, hm, literal, hgives, rfl⟩
      exact ⟨spec, hm, rfl, rfl, hgives⟩
    · rintro ⟨spec, hm, hid, hmapping, hgives⟩
      refine ⟨spec, hm, parameter.value, hgives, ?_⟩
      rw [← hid, ← hmapping]
  -- a definition whose identifier is applied has an explicit value
  have hgiven : ∀ spec ∈ engine.specs,
      spec.id ∈ (engine.specs.filterMap (specApplied fromStr states)).map (·.parameterId) →
      ∃ literal, Gives values spec.id literal := by
    intro spec hm hid
    obtain ⟨parameter, hparameter, hid⟩ := List.mem_map.1 hid
    obtain ⟨other, -, hother, -, hgives⟩ := (hmem parameter).1 hparameter
    rw [← hother, hid] at hgives
    exact ⟨parameter.value, hgives⟩
  refine ⟨?_, hmem, ?_, (new_eq_ok hnew).1, ?_, ?_⟩
  · rw [hnames]
    exact List.filter_sublist.map _
  · rw [hnames, homitted, ← List.map_append]
    exact (List.filter_append_perm _ _).map _
  · intro spec hm hid other messageKey hrule parameter hparameter heq
    obtain ⟨literal, hgives⟩ := hgiven spec hm hid
    have hholds := hadmissible.rules spec hm literal hgives _ hrule
    obtain ⟨target, -, htarget, -, hvalue⟩ := (hmem parameter).1 hparameter
    obtain ⟨value, hvalue, hid, hstate⟩ := hvalue
    exact hholds parameter.value ⟨value, hvalue, by rw [hid, ← htarget, heq], hstate⟩
  · intro spec hm hid other messageKey hrule
    obtain ⟨literal, hgives⟩ := hgiven spec hm hid
    obtain ⟨actual, value, hvalue, hid, hstate⟩ := hadmissible.rules spec hm literal hgives _ hrule
    obtain ⟨target, htarget, hsame⟩ := hadmissible.known value hvalue
    refine ⟨⟨target.id, target.providerMapping, actual⟩, (hmem _).2 ⟨target, htarget, rfl, rfl, ?_⟩, ?_⟩
    · exact ⟨value, hvalue, hsame.symm, hstate⟩
    · exact hsame.trans hid

/-! ## Order and defaults -/

/-- **The result depends only on what is given explicitly**, where the identifiers are known and distinct. -/
theorem validateForRequest_of_gives {values values' : List ParameterValue} {set : ValidatedParameterSet}
    (hgives : ∀ id literal, Gives values id literal ↔ Gives values' id literal)
    (hknown : ∀ value ∈ values', engine.indices.contains (normalizeId value.parameterId) = true)
    (hdistinct : (values'.map fun value => normalizeId value.parameterId).Nodup)
    (h : engine.validateForRequest fromStr values = .ok set) :
    engine.validateForRequest fromStr values' = .ok set := by
  obtain ⟨states, hcollect, hspecs, rfl⟩ := validateForRequest_eq_ok.1 h
  have hread := explicitOf_collected hcollect
  obtain ⟨states', hcollect'⟩ : ∃ states', engine.collectStates values' = (states', []) :=
    ⟨_, collectStates_eq.2 ⟨hknown, hdistinct, rfl⟩⟩
  have hread' : ∀ id literal, explicitOf states' id = some literal ↔ Gives values id literal := fun id literal =>
    (explicitOf_collected hcollect' id literal).trans (hgives id literal).symm
  have hcontrol := fun spec hm => (controlIssues_eq_nil hread' spec).2
    ((controlIssues_eq_nil hread spec).1 (hspecs spec hm))
  refine validateForRequest_eq_ok.2 ⟨_, hcollect', hcontrol, ?_⟩
  have hexplicit : ∀ id, explicitOf states id = explicitOf states' id := fun id =>
    Option.ext fun literal => (hread id literal).trans (hread' id literal).symm
  have happlied : ∀ spec ∈ engine.specs, specApplied fromStr states spec = specApplied fromStr states' spec :=
    fun spec hm => by
      rw [specApplied_eq hread (hspecs spec hm), specApplied_eq hread' (hcontrol spec hm), hexplicit]
  have homitted : ∀ spec ∈ engine.specs, specOmitted states spec = specOmitted states' spec :=
    fun spec _ => by rw [specOmitted_eq, specOmitted_eq, hexplicit]
  rw [List.filterMap_congr happlied, List.filterMap_congr homitted]

theorem gives_perm {values values' : List ParameterValue} (h : values.Perm values') (id : ParameterId)
    (literal : ParameterLiteral) : Gives values id literal ↔ Gives values' id literal := by
  simp only [Gives, h.mem_iff]

/-- The order of the values is irrelevant. -/
theorem validateForRequest_perm {values values' : List ParameterValue} {set : ValidatedParameterSet}
    (hperm : values.Perm values') : engine.validateForRequest fromStr values = .ok set ↔
      engine.validateForRequest fromStr values' = .ok set := by
  have hone : ∀ {values values' : List ParameterValue}, values.Perm values' →
      engine.validateForRequest fromStr values = .ok set →
      engine.validateForRequest fromStr values' = .ok set := by
    intro values values' hperm h
    obtain ⟨states, hcollect, -⟩ := validateForRequest_eq_ok.1 h
    obtain ⟨hknown, hdistinct, -⟩ := collectStates_eq.1 hcollect
    exact validateForRequest_of_gives (gives_perm hperm) (fun value hm => hknown value (hperm.mem_iff.2 hm))
      ((hperm.map _).nodup_iff.1 hdistinct) h
  exact ⟨hone hperm, hone hperm.symm⟩

theorem gives_append_inherits {values entries : List ParameterValue} (h : Inherits engine values entries)
    (id : ParameterId) (literal : ParameterLiteral) :
    Gives (entries ++ values) id literal ↔ Gives values id literal := by
  constructor
  · rintro ⟨value, hm, hid, hstate⟩
    rcases List.mem_append.1 hm with hm | hm
    · rw [h.state value hm] at hstate
      cases hstate
    · exact ⟨value, hm, hid, hstate⟩
  · rintro ⟨value, hm, hid, hstate⟩
    exact ⟨value, List.mem_append_right entries hm, hid, hstate⟩

/-- Entries that inherit are irrelevant. -/
theorem validateForRequest_inherits (hnew : ParameterEngine.new fromStr specs = .ok engine)
    {values entries : List ParameterValue} {set : ValidatedParameterSet} (h : Inherits engine values entries) :
    engine.validateForRequest fromStr (entries ++ values) = .ok set ↔
      engine.validateForRequest fromStr values = .ok set := by
  have hindexed := (new_eq_ok hnew).2
  constructor
  · intro hset
    obtain ⟨states, hcollect, -⟩ := validateForRequest_eq_ok.1 hset
    obtain ⟨hknown, hdistinct, -⟩ := collectStates_eq.1 hcollect
    rw [List.map_append] at hdistinct
    exact validateForRequest_of_gives (gives_append_inherits h)
      (fun value hm => hknown value (List.mem_append_right entries hm)) (List.nodup_append.1 hdistinct).2.1 hset
  · intro hset
    obtain ⟨states, hcollect, -⟩ := validateForRequest_eq_ok.1 hset
    obtain ⟨hknown, hdistinct, -⟩ := collectStates_eq.1 hcollect
    refine validateForRequest_of_gives (fun id literal => (gives_append_inherits h id literal).symm) ?_ ?_ hset
    · intro value hm
      rcases List.mem_append.1 hm with hm | hm
      · exact (hindexed _).2 (h.known value hm)
      · exact hknown value hm
    · rw [List.map_append, List.nodup_append]
      refine ⟨h.distinct, hdistinct, fun key hkey key' hkey' heq => ?_⟩
      obtain ⟨entry, hentry, rfl⟩ := List.mem_map.1 hkey
      obtain ⟨value, hvalue, rfl⟩ := List.mem_map.1 hkey'
      exact h.unmentioned entry hentry value hvalue heq

/-- **Validated presets are closed under their rules, and their order is free.** An accepted engine accepts exactly
the presets without fault; the set lists the explicit values in the order of the definitions and is closed under
the rules; permuting the values, and adding or removing entries that inherit, change neither verdict nor set. -/
theorem validateForRequest_closed (hnew : ParameterEngine.new fromStr specs = .ok engine)
    (values : List ParameterValue) :
    ((∃ set, engine.validateForRequest fromStr values = .ok set) ↔ Admissible fromStr engine values) ∧
      (∀ set, engine.validateForRequest fromStr values = .ok set → Closed engine values set) ∧
      (∀ values' set, values.Perm values' → (engine.validateForRequest fromStr values = .ok set ↔
        engine.validateForRequest fromStr values' = .ok set)) ∧
      ∀ entries set, Inherits engine values entries →
        (engine.validateForRequest fromStr (entries ++ values) = .ok set ↔
          engine.validateForRequest fromStr values = .ok set) :=
  ⟨exists_validateForRequest hnew values, fun _ h => closed_of_validateForRequest hnew h,
    fun _ _ hperm => validateForRequest_perm hperm, fun _ _ h => validateForRequest_inherits hnew h⟩

/-! ## A coffee machine -/

def brewSpec (id field : String) (schema : ParameterSchema) (visibility : Option ParameterConditionExpr)
    (rules : List ParameterRule) : TypedParameterSpec :=
  { id, labelKey := "label", descriptionKey := none, schema, defaultMode := .providerDefault, visibility, rules
    providerMapping := ⟨.requestBody, field⟩, level := .basic }

/-- The strength steps by a half up to two; the beans show for a rich brew, which they require, and exclude
decaf. -/
def brewSpecs : List TypedParameterSpec :=
  [brewSpec "strength" "cup.strength"
      (.number (some zero) (some (Ieee.ofFields false 1024 0)) (some (Ieee.ofFields false 1022 0)) []) none [],
    brewSpec "mode" "cup.mode" (.enum [⟨"mild", "mild"⟩, ⟨"rich", "rich"⟩]) none [],
    brewSpec "beans" "cup.beans" (.integer (some 1) (some 10) none []) (some (.equals "Mode" (.enum "rich")))
      [.requires "MODE" "needs-mode", .mutuallyExclusive "decaf" "no-decaf"],
    brewSpec "decaf" "cup.decaf" .boolean none []]

def brewValues : List ParameterValue :=
  [⟨"Beans", .explicit (.integer 4)⟩, ⟨"decaf", .inheritProviderDefault⟩, ⟨"MODE", .explicit (.enum "rich")⟩,
    ⟨"strength", .explicit (.number (Ieee.ofFields false 1023 (2 ^ 51)))⟩]

theorem exists_brewEngine : ∃ engine, ParameterEngine.new (fun _ => none) brewSpecs = .ok engine :=
  exists_ok (by decide +kernel)

theorem brewEngine_closed : ∃ engine, ParameterEngine.new (fun _ => none) brewSpecs = .ok engine ∧
    ((∃ set, engine.validateForRequest (fun _ => none) brewValues = .ok set) ↔
      Admissible (fun _ => none) engine brewValues) ∧
      (∀ set, engine.validateForRequest (fun _ => none) brewValues = .ok set → Closed engine brewValues set) ∧
      (∀ values' set, brewValues.Perm values' →
        (engine.validateForRequest (fun _ => none) brewValues = .ok set ↔
          engine.validateForRequest (fun _ => none) values' = .ok set)) ∧
      ∀ entries set, Inherits engine brewValues entries →
        (engine.validateForRequest (fun _ => none) (entries ++ brewValues) = .ok set ↔
          engine.validateForRequest (fun _ => none) brewValues = .ok set) := by
  obtain ⟨engine, hnew⟩ := exists_brewEngine
  exact ⟨engine, hnew, validateForRequest_closed hnew brewValues⟩

/-- The brew is accepted, and the set lists the values in the order of the definitions. -/
example : ((ParameterEngine.new (fun _ => none) brewSpecs).toOption.bind fun engine =>
    ((engine.validateForRequest (fun _ => none) brewValues).toOption.map fun set =>
      (set.applied.map (·.parameterId), set.omittedProviderDefaults))) =
    some (["strength", "mode", "beans"], ["decaf"]) := by
  decide +kernel

end ParameterMapping

end LorePia
