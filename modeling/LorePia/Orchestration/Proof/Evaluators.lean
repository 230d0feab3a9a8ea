import LorePia.Orchestration.Interaction
import LorePia.Orchestration.Proof.Roles

/-!
# The condition evaluators and template renderers agree

Conditions have three evaluators. `evaluate_condition_validated` refuses missing variables and mistyped ones,
`evaluate_condition_inner` only mistyped ones, and the knowledge engine refuses nothing: what the first
accepts the second accepts with the same verdict, and so on to the third, where thresholds and decimals are
finite. Templates have two renderers: one renders a nested template in a buffer of its own, the other into the
shared buffer. Where both succeed the second appends what the first returns, at every nesting level
(`renderedTemplates`).
-/

namespace LorePia

open Base

variable {vars : VariableMap} {capabilities : List CapabilityKey}

/-! ## From the template evaluator to the interaction engine's -/

theorem requireVariable_eq_ok {v : VariableRef} {value : VariableValue} :
    requireVariable vars v = .ok value ↔ vars.get v = some value := okOr_eq_ok

mutual
/-- What the template evaluator accepts, the interaction engine accepts with the same verdict. -/
theorem evaluateConditionInner_of_validated : ∀ {expression : ConditionExpr} {b : Bool},
    evaluateConditionValidated vars capabilities expression = .ok b →
      evaluateConditionInner vars capabilities expression = .ok b
  | .true, _, h | .false, _, h | .existsVar _, _, h | .modelSupports _, _, h => by
    cases h
    rfl
  | .equals v value, b, h => by
    obtain ⟨current, hcurrent, h⟩ := bind_eq_ok.1 h
    cases h
    rw [evaluateConditionInner, requireVariable_eq_ok.1 hcurrent, Option.any_some]
  | .notEquals v value, b, h => by
    obtain ⟨current, hcurrent, h⟩ := bind_eq_ok.1 h
    cases h
    rw [evaluateConditionInner, requireVariable_eq_ok.1 hcurrent, Option.any_some]
  | .greaterThan v value, b, h => by
    obtain ⟨current, hcurrent, h⟩ := bind_eq_ok.1 h
    obtain ⟨actual, hactual, h⟩ := bind_eq_ok.1 h
    cases h
    rw [evaluateConditionInner, requireVariable_eq_ok.1 hcurrent]
    cases current with
    | integer current =>
      cases hactual
      rfl
    | decimal current =>
      cases hactual
      rfl
    | bool | text | enum | stringList => cases hactual
  | .contains v value, b, h => by
    obtain ⟨current, hcurrent, h⟩ := bind_eq_ok.1 h
    rw [evaluateConditionInner, requireVariable_eq_ok.1 hcurrent]
    cases current with
    | text current | enum current | stringList current =>
      cases h
      rfl
    | bool | integer | decimal => cases h
  | .all expressions, _, h => evaluateAllInner_of_validated h
  | .any expressions, _, h => evaluateAnyInner_of_validated h
  | .not expression, b, h => by
    obtain ⟨verdict, hverdict, h⟩ := bind_eq_ok.1 h
    cases h
    rw [evaluateConditionInner, evaluateConditionInner_of_validated hverdict]
    rfl

theorem evaluateAllInner_of_validated : ∀ {expressions : List ConditionExpr} {b : Bool},
    evaluateAll vars capabilities expressions = .ok b →
      evaluateAllInner vars capabilities expressions = .ok b
  | [], _, h => by
    cases h
    rfl
  | expression :: rest, b, h => by
    obtain ⟨verdict, hverdict, h⟩ := bind_eq_ok.1 h
    rw [evaluateAllInner, evaluateConditionInner_of_validated hverdict, ok_bind]
    cases verdict with
    | false =>
      cases h
      rfl
    | true => exact evaluateAllInner_of_validated h

theorem evaluateAnyInner_of_validated : ∀ {expressions : List ConditionExpr} {b : Bool},
    evaluateAny vars capabilities expressions = .ok b →
      evaluateAnyInner vars capabilities expressions = .ok b
  | [], _, h => by
    cases h
    rfl
  | expression :: rest, b, h => by
    obtain ⟨verdict, hverdict, h⟩ := bind_eq_ok.1 h
    rw [evaluateAnyInner, evaluateConditionInner_of_validated hverdict, ok_bind]
    cases verdict with
    | false => exact evaluateAnyInner_of_validated h
    | true =>
      cases h
      rfl
end

/-! ## From the interaction engine's evaluator to the knowledge engine's -/

/-- Every decimal of the map is finite. -/
def VariableMap.FiniteDecimals (vars : VariableMap) : Prop :=
  ∀ binding ∈ vars.values, ∀ value, binding.value = .decimal value → value.isFinite = true

theorem VariableMap.FiniteDecimals.get (h : vars.FiniteDecimals) {v : VariableRef} {value : F64}
    (hget : vars.get v = some (.decimal value)) : value.isFinite = true := by
  obtain ⟨binding, hfind, hvalue⟩ := Option.map_eq_some_iff.1 hget
  exact h binding (List.mem_of_find?_eq_some hfind) value hvalue

mutual
/-- What the interaction engine accepts of a valid condition, the knowledge engine decides the same way. -/
theorem evaluateKnowledgeCondition_of_inner (hfinite : vars.FiniteDecimals) :
    ∀ {expression : ConditionExpr} {b : Bool} {path : String} {depth nodes total : Nat}, visitCondition expression path depth nodes = .ok total →
    evaluateConditionInner vars capabilities expression = .ok b →
      evaluateKnowledgeCondition vars capabilities expression = b
  | .true, _, _, _, _, _, _, h | .false, _, _, _, _, _, _, h | .existsVar _, _, _, _, _, _, _, h
  | .modelSupports _, _, _, _, _, _, _, h | .equals _ _, _, _, _, _, _, _, h
  | .notEquals _ _, _, _, _, _, _, _, h => by
    cases h
    rfl
  | .greaterThan v value, b, _, _, _, _, hvalid, h => by
    unfold visitCondition at hvalid
    obtain ⟨-, hvalid⟩ := seq_eq_ok.1 hvalid
    obtain ⟨-, hvalid⟩ := seq_eq_ok.1 hvalid
    obtain ⟨-, hvalid⟩ := seq_eq_ok.1 hvalid
    obtain ⟨hthreshold, -⟩ := seq_eq_ok.1 hvalid
    rw [rejectIf_eq_ok, not_not] at hthreshold
    rw [evaluateConditionInner] at h
    rw [evaluateKnowledgeCondition, hthreshold, Bool.true_and]
    cases hget : vars.get v with
    | none =>
      rw [hget] at h
      cases h
      rfl
    | some current =>
      rw [hget] at h
      cases current with
      | integer current =>
        cases h
        rfl
      | decimal current =>
        cases h
        show (current.isFinite && value.lt current) = value.lt current
        rw [hfinite.get hget, Bool.true_and]
      | bool | text | enum | stringList => cases h
  | .contains v value, b, _, _, _, _, _, h => by
    rw [evaluateConditionInner] at h
    rw [evaluateKnowledgeCondition]
    cases hget : vars.get v with
    | none =>
      rw [hget] at h
      cases h
      rfl
    | some current =>
      rw [hget] at h
      cases current with
      | text current | enum current | stringList current =>
        cases h
        rfl
      | bool | integer | decimal => cases h
  | .all expressions, b, _, _, _, _, hvalid, h => by
    unfold visitCondition at hvalid
    obtain ⟨-, hvalid⟩ := seq_eq_ok.1 hvalid
    obtain ⟨-, hvalid⟩ := seq_eq_ok.1 hvalid
    obtain ⟨-, hvalid⟩ := seq_eq_ok.1 hvalid
    exact evaluateKnowledgeAll_of_inner hfinite hvalid h
  | .any expressions, b, _, _, _, _, hvalid, h => by
    unfold visitCondition at hvalid
    obtain ⟨-, hvalid⟩ := seq_eq_ok.1 hvalid
    obtain ⟨-, hvalid⟩ := seq_eq_ok.1 hvalid
    obtain ⟨-, hvalid⟩ := seq_eq_ok.1 hvalid
    exact evaluateKnowledgeAny_of_inner hfinite hvalid h
  | .not expression, b, _, _, _, _, hvalid, h => by
    unfold visitCondition at hvalid
    obtain ⟨-, hvalid⟩ := seq_eq_ok.1 hvalid
    obtain ⟨-, hvalid⟩ := seq_eq_ok.1 hvalid
    obtain ⟨verdict, hverdict, h⟩ := bind_eq_ok.1 h
    cases h
    rw [evaluateKnowledgeCondition, evaluateKnowledgeCondition_of_inner hfinite hvalid hverdict]

theorem evaluateKnowledgeAll_of_inner (hfinite : vars.FiniteDecimals) :
    ∀ {expressions : List ConditionExpr} {b : Bool} {path : String} {depth index nodes total : Nat}, visitConditions expressions path depth index nodes = .ok total →
    evaluateAllInner vars capabilities expressions = .ok b →
      evaluateKnowledgeAll vars capabilities expressions = b
  | [], _, _, _, _, _, _, _, h => by
    cases h
    rfl
  | expression :: rest, b, _, _, _, _, _, hvalid, h => by
    unfold visitConditions at hvalid
    obtain ⟨nodes, hchild, hrest⟩ := bind_eq_ok.1 hvalid
    obtain ⟨verdict, hverdict, h⟩ := bind_eq_ok.1 h
    rw [evaluateKnowledgeAll, evaluateKnowledgeCondition_of_inner hfinite hchild hverdict]
    cases verdict with
    | false =>
      cases h
      rfl
    | true => exact evaluateKnowledgeAll_of_inner hfinite hrest h

theorem evaluateKnowledgeAny_of_inner (hfinite : vars.FiniteDecimals) :
    ∀ {expressions : List ConditionExpr} {b : Bool} {path : String} {depth index nodes total : Nat}, visitConditions expressions path depth index nodes = .ok total →
    evaluateAnyInner vars capabilities expressions = .ok b →
      evaluateKnowledgeAny vars capabilities expressions = b
  | [], _, _, _, _, _, _, _, h => by
    cases h
    rfl
  | expression :: rest, b, _, _, _, _, _, hvalid, h => by
    unfold visitConditions at hvalid
    obtain ⟨nodes, hchild, hrest⟩ := bind_eq_ok.1 hvalid
    obtain ⟨verdict, hverdict, h⟩ := bind_eq_ok.1 h
    rw [evaluateKnowledgeAny, evaluateKnowledgeCondition_of_inner hfinite hchild hverdict]
    cases verdict with
    | false => exact evaluateKnowledgeAny_of_inner hfinite hrest h
    | true =>
      cases h
      rfl
end

/-! ## Nested templates -/

section
variable (env : TemplateEnvironment)

mutual
/-- The templates that a rendering visits: the template itself and the nested ones that are selected. -/
def renderedTemplates : SafeTemplate → List SafeTemplate
  | ⟨parts, maxOutputChars⟩ => ⟨parts, maxOutputChars⟩ :: renderedInParts parts

def renderedInParts : List TemplatePart → List SafeTemplate
  | [] => []
  | part :: rest => renderedInPart part ++ renderedInParts rest

def renderedInPart : TemplatePart → List SafeTemplate
  | .conditional condition thenTemplate elseTemplate =>
    match evaluateConditionValidated env.vars env.capabilities condition with
    | .ok true => renderedTemplates thenTemplate
    | .ok false => renderedInElse elseTemplate
    | .error _ => []
  | .text _ | .varRef _ | .builtIn _ | .slot _ | .join _ _ => []

def renderedInElse : Option SafeTemplate → List SafeTemplate
  | none => []
  | some elseTemplate => renderedTemplates elseTemplate
end

end

/-! ## The renderers -/

/-- The counter is the length of the text, within the limit. -/
structure RenderOutput.Fits (output : RenderOutput) (limit : Nat) : Prop where
  chars : output.chars = output.text.length
  le : output.text.length ≤ limit

theorem appendBounded_eq_ok {limit : Nat} {output output' : RenderOutput} {value : String}
    (h : appendBounded limit output value = .ok output') :
    output' = ⟨output.text ++ value, output.chars + value.length⟩ ∧ output.chars + value.length ≤ limit := by
  obtain ⟨count, hcount, h⟩ := bind_eq_ok.1 h
  obtain ⟨hlimit, h⟩ := seq_eq_ok.1 h
  rw [okOr_eq_ok, checkedAdd_eq_some] at hcount
  rw [rejectIf_eq_ok, not_lt] at hlimit
  obtain ⟨-, rfl⟩ := hcount
  cases h
  exact ⟨rfl, hlimit⟩

theorem RenderOutput.Fits.append {limit : Nat} {output output' : RenderOutput} {value : String}
    (hfits : output.Fits limit) (h : appendBounded limit output value = .ok output') :
    output'.Fits limit ∧ output'.text = output.text ++ value := by
  obtain ⟨rfl, hle⟩ := appendBounded_eq_ok h
  rw [hfits.chars, ← String.length_append] at hle
  exact ⟨⟨by rw [hfits.chars, String.length_append], hle⟩, rfl⟩

/-- The values of a `Join` part, with the separator before all but the first. -/
theorem joinInto_eq_ok {limits : InteractionLimits} {limit start templateLimit : Nat} {separator before : String} :
    ∀ {values : List String} {index : Nat} {output output' : RenderOutput} {buffer : String},
      output.Fits limit → renderJoin limit separator index values output = .ok output' →
      joinInto limits start templateLimit separator index values (before ++ output.text) = .ok buffer →
        output'.Fits limit ∧ buffer = before ++ output'.text
  | [], _, output, output', buffer, hfits, h, hinto => by
    cases h
    cases hinto
    exact ⟨hfits, rfl⟩
  | value :: rest, index, output, output', buffer, hfits, h, hinto => by
    obtain ⟨-, hinto⟩ := seq_eq_ok.1 hinto
    rw [renderJoin] at h
    -- both write the separator or neither does
    have hboth : ∃ separated appended : RenderOutput, separated.Fits limit ∧
        (if index > 0 then before ++ output.text ++ separator else before ++ output.text) =
          before ++ separated.text ∧ appendBounded limit separated value = .ok appended ∧
            renderJoin limit separator (index + 1) rest appended = .ok output' := by
      by_cases hindex : index > 0
      · rw [if_pos hindex] at h
        obtain ⟨separated, hseparated, h⟩ := bind_eq_ok.1 h
        obtain ⟨appended, happended, h⟩ := bind_eq_ok.1 h
        obtain ⟨hseparatedFits, htext⟩ := hfits.append hseparated
        rw [if_pos hindex, String.append_assoc, ← htext]
        exact ⟨separated, appended, hseparatedFits, rfl, happended, h⟩
      · rw [if_neg hindex, ok_bind] at h
        obtain ⟨appended, happended, h⟩ := bind_eq_ok.1 h
        rw [if_neg hindex]
        exact ⟨output, appended, hfits, rfl, happended, h⟩
    obtain ⟨separated, appended, hseparatedFits, hbefore, happended, h⟩ := hboth
    obtain ⟨happendedFits, htext⟩ := hseparatedFits.append happended
    rw [hbefore, String.append_assoc, ← htext] at hinto
    exact joinInto_eq_ok happendedFits h hinto

section
variable {lib : Externals} {env : TemplateEnvironment} {context : InteractionContext}
variable {limits : InteractionLimits}

/-- The two renderers read the same capabilities and built-in values. -/
structure SameInputs (env : TemplateEnvironment) (context : InteractionContext) : Prop where
  capabilities : context.modelCapabilities = env.capabilities
  builtIns : ∀ value text, context.templateValues.builtIn value = some text → builtInValue env value = text

/-- Both renderers produce one text for the template, within its limit. -/
def RendersAlike (lib : Externals) (env : TemplateEnvironment) (context : InteractionContext)
    (limits : InteractionLimits) (template : SafeTemplate) : Prop :=
  ∃ text before, renderValidated lib env template = .ok text ∧
    renderTemplateInto lib env.vars context limits template before = .ok (before ++ text) ∧
      text.length ≤ template.maxOutputChars.toNat

mutual
/-- Where both renderers succeed, the second appends the text of the first, at every nesting level. -/
theorem renderTemplateInto_of_validated (hsame : SameInputs env context) :
    ∀ {template : SafeTemplate} {text before buffer : String},
      renderValidated lib env template = .ok text →
      renderTemplateInto lib env.vars context limits template before = .ok buffer →
        buffer = before ++ text ∧
          ∀ nested ∈ renderedTemplates env template, RendersAlike lib env context limits nested
  | ⟨parts, maxOutputChars⟩, text, before, buffer, h, hinto => by
    have hrendered := h
    have hrenderedInto := hinto
    obtain ⟨output, houtput, h⟩ := bind_eq_ok.1 h
    cases h
    have hfits : RenderOutput.Fits ⟨"", 0⟩ maxOutputChars.toNat := ⟨rfl, Nat.zero_le _⟩
    have hstart : before = before ++ "" := String.append_empty.symm
    rw [renderTemplateInto, hstart] at hinto
    obtain ⟨houtputFits, rfl, hnested⟩ := renderPartsInto_of_validated hsame hfits houtput hinto
    refine ⟨rfl, fun nested hmem => ?_⟩
    rw [renderedTemplates] at hmem
    rcases List.mem_cons.1 hmem with rfl | hmem
    · exact ⟨output.text, before, hrendered, hrenderedInto, houtputFits.le⟩
    · exact hnested nested hmem

theorem renderPartsInto_of_validated (hsame : SameInputs env context) :
    ∀ {parts : List TemplatePart} {limit start templateLimit : Nat} {output output' : RenderOutput}
      {before buffer : String}, output.Fits limit → renderParts lib env limit parts output = .ok output' →
      renderPartsInto lib env.vars context limits start templateLimit parts (before ++ output.text) =
        .ok buffer →
        output'.Fits limit ∧ buffer = before ++ output'.text ∧
          ∀ nested ∈ renderedInParts env parts, RendersAlike lib env context limits nested
  | [], _, _, _, _, _, _, _, hfits, h, hinto => by
    cases h
    cases hinto
    exact ⟨hfits, rfl, fun _ hmem => absurd hmem List.not_mem_nil⟩
  | part :: rest, _, _, _, _, _, _, _, hfits, h, hinto => by
    obtain ⟨middle, hmiddle, h⟩ := bind_eq_ok.1 h
    obtain ⟨shared, hshared, hinto⟩ := bind_eq_ok.1 hinto
    obtain ⟨-, hinto⟩ := seq_eq_ok.1 hinto
    obtain ⟨hmiddleFits, rfl, hpart⟩ := renderPartInto_of_validated hsame hfits hmiddle hshared
    obtain ⟨hfinalFits, hbuffer, hrest⟩ := renderPartsInto_of_validated hsame hmiddleFits h hinto
    refine ⟨hfinalFits, hbuffer, fun nested hmem => ?_⟩
    rw [renderedInParts] at hmem
    exact (List.mem_append.1 hmem).elim (hpart nested) (hrest nested)

theorem renderPartInto_of_validated (hsame : SameInputs env context) :
    ∀ {part : TemplatePart} {limit start templateLimit : Nat} {output output' : RenderOutput}
      {before buffer : String}, output.Fits limit → renderPart lib env limit part output = .ok output' →
      renderPartInto lib env.vars context limits start templateLimit part (before ++ output.text) =
        .ok buffer →
        output'.Fits limit ∧ buffer = before ++ output'.text ∧
          ∀ nested ∈ renderedInPart env part, RendersAlike lib env context limits nested
  | .text value, _, _, _, _, _, _, _, hfits, h, hinto => by
    obtain ⟨hfits', htext⟩ := hfits.append h
    cases hinto
    rw [htext, String.append_assoc]
    exact ⟨hfits', rfl, fun _ hmem => absurd hmem List.not_mem_nil⟩
  | .varRef v, _, _, _, _, _, _, _, hfits, h, hinto => by
    obtain ⟨value, hvalue, h⟩ := bind_eq_ok.1 h
    obtain ⟨shared, hshared, hinto⟩ := bind_eq_ok.1 hinto
    rw [requireVariable_eq_ok] at hvalue
    rw [okOr_eq_ok, hvalue] at hshared
    cases hshared
    cases hinto
    obtain ⟨hfits', htext⟩ := hfits.append h
    rw [htext, String.append_assoc]
    exact ⟨hfits', rfl, fun _ hmem => absurd hmem List.not_mem_nil⟩
  | .builtIn value, _, _, _, _, _, _, _, hfits, h, hinto => by
    obtain ⟨shared, hshared, hinto⟩ := bind_eq_ok.1 hinto
    cases hinto
    obtain ⟨hfits', htext⟩ := hfits.append h
    rw [htext, hsame.builtIns value shared (okOr_eq_ok.1 hshared), String.append_assoc]
    exact ⟨hfits', rfl, fun _ hmem => absurd hmem List.not_mem_nil⟩
  | .slot _, _, _, _, _, _, _, _, _, _, hinto => nomatch hinto
  | .join v separator, _, _, _, _, _, _, _, hfits, h, hinto => by
    obtain ⟨value, hvalue, h⟩ := bind_eq_ok.1 h
    rw [requireVariable_eq_ok] at hvalue
    rw [renderPartInto, hvalue] at hinto
    cases value with
    | stringList values =>
      obtain ⟨hfits', hbuffer⟩ := joinInto_eq_ok hfits h hinto
      exact ⟨hfits', hbuffer, fun _ hmem => absurd hmem List.not_mem_nil⟩
    | bool | integer | decimal | text | enum => cases h
  | .conditional condition thenTemplate elseTemplate, _, _, _, _, _, _, _, hfits, h, hinto => by
    obtain ⟨verdict, hverdict, h⟩ := bind_eq_ok.1 h
    obtain ⟨verdict', hverdict', hinto⟩ := bind_eq_ok.1 hinto
    -- the shared renderer validates the condition once more and takes the same branch
    obtain ⟨-, hverdict'⟩ := seq_eq_ok.1 hverdict'
    obtain ⟨-, hverdict'⟩ := seq_eq_ok.1 hverdict'
    rw [hsame.capabilities, evaluateConditionInner_of_validated hverdict] at hverdict'
    cases hverdict'
    rw [renderedInPart, hverdict]
    cases verdict with
    | true =>
      obtain ⟨text, htext, h⟩ := bind_eq_ok.1 h
      obtain ⟨hbuffer, hnested⟩ := renderTemplateInto_of_validated hsame htext hinto
      obtain ⟨hfits', htext'⟩ := hfits.append h
      exact ⟨hfits', by rw [hbuffer, htext', String.append_assoc], hnested⟩
    | false => exact renderElseInto_of_validated hsame hfits h hinto

theorem renderElseInto_of_validated (hsame : SameInputs env context) :
    ∀ {elseTemplate : Option SafeTemplate} {limit : Nat} {output output' : RenderOutput}
      {before buffer : String}, output.Fits limit →
      renderElse lib env limit elseTemplate output = .ok output' →
      renderElseInto lib env.vars context limits elseTemplate (before ++ output.text) = .ok buffer →
        output'.Fits limit ∧ buffer = before ++ output'.text ∧
          ∀ nested ∈ renderedInElse env elseTemplate, RendersAlike lib env context limits nested
  | none, _, _, _, _, _, hfits, h, hinto => by
    cases h
    cases hinto
    exact ⟨hfits, rfl, fun _ hmem => absurd hmem List.not_mem_nil⟩
  | some elseTemplate, _, _, _, _, _, hfits, h, hinto => by
    obtain ⟨text, htext, h⟩ := bind_eq_ok.1 h
    obtain ⟨hbuffer, hnested⟩ := renderTemplateInto_of_validated hsame htext hinto
    obtain ⟨hfits', htext'⟩ := hfits.append h
    exact ⟨hfits', by rw [hbuffer, htext', String.append_assoc], hnested⟩
end

/-- What one evaluator or renderer accepts, the next accepts alike. -/
theorem evaluators_agree :
    (∀ {expression : ConditionExpr} {vars : VariableMap} {capabilities : List CapabilityKey} {b : Bool},
      expression.validate = .ok () → vars.FiniteDecimals →
        (evaluateConditionValidated vars capabilities expression = .ok b →
          evaluateConditionInner vars capabilities expression = .ok b) ∧
        (evaluateConditionInner vars capabilities expression = .ok b →
          evaluateKnowledgeCondition vars capabilities expression = b)) ∧
    ∀ {lib : Externals} {env : TemplateEnvironment} {context : InteractionContext}
      {limits : InteractionLimits} {template : SafeTemplate} {text before buffer : String},
      SameInputs env context → renderValidated lib env template = .ok text →
      renderTemplateInto lib env.vars context limits template before = .ok buffer →
        buffer = before ++ text ∧
          ∀ nested ∈ renderedTemplates env template, RendersAlike lib env context limits nested := by
  constructor
  · intro expression vars capabilities b hvalid hfinite
    obtain ⟨_, hvisit, -⟩ := bind_eq_ok.1 hvalid
    exact ⟨evaluateConditionInner_of_validated, evaluateKnowledgeCondition_of_inner hfinite hvisit⟩
  · intro lib env context limits template text before buffer hsame h hinto
    exact renderTemplateInto_of_validated hsame h hinto

end

/-! ## A greeting -/

def moodVariable : VariableRef := ⟨.session, none, "mood"⟩

def scoreVariable : VariableRef := ⟨.session, none, "score"⟩

def moodVariables : VariableMap := ⟨[⟨moodVariable, .text "calm"⟩, ⟨scoreVariable, .integer 7⟩]⟩

def moodCondition : ConditionExpr :=
  .all [.greaterThan scoreVariable (f64OfInt 5), .not (.contains moodVariable "sad")]

/-- "Ada feels calm", with a nested template for a good score. -/
def moodTemplate : SafeTemplate :=
  ⟨[.builtIn .characterName, .text " feels ", .varRef moodVariable,
    .conditional moodCondition ⟨[.text "!"], 4⟩ none], 40⟩

def moodEnvironment : TemplateEnvironment where
  vars := moodVariables
  capabilities := []
  characterName := "Ada"
  userName := "Ben"
  personaName := none
  personaDescription := none
  currentDate := "2024-05-01"
  currentTime := "12:00"
  slots := []

def moodContext : InteractionContext where
  deterministicSeed := 0
  eventEpochSeconds := 0
  modelCapabilities := []
  templateValues := ⟨some "Ada", some "Ben", none, none, none, none⟩

theorem moodContext_same : SameInputs moodEnvironment moodContext where
  capabilities := rfl
  builtIns value text h := by
    cases value <;> cases h <;> rfl

theorem moodVariables_finite : moodVariables.FiniteDecimals := by
  intro binding hmem value hvalue
  simp only [moodVariables, List.mem_cons, List.not_mem_nil, or_false] at hmem
  rcases hmem with rfl | rfl <;> cases hvalue

theorem evaluators_agree_mood :
    ((evaluateConditionValidated moodVariables [] moodCondition = .ok true →
        evaluateConditionInner moodVariables [] moodCondition = .ok true) ∧
      (evaluateConditionInner moodVariables [] moodCondition = .ok true →
        evaluateKnowledgeCondition moodVariables [] moodCondition = true)) ∧
    "> Ada feels calm!" = "> " ++ "Ada feels calm!" ∧
      ∀ nested ∈ renderedTemplates moodEnvironment moodTemplate,
        RendersAlike sampleExternals moodEnvironment moodContext defaultInteractionLimits nested :=
  ⟨evaluators_agree.1 (by decide +kernel) moodVariables_finite,
    evaluators_agree.2 moodContext_same (by decide +kernel) (by decide +kernel)⟩

end LorePia
