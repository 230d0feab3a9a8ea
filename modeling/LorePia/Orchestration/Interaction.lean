import LorePia.Domain.Interaction
import LorePia.Orchestration.KnowledgeEngine

/-!
# Interaction checks, conditions and templates (`crates/orchestration/src/interactions.rs`)

The limits of the interaction engine, its own validators of identifiers, texts, variables, conditions,
templates and actions, the conditions and templates it evaluates over a variable map, and its seeded
dice. These are separate from the domain's validators and from the prompt templates.
-/

namespace LorePia

open Base

/-! ## Limits and failures -/

structure InteractionLimits where
  maxRuleSets : Nat
  maxRules : Nat
  maxActionsPerEvent : Nat
  maxActionsPerRule : Nat
  maxConditionDepth : Nat
  maxConditionNodes : Nat
  maxTemplateDepth : Nat
  maxTemplateParts : Nat
  maxVariables : Nat
  maxProposals : Nat
  maxPendingProposals : Nat
  maxEffects : Nat
  maxChoices : Nat
  maxDiceCount : UInt16
  maxDiceSides : UInt32
  maxTextChars : Nat
  maxIdentifierBytes : Nat
deriving DecidableEq

def defaultMaxPendingInteractionProposals : Nat := 64

/-- `InteractionLimits::default()`. -/
def defaultInteractionLimits : InteractionLimits where
  maxRuleSets := 64
  maxRules := 256
  maxActionsPerEvent := 256
  maxActionsPerRule := 64
  maxConditionDepth := 16
  maxConditionNodes := 512
  maxTemplateDepth := 16
  maxTemplateParts := 512
  maxVariables := LorePia.maxVariables
  maxProposals := maxInteractionProposals
  maxPendingProposals := defaultMaxPendingInteractionProposals
  maxEffects := 512
  maxChoices := 64
  maxDiceCount := 100
  maxDiceSides := 10000
  maxTextChars := maxInteractionNativeTextChars
  maxIdentifierBytes := 128

inductive InteractionFailureCode
  | invalidLimits | tooManyRuleSets | tooManyRules | duplicateRuleSetId | duplicateRuleId
  | invalidIdentifier | invalidCondition | invalidTemplate | invalidAction | unsafeText
  | importedScopeViolation | stateLimitExceeded | proposalLimitExceeded | duplicateProposal
  | unknownProposal | proposalNotPending | proposalExpired | revisionConflict | invalidTimestamp
  | effectLimitExceeded | missingVariable | typeMismatch | numericOverflow
deriving DecidableEq

structure InteractionFailure where
  code : InteractionFailureCode
  message : String
deriving DecidableEq

abbrev Interaction := Except InteractionFailure

def InteractionLimits.validate (limits : InteractionLimits) : Interaction Unit :=
  rejectIf (limits.maxRuleSets = 0 ∨ limits.maxRules = 0 ∨ limits.maxActionsPerEvent = 0 ∨
    limits.maxActionsPerRule = 0 ∨ limits.maxConditionDepth = 0 ∨ limits.maxConditionNodes = 0 ∨
    limits.maxTemplateDepth = 0 ∨ limits.maxTemplateParts = 0 ∨ limits.maxVariables = 0 ∨
    limits.maxVariables > LorePia.maxVariables ∨ limits.maxProposals = 0 ∨
    limits.maxProposals > maxInteractionProposals ∨ limits.maxPendingProposals = 0 ∨
    limits.maxPendingProposals > limits.maxProposals ∨
    limits.maxPendingProposals > defaultMaxPendingInteractionProposals ∨ limits.maxEffects = 0 ∨
    limits.maxChoices = 0 ∨ limits.maxDiceCount = 0 ∨ limits.maxDiceSides < 2 ∨
    limits.maxTextChars = 0 ∨ limits.maxIdentifierBytes = 0)
    ⟨.invalidLimits, "interaction limits exceed hard safety bounds or are otherwise invalid"⟩

/-! ## Identifiers, texts and variables -/

/-- `byte.is_ascii_alphanumeric() || matches!(byte, b'_' | b'-' | b'.')`. -/
def isIdentifierCharacter (c : Char) : Bool := c.isAlphanum || c = '_' || c = '-' || c = '.'

def validateIdentifier (label value : String) (limits : InteractionLimits) : Interaction Unit :=
  rejectIf (value.isEmpty ∨ value.utf8ByteSize > limits.maxIdentifierBytes ∨
      value.toList.all isIdentifierCharacter = false)
    ⟨.invalidIdentifier, s!"{label} must contain only ASCII letters, digits, `.`, `_`, or `-` and fit the configured limit"⟩

/-- `validate_text` of `interactions.rs`. -/
def validatePlainText (label value : String) (limits : InteractionLimits) : Interaction Unit := do
  rejectIf (value.length > limits.maxTextChars)
    ⟨.unsafeText, s!"{label} exceeds the configured text limit"⟩
  rejectIf (value.toList.any isDisallowedControl)
    ⟨.unsafeText, s!"{label} contains disallowed control characters"⟩

def validateNativePlainText (value : String) (limits : InteractionLimits) : Interaction Unit := do
  validatePlainText "rendered native text" value limits
  mapErr (fun _ => ⟨.unsafeText, "interaction output violates the canonical native plain-text contract"⟩)
    (validateInteractionNativeText "rendered native text" value)

def validateRequiredNativePlainText (label value : String) (canonicalMaxChars : Nat)
    (limits : InteractionLimits) : Interaction Unit := do
  validateNativePlainText value limits
  rejectIf (value.length = 0 ∨ value.length > canonicalMaxChars)
    ⟨.unsafeText, s!"{label} must contain between 1 and {canonicalMaxChars} characters"⟩

def validateLegacyStoredProposalText (label value : String) (maximumChars : Nat) :
    Interaction Unit := do
  rejectIf (value.length = 0 ∨ value.length > maximumChars)
    ⟨.unsafeText, s!"{label} must contain between 1 and {maximumChars} characters"⟩
  rejectIf (value.toList.any isDisallowedControl)
    ⟨.unsafeText, s!"{label} contains disallowed control characters"⟩
  rejectIf (looksLikeMarkup value) ⟨.unsafeText, s!"{label} must remain plain native text"⟩

def validateEpochSeconds (label : String) (epochSeconds : Int) : Interaction Unit :=
  rejectIf (epochSeconds < 0) ⟨.invalidTimestamp, s!"{label} cannot be before the Unix epoch"⟩

/-- `validate_variable_ref` of `interactions.rs`. -/
def checkVariableRef (v : VariableRef) (limits : InteractionLimits) : Interaction Unit := do
  validateIdentifier "variable id" v.id limits
  forSome v.ns fun ns => validateIdentifier "variable namespace" ns limits
  rejectIf (v.scope = .module ∧ v.ns.isNone)
    ⟨.invalidIdentifier, "module variables require a namespace"⟩

/-- `validate_variable_value` of `interactions.rs`. -/
def checkVariableValue (value : VariableValue) (limits : InteractionLimits) : Interaction Unit :=
  match value with
  | .decimal value =>
    rejectIf (¬ value.isFinite) ⟨.invalidAction, "decimal variable values must be finite"⟩
  | .text value | .enum value => validatePlainText "variable value" value limits
  | .stringList values => do
    rejectIf (values.length > limits.maxChoices)
      ⟨.invalidAction, "string-list variable exceeds the configured item limit"⟩
    values.forM fun value => validatePlainText "string-list item" value limits
  | .bool _ | .integer _ => .ok ()

/-! ## Conditions -/

mutual
/-- `walk` of `validate_condition`; returns the node counter. -/
def walkCondition (limits : InteractionLimits) : ConditionExpr → Nat → Nat → Interaction Nat
  | expression, depth, nodes => do
    rejectIf (depth > limits.maxConditionDepth)
      ⟨.invalidCondition, "condition nesting exceeds the configured depth limit"⟩
    rejectIf (nodes + 1 > limits.maxConditionNodes)
      ⟨.invalidCondition, "condition node count exceeds the configured limit"⟩
    match expression with
    | .equals v value | .notEquals v value =>
      checkVariableRef v limits
      checkVariableValue value limits
      return nodes + 1
    | .greaterThan v value =>
      checkVariableRef v limits
      rejectIf (¬ value.isFinite) ⟨.invalidCondition, "condition numeric value must be finite"⟩
      return nodes + 1
    | .contains v value =>
      checkVariableRef v limits
      validatePlainText "condition contains value" value limits
      return nodes + 1
    | .existsVar v =>
      checkVariableRef v limits
      return nodes + 1
    | .modelSupports _ | .true | .false => return nodes + 1
    | .all expressions | .any expressions => walkConditions limits expressions depth (nodes + 1)
    | .not expression => walkCondition limits expression (depth + 1) (nodes + 1)

/-- The children of a logical condition. -/
def walkConditions (limits : InteractionLimits) : List ConditionExpr → Nat → Nat → Interaction Nat
  | [], _, nodes => .ok nodes
  | child :: rest, depth, nodes => do
    let nodes ← walkCondition limits child (depth + 1) nodes
    walkConditions limits rest depth nodes
end

/-- `validate_condition` of `interactions.rs`. -/
def checkCondition (expression : ConditionExpr) (limits : InteractionLimits) : Interaction Unit := do
  let _ ← walkCondition limits expression 1 0
  .ok ()

mutual
def evaluateConditionInner (vars : VariableMap) (capabilities : List CapabilityKey) :
    ConditionExpr → Interaction Bool
  | .true => .ok true
  | .false => .ok false
  | .equals v value => .ok ((vars.get v).any fun current => current.eq value)
  | .notEquals v value => .ok (!(vars.get v).any fun current => current.eq value)
  | .greaterThan v value =>
    match vars.get v with
    | some (.integer current) => .ok (value.lt (f64OfInt current))
    | some (.decimal current) => .ok (value.lt current)
    | none => .ok false
    | some _ => .error ⟨.typeMismatch, s!"greater-than condition variable `{v.id}` is not numeric"⟩
  | .contains v value =>
    match vars.get v with
    | some (.text current) | some (.enum current) => .ok (containsText current value)
    | some (.stringList current) => .ok (current.contains value)
    | none => .ok false
    | some _ => .error ⟨.typeMismatch,
        s!"contains condition variable `{v.id}` is not text or a string list"⟩
  | .existsVar v => .ok (vars.get v).isSome
  | .modelSupports capability => .ok (capabilities.contains capability)
  | .all expressions => evaluateAllInner vars capabilities expressions
  | .any expressions => evaluateAnyInner vars capabilities expressions
  | .not expression => do return !(← evaluateConditionInner vars capabilities expression)

/-- The loop of an `All` condition: stops at the first false one. -/
def evaluateAllInner (vars : VariableMap) (capabilities : List CapabilityKey) :
    List ConditionExpr → Interaction Bool
  | [] => .ok true
  | expression :: rest => do
    if ← evaluateConditionInner vars capabilities expression then
      evaluateAllInner vars capabilities rest
    else return false

/-- The loop of an `Any` condition: stops at the first true one. -/
def evaluateAnyInner (vars : VariableMap) (capabilities : List CapabilityKey) :
    List ConditionExpr → Interaction Bool
  | [] => .ok false
  | expression :: rest => do
    if ← evaluateConditionInner vars capabilities expression then return true
    else evaluateAnyInner vars capabilities rest
end

def evaluateConditionAst (expression : ConditionExpr) (vars : VariableMap)
    (capabilities : List CapabilityKey) (limits : InteractionLimits) : Interaction Bool := do
  limits.validate
  checkCondition expression limits
  evaluateConditionInner vars capabilities expression

/-! ## Templates -/

mutual
/-- `walk` of `validate_template`; returns the part counter. -/
def walkTemplate (limits : InteractionLimits) : SafeTemplate → Nat → Nat → Interaction Nat
  | ⟨templateParts, maxOutputChars⟩, depth, parts => do
    rejectIf (depth > limits.maxTemplateDepth)
      ⟨.invalidTemplate, "template nesting exceeds the configured depth limit"⟩
    rejectIf (maxOutputChars = 0 ∨ maxOutputChars.toNat > limits.maxTextChars)
      ⟨.invalidTemplate, "template output limit is zero or exceeds the engine text limit"⟩
    walkParts limits templateParts depth parts

/-- The parts of a template. -/
def walkParts (limits : InteractionLimits) : List TemplatePart → Nat → Nat → Interaction Nat
  | [], _, parts => .ok parts
  | part :: rest, depth, parts => do
    rejectIf (parts + 1 > limits.maxTemplateParts)
      ⟨.invalidTemplate, "template part count exceeds the configured limit"⟩
    let parts ← walkPart limits part depth (parts + 1)
    walkParts limits rest depth parts

/-- One part of a template. -/
def walkPart (limits : InteractionLimits) : TemplatePart → Nat → Nat → Interaction Nat
  | .text value, _, parts => do
    validatePlainText "template text" value limits
    return parts
  | .varRef v, _, parts => do
    checkVariableRef v limits
    return parts
  | .join v separator, _, parts => do
    checkVariableRef v limits
    validatePlainText "template join separator" separator limits
    return parts
  | .builtIn _, _, parts => .ok parts
  | .slot name, _, _ => .error ⟨.invalidTemplate,
      s!"interaction templates do not accept unresolved slot `{name}`"⟩
  | .conditional condition thenTemplate elseTemplate, depth, parts => do
    checkCondition condition limits
    let parts ← walkTemplate limits thenTemplate (depth + 1) parts
    walkElse limits elseTemplate depth parts

/-- The optional `else` template of a conditional part. -/
def walkElse (limits : InteractionLimits) : Option SafeTemplate → Nat → Nat → Interaction Nat
  | none, _, parts => .ok parts
  | some elseTemplate, depth, parts => walkTemplate limits elseTemplate (depth + 1) parts
end

/-- `validate_template` of `interactions.rs`. -/
def checkTemplate (template : SafeTemplate) (limits : InteractionLimits) : Interaction Unit := do
  let _ ← walkTemplate limits template 1 0
  .ok ()

structure InteractionTemplateValues where
  characterName : Option String
  userName : Option String
  personaName : Option String
  personaDescription : Option String
  currentDate : Option String
  currentTime : Option String

structure InteractionContext where
  deterministicSeed : UInt64
  eventEpochSeconds : Int
  modelCapabilities : List CapabilityKey
  templateValues : InteractionTemplateValues

/-- `built_in_value` of `interactions.rs`. -/
def InteractionTemplateValues.builtIn (values : InteractionTemplateValues) :
    BuiltInTemplateValue → Option String
  | .characterName => values.characterName
  | .userName => values.userName
  | .personaName => values.personaName
  | .personaDescription => values.personaDescription
  | .currentDate => values.currentDate
  | .currentTime => values.currentTime

def displayVariableValue (lib : Externals) : VariableValue → String
  | .bool value => if value then "true" else "false"
  | .integer value => toString value
  | .decimal value => lib.displayF64 value
  | .text value | .enum value => value
  | .stringList values => ", ".intercalate values

def enforceOutputLimit (output : String) (startingChars templateLimit : Nat)
    (limits : InteractionLimits) : Interaction Unit :=
  rejectIf (output.length > limits.maxTextChars ∨ output.length - startingChars > templateLimit)
    ⟨.invalidTemplate, "interaction template exceeded its output limit"⟩

/-- The value loop of a `Join` part, from `index` on. -/
def joinInto (limits : InteractionLimits) (startingChars templateLimit : Nat) (separator : String) :
    Nat → List String → String → Interaction String
  | _, [], output => .ok output
  | index, value :: rest, output => do
    let output := (if index > 0 then output ++ separator else output) ++ value
    enforceOutputLimit output startingChars templateLimit limits
    joinInto limits startingChars templateLimit separator (index + 1) rest output

mutual
def renderTemplateInto (lib : Externals) (vars : VariableMap) (context : InteractionContext)
    (limits : InteractionLimits) : SafeTemplate → String → Interaction String
  | ⟨parts, maxOutputChars⟩, output =>
    renderPartsInto lib vars context limits output.length maxOutputChars.toNat parts output

/-- The part loop of `render_template_into`. -/
def renderPartsInto (lib : Externals) (vars : VariableMap) (context : InteractionContext)
    (limits : InteractionLimits) (startingChars templateLimit : Nat) :
    List TemplatePart → String → Interaction String
  | [], output => .ok output
  | part :: rest, output => do
    let output ← renderPartInto lib vars context limits startingChars templateLimit part output
    enforceOutputLimit output startingChars templateLimit limits
    renderPartsInto lib vars context limits startingChars templateLimit rest output

/-- One part of `render_template_into`. -/
def renderPartInto (lib : Externals) (vars : VariableMap) (context : InteractionContext)
    (limits : InteractionLimits) (startingChars templateLimit : Nat) :
    TemplatePart → String → Interaction String
  | .text value, output => .ok (output ++ value)
  | .varRef v, output => do
    let value ← okOr (vars.get v) ⟨.missingVariable, s!"template variable `{v.id}` does not exist"⟩
    return output ++ displayVariableValue lib value
  | .builtIn value, output => do
    let value ← okOr (context.templateValues.builtIn value)
      ⟨.missingVariable, "required interaction template built-in value was not provided"⟩
    return output ++ value
  | .slot name, _ => .error ⟨.invalidTemplate, s!"unresolved interaction template slot `{name}`"⟩
  | .join v separator, output =>
    match vars.get v with
    | some (.stringList values) =>
      joinInto limits startingChars templateLimit separator 0 values output
    | some _ => .error ⟨.typeMismatch, s!"join template variable `{v.id}` is not a string list"⟩
    | none => .error ⟨.missingVariable, s!"join template variable `{v.id}` does not exist"⟩
  | .conditional condition thenTemplate elseTemplate, output => do
    if ← evaluateConditionAst condition vars context.modelCapabilities limits then
      renderTemplateInto lib vars context limits thenTemplate output
    else renderElseInto lib vars context limits elseTemplate output

/-- The optional `else` template of a conditional part. -/
def renderElseInto (lib : Externals) (vars : VariableMap) (context : InteractionContext)
    (limits : InteractionLimits) : Option SafeTemplate → String → Interaction String
  | none, output => .ok output
  | some elseTemplate, output => renderTemplateInto lib vars context limits elseTemplate output
end

/-- `render_safe_template` of `interactions.rs`. -/
def renderInteractionTemplate (lib : Externals) (template : SafeTemplate) (vars : VariableMap)
    (context : InteractionContext) (limits : InteractionLimits) : Interaction String := do
  checkTemplate template limits
  let output ← renderTemplateInto lib vars context limits template ""
  validateNativePlainText output limits
  return output

end LorePia
