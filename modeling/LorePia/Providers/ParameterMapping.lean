import LorePia.Base.Json
import LorePia.Base.Rounded
import LorePia.Base.Search
import LorePia.Domain.Discovery

/-!
# Parameter definitions and presets (`crates/providers/src/parameter_mapping.rs`)

`ParameterEngine::new` checks a list of definitions, `evaluate` a preset against them. An `i64` and the unsigned
bounds are integers; reading a JSON text is a parameter. A step of zero, which the shape check reports, panics in
the remainder where a literal is checked against it: here the check goes on.
-/

namespace LorePia

open Base

abbrev ParameterId := String

namespace ParameterMapping

def maxParameterCount : Nat := 128
def maxParameterIdBytes : Nat := 64
def maxLabelKeyBytes : Nat := 128
def maxFieldPathBytes : Nat := 128
def maxEnumChoices : Nat := 64
def maxStringBytes : Nat := 16 * 1024
def maxListItems : Nat := 64
def maxListItemBytes : Nat := 4 * 1024
def maxJsonSchemaBytes : Nat := 64 * 1024
def maxConditionDepth : Nat := 8

/-! ## Definitions -/

inductive ToolPolicy
  | none | auto | required
deriving DecidableEq

inductive ParameterLiteral
  | boolean (value : Bool)
  | integer (value : Int)
  | number (value : F64)
  | string (value : String)
  | enum (value : String)
  | stringList (values : List String)
  | jsonSchema (value : String)
  | stopSequenceList (values : List String)
  | toolPolicy (value : ToolPolicy)
deriving DecidableEq

/-- `==` of two literals. -/
def ParameterLiteral.eq : ParameterLiteral → ParameterLiteral → Bool
  | .number x, .number y => x.eq y
  | a, b => a = b

inductive ParameterValueState
  | inheritProviderDefault
  | explicit (value : ParameterLiteral)
deriving DecidableEq

structure ParameterValue where
  parameterId : ParameterId
  state : ParameterValueState
deriving DecidableEq

inductive ParameterDefaultMode
  | providerDefault | explicitRequired
deriving DecidableEq

inductive UiParameterLevel
  | basic | advanced | expert | hiddenInternal
deriving DecidableEq

inductive ProviderParameterTarget
  | requestBody | requestHeader
deriving DecidableEq

structure ProviderParameterMapping where
  target : ProviderParameterTarget
  fieldName : String
deriving DecidableEq

structure IntegerChoice where
  value : Int
  labelKey : String
deriving DecidableEq

structure NumberChoice where
  value : F64
  labelKey : String
deriving DecidableEq

structure StringChoice where
  value : String
  labelKey : String
deriving DecidableEq

inductive ParameterSchema
  | boolean
  | integer (minimum maximum : Option Int) (step : Option Nat) (choices : List IntegerChoice)
  | number (minimum maximum step : Option F64) (choices : List NumberChoice)
  | string (minBytes maxBytes : Nat) (choices : List StringChoice)
  | enum (choices : List StringChoice)
  | stringList (minItems maxItems maxItemBytes : Nat) (uniqueItems : Bool)
  | jsonSchema (maxBytes : Nat)
  | stopSequenceList (maxItems maxItemBytes : Nat)
  | toolPolicy (allowed : List ToolPolicy)
deriving DecidableEq

inductive ParameterConditionExpr
  | equals (parameterId : ParameterId) (value : ParameterLiteral)
  | notEquals (parameterId : ParameterId) (value : ParameterLiteral)
  | all (conditions : List ParameterConditionExpr)
  | any (conditions : List ParameterConditionExpr)

inductive ParameterRule
  | mutuallyExclusive (parameterId : ParameterId) (messageKey : String)
  | requires (parameterId : ParameterId) (messageKey : String)
deriving DecidableEq

structure TypedParameterSpec where
  id : ParameterId
  labelKey : String
  descriptionKey : Option String
  schema : ParameterSchema
  defaultMode : ParameterDefaultMode
  visibility : Option ParameterConditionExpr
  rules : List ParameterRule
  providerMapping : ProviderParameterMapping
  level : UiParameterLevel

/-! ## Issues -/

inductive ParameterIssueCode
  | invalidDefinition | duplicateParameter | unknownParameter | duplicateValue | requiredValueMissing
  | typeMismatch | outOfBounds | invalidStep | invalidChoice | invalidJsonSchema | hiddenValue
  | mutuallyExclusive | missingRequirement
deriving DecidableEq

structure ParameterIssue where
  code : ParameterIssueCode
  parameterId : Option ParameterId
  relatedParameterId : Option ParameterId
  message : String
deriving DecidableEq

structure ParameterEngineError where
  issues : List ParameterIssue
deriving DecidableEq

def normalizeId (id : ParameterId) : String := toAsciiLowercase id

/-- An issue of one definition. -/
def definitionIssue (id : ParameterId) (message : String) : ParameterIssue :=
  ⟨.invalidDefinition, some id, none, message⟩

/-- An issue of one definition about another parameter. -/
def relatedIssue (id related : ParameterId) (message : String) : ParameterIssue :=
  ⟨.invalidDefinition, some id, some related, message⟩

/-- `if bad { issues.push(issue) }`. -/
def reportIf {α : Type} (bad : Prop) [Decidable bad] (issue : α) : List α := if bad then [issue] else []

/-! ## Literals -/

def epsilon : F64 := Ieee.ofFields false 971 0

/-- `16.0 * f64::EPSILON`. -/
def sixteenEpsilon : F64 := Ieee.ofFields false 975 0

/-- `0.0`. -/
def zero : F64 := Ieee.ofFields false 0 0

/-- `1.0`. -/
def one : F64 := Ieee.ofFields false 1023 0

/-- The step check of an integer. -/
def integerOffGrid (minimum : Option Int) (step : Nat) (value : Int) : Bool :=
  (value - minimum.getD 0).natAbs % step ≠ 0

/-- The step check of a number. -/
def validateNumberStep (minimum : Option F64) (step value : F64) : Except String Unit := do
  let units := (value.sub (minimum.getD zero)).div step
  rejectIf (units.isFinite = false) "number value cannot be represented on the declared step grid"
  let tolerance := sixteenEpsilon.mul (units.abs.maximum one)
  rejectIf (tolerance.lt (units.sub units.round).abs = true) "number value does not align to the declared step"

def validateStringList (values : List String) (minItems maxItems maxItemBytes : Nat)
    (uniqueItems requireNonEmpty : Bool) : Except String Unit := do
  rejectIf (values.length < minItems ∨ maxItems < values.length)
    "list item count is outside the allowed bounds"
  rejectIf (values.any (fun value => maxItemBytes < value.utf8ByteSize || (requireNonEmpty && value = "")) = true)
    "list item is empty or exceeds its byte limit"
  rejectIf (uniqueItems = true ∧ ¬values.Nodup) "list items must be unique"

variable (fromStr : String → Option Json)

def validateLiteral : ParameterSchema → ParameterLiteral → Except String Unit
  | .boolean, .boolean _ => .ok ()
  | .integer minimum maximum step choices, .integer value => do
    rejectIf (minimum.any (value < ·) = true ∨ maximum.any (· < value) = true)
      "integer value is outside the allowed bounds"
    forSome step fun step =>
      rejectIf (integerOffGrid minimum step value = true) "integer value does not align to the declared step"
    rejectIf (choices ≠ [] ∧ choices.any (·.value = value) = false) "integer value is not an allowed choice"
  | .number minimum maximum step choices, .number value => do
    rejectIf (value.isFinite = false) "number value must be finite"
    rejectIf (minimum.any value.lt = true ∨ maximum.any (·.lt value) = true)
      "number value is outside the allowed bounds"
    forSome step fun step => validateNumberStep minimum step value
    rejectIf (choices ≠ [] ∧
        choices.any (fun choice => let distance := (choice.value.sub value).abs
          distance.lt epsilon || distance.eq epsilon) = false)
      "number value is not an allowed choice"
  | .string minBytes maxBytes choices, .string value => do
    rejectIf (value.utf8ByteSize < minBytes ∨ maxBytes < value.utf8ByteSize)
      "string value is outside the allowed byte bounds"
    rejectIf (choices ≠ [] ∧ choices.any (·.value = value) = false) "string value is not an allowed choice"
  | .enum choices, .enum value =>
    rejectIf (choices.any (·.value = value) = false) "enum value is not an allowed choice"
  | .stringList minItems maxItems maxItemBytes uniqueItems, .stringList values =>
    validateStringList values minItems maxItems maxItemBytes uniqueItems false
  | .jsonSchema maxBytes, .jsonSchema value => do
    rejectIf (maxBytes < value.utf8ByteSize) "JSON schema exceeds its byte limit"
    let parsed ← okOr (fromStr value) "JSON schema is not valid JSON"
    rejectIf (parsed.isObject = false) "JSON schema must be a JSON object"
  | .stopSequenceList maxItems maxItemBytes, .stopSequenceList values =>
    validateStringList values 0 maxItems maxItemBytes true true
  | .toolPolicy allowed, .toolPolicy value =>
    rejectIf (value ∉ allowed) "tool policy is not allowed by this model route"
  | _, _ => .error "parameter value type does not match its schema"

def classifyLiteralError (message : String) : ParameterIssueCode :=
  if containsText message "type does not match" then .typeMismatch
  else if containsText message "step" then .invalidStep
  else if containsText message "choice" || containsText message "policy" then .invalidChoice
  else if containsText message "JSON schema" then .invalidJsonSchema
  else .outOfBounds

/-! ## The shape of a definition -/

def validChoiceLabel (labelKey : String) : Bool :=
  labelKey ≠ "" && labelKey.utf8ByteSize ≤ maxLabelKeyBytes

def validFieldName (target : ProviderParameterTarget) (fieldName : String) : Bool :=
  if fieldName = "" || maxFieldPathBytes < fieldName.utf8ByteSize then false
  else
    match target with
    | .requestHeader => fieldName.toList.all fun c =>
        Discovery.isAsciiAlphanumeric c || "!#$%&'*+-.^_`|~".toList.contains c
    | .requestBody => (splitSub ['.'] 0 fieldName.toList).all fun segment =>
        !segment.isEmpty && segment.all fun c => Discovery.isAsciiAlphanumeric c || c = '_'

/-- The loop over the choices of a schema: `key` is what must be unique, `literal` what must pass the schema. -/
def choiceMessages {α β : Type} [DecidableEq β] (labelKey : α → String) (key : α → β)
    (literal : α → ParameterLiteral) (schema : ParameterSchema) (label unique violates : String) :
    List β → List α → List String
  | _, [] => []
  | seen, choice :: rest =>
    reportIf (validChoiceLabel (labelKey choice) = false) label ++
      (if key choice ∈ seen then [unique]
        else reportIf ((validateLiteral fromStr schema (literal choice)).isOk = false) violates) ++
      choiceMessages labelKey key literal schema label unique violates (key choice :: seen) rest

/-- The bits of a number with one zero. -/
def normalizedBits (value : F64) : F64 := if value.eq zero then zero else value

/-- The choices of an enumeration. A value is seen where the other checks pass. -/
def enumMessages : List String → List StringChoice → List String
  | _, [] => []
  | seen, choice :: rest =>
    if !validChoiceLabel choice.labelKey || choice.value = "" || maxStringBytes < choice.value.utf8ByteSize then
      "enum choices and labels must be non-empty, bounded, and unique" :: enumMessages seen rest
    else
      reportIf (choice.value ∈ seen) "enum choices and labels must be non-empty, bounded, and unique" ++
        enumMessages (choice.value :: seen) rest

/-- The messages of `validate_schema_shape`. -/
def schemaMessages (schema : ParameterSchema) : List String :=
  match schema with
  | .boolean => []
  | .integer minimum maximum step choices =>
    reportIf (minimum.any (fun low => maximum.any (· < low)) = true)
        "integer minimum may not exceed maximum" ++
      reportIf (step = some 0) "integer step must be positive" ++
      reportIf (maxEnumChoices < choices.length) "too many integer choices" ++
      choiceMessages fromStr (·.labelKey) (·.value) (fun choice => .integer choice.value) schema
        "integer choice label key is empty or too long" "integer choices must be unique"
        "integer choice violates its own schema" [] choices
  | .number minimum maximum step choices =>
    reportIf (minimum.any (!·.isFinite) = true ∨ maximum.any (!·.isFinite) = true ∨
        step.any (fun step => !step.isFinite || step.lt zero || step.eq zero) = true)
        "number bounds and step must be finite and step positive" ++
      reportIf (minimum.any (fun low => maximum.any (·.lt low)) = true)
        "number minimum may not exceed maximum" ++
      reportIf (maxEnumChoices < choices.length) "too many number choices" ++
      choiceMessages fromStr (·.labelKey) (fun choice => normalizedBits choice.value)
        (fun choice => .number choice.value) schema
        "number choice label key is empty or too long" "number choices must be unique"
        "number choice violates its own schema" [] choices
  | .string minBytes maxBytes choices =>
    reportIf (maxBytes < minBytes ∨ maxStringBytes < maxBytes) "string byte bounds are invalid" ++
      reportIf (maxEnumChoices < choices.length) "too many string choices" ++
      choiceMessages fromStr (·.labelKey) (·.value) (fun choice => .string choice.value) schema
        "string choice label key is empty or too long" "string choices must be unique"
        "string choice violates its own schema" [] choices
  | .enum choices =>
    reportIf (choices = [] ∨ maxEnumChoices < choices.length)
        "enum must declare a bounded non-empty choice list" ++
      enumMessages [] choices
  | .stringList minItems maxItems maxItemBytes _ =>
    reportIf (maxItems < minItems ∨ maxListItems < maxItems ∨ maxItemBytes = 0 ∨ maxListItemBytes < maxItemBytes)
      "string list bounds are invalid"
  | .jsonSchema maxBytes =>
    reportIf (maxBytes = 0 ∨ maxJsonSchemaBytes < maxBytes) "JSON schema byte bound is invalid"
  | .stopSequenceList maxItems maxItemBytes =>
    reportIf (maxItems = 0 ∨ maxListItems < maxItems ∨ maxItemBytes = 0 ∨ maxListItemBytes < maxItemBytes)
      "stop-sequence bounds are invalid"
  | .toolPolicy allowed =>
    reportIf (allowed = [] ∨ 3 < allowed.length ∨ ¬allowed.Nodup)
      "tool policy choices must be non-empty and unique"

def validateDefinitionShape (spec : TypedParameterSpec) : List ParameterIssue :=
  reportIf (spec.id = "" ∨ maxParameterIdBytes < spec.id.utf8ByteSize ∨
      spec.id.toList.all (fun c => Discovery.isAsciiAlphanumeric c || c = '_' || c = '-' || c = '.') = false)
      (definitionIssue spec.id "parameter id must be a bounded ASCII identifier") ++
    reportIf (spec.labelKey = "" ∨ maxLabelKeyBytes < spec.labelKey.utf8ByteSize)
      (definitionIssue spec.id "parameter label key is empty or too long") ++
    reportIf (validFieldName spec.providerMapping.target spec.providerMapping.fieldName = false)
      (definitionIssue spec.id
        "provider mapping field is not a bounded header name or JSON field path") ++
    (schemaMessages fromStr spec.schema).map (definitionIssue spec.id)

/-! ## References between definitions -/

mutual
/-- `validate_condition_references` of one expression. -/
def conditionIssues (specs : List TypedParameterSpec) (indices : OrdMap String Nat) (owner : ParameterId) :
    Nat → ParameterConditionExpr → List ParameterIssue
  | depth, .equals parameterId value | depth, .notEquals parameterId value =>
    if maxConditionDepth ≤ depth then
      [definitionIssue owner "parameter visibility expression is too deeply nested"]
    else
      match (indices.get? (normalizeId parameterId)).bind fun index => specs[index]? with
      | none => [relatedIssue owner parameterId "parameter visibility references an unknown parameter"]
      | some spec => reportIf ((validateLiteral fromStr spec.schema value).isOk = false)
          (relatedIssue owner parameterId "parameter visibility literal does not match the referenced schema")
  | depth, .all conditions | depth, .any conditions =>
    if maxConditionDepth ≤ depth then
      [definitionIssue owner "parameter visibility expression is too deeply nested"]
    else
      reportIf conditions.isEmpty (definitionIssue owner "parameter visibility groups may not be empty") ++
        conditionsIssues specs indices owner (depth + 1) conditions

/-- The children of a group. -/
def conditionsIssues (specs : List TypedParameterSpec) (indices : OrdMap String Nat) (owner : ParameterId) :
    Nat → List ParameterConditionExpr → List ParameterIssue
  | _, [] => []
  | depth, condition :: rest =>
    conditionIssues specs indices owner depth condition ++ conditionsIssues specs indices owner depth rest
end

def validateConditionReferences (specs : List TypedParameterSpec) (indices : OrdMap String Nat)
    (owner : ParameterId) : Option ParameterConditionExpr → List ParameterIssue
  | none => []
  | some condition => conditionIssues fromStr specs indices owner 0 condition

/-- The parameter that a rule is about. -/
def ParameterRule.related : ParameterRule → ParameterId
  | .mutuallyExclusive parameterId _ | .requires parameterId _ => parameterId

/-- The checks of one rule. -/
def ruleIssues (indices : OrdMap String Nat) (id : ParameterId) (rule : ParameterRule) : List ParameterIssue :=
  if normalizeId rule.related = normalizeId id then
    [relatedIssue id rule.related "a parameter rule may not reference itself"]
  else
    reportIf (indices.contains (normalizeId rule.related) = false)
      (relatedIssue id rule.related "parameter rule references an unknown parameter")

/-! ## The engine -/

structure ParameterEngine where
  specs : List TypedParameterSpec
  indices : OrdMap String Nat

/-- One definition of the first loop of `ParameterEngine::new`. -/
def indexSpec (acc : OrdMap String Nat × List ParameterIssue) (item : TypedParameterSpec × Nat) :
    OrdMap String Nat × List ParameterIssue :=
  let id := normalizeId item.1.id
  (acc.1.insert id item.2,
    acc.2 ++ validateDefinitionShape fromStr item.1 ++
      reportIf (acc.1.contains id = true)
        ⟨.duplicateParameter, some item.1.id, none, "parameter ids must be unique ignoring ASCII case"⟩)

/-- The request field that a definition maps to. -/
def mappingKey (spec : TypedParameterSpec) : ProviderParameterTarget × String :=
  (spec.providerMapping.target, toAsciiLowercase spec.providerMapping.fieldName)

/-- The second loop of `ParameterEngine::new`. -/
def referenceIssues (specs : List TypedParameterSpec) (indices : OrdMap String Nat) :
    List (ProviderParameterTarget × String) → List TypedParameterSpec → List ParameterIssue
  | _, [] => []
  | mappings, spec :: rest =>
    reportIf (mappingKey spec ∈ mappings)
        (definitionIssue spec.id "two parameters may not map to the same request field") ++
      validateConditionReferences fromStr specs indices spec.id spec.visibility ++
      spec.rules.flatMap (ruleIssues indices spec.id) ++
      referenceIssues specs indices (mappingKey spec :: mappings) rest

def ParameterEngine.new (specs : List TypedParameterSpec) : Except ParameterEngineError ParameterEngine :=
  let start := reportIf (maxParameterCount < specs.length)
    ⟨.invalidDefinition, none, none, "at most 128 parameters are allowed"⟩
  let indexed := specs.zipIdx.foldl (indexSpec fromStr) (.empty, start)
  let issues := indexed.2 ++ referenceIssues fromStr specs indexed.1 [] specs
  if issues = [] then .ok ⟨specs, indexed.1⟩ else .error ⟨issues⟩

/-! ## Evaluation -/

def explicitLiteral : ParameterValueState → Option ParameterLiteral
  | .explicit value => some value
  | .inheritProviderDefault => none

mutual
/-- `condition_is_true` of one expression. -/
def conditionHolds (states : OrdMap String ParameterValueState) : ParameterConditionExpr → Bool
  | .equals parameterId value =>
    ((states.get? (normalizeId parameterId)).bind explicitLiteral).any (·.eq value)
  | .notEquals parameterId value =>
    ((states.get? (normalizeId parameterId)).bind explicitLiteral).any (!·.eq value)
  | .all conditions => allHold states conditions
  | .any conditions => anyHolds states conditions

/-- All of the conditions. -/
def allHold (states : OrdMap String ParameterValueState) : List ParameterConditionExpr → Bool
  | [] => true
  | condition :: rest => conditionHolds states condition && allHold states rest

/-- Any of the conditions. -/
def anyHolds (states : OrdMap String ParameterValueState) : List ParameterConditionExpr → Bool
  | [] => false
  | condition :: rest => conditionHolds states condition || anyHolds states rest
end

def conditionIsTrue (condition : Option ParameterConditionExpr) (states : OrdMap String ParameterValueState) :
    Bool :=
  condition.all (conditionHolds states)

/-- One value of `collect_states`. -/
def collectState (indices : OrdMap String Nat)
    (acc : OrdMap String ParameterValueState × List ParameterIssue) (value : ParameterValue) :
    OrdMap String ParameterValueState × List ParameterIssue :=
  let id := normalizeId value.parameterId
  if indices.contains id then
    (acc.1.insert id value.state, acc.2 ++ reportIf (acc.1.contains id = true)
      ⟨.duplicateValue, some value.parameterId, none, "preset contains more than one value for a parameter"⟩)
  else
    (acc.1, acc.2 ++
      [⟨.unknownParameter, some value.parameterId, none, "preset contains an unknown parameter"⟩])

def ParameterEngine.collectStates (engine : ParameterEngine) (values : List ParameterValue) :
    OrdMap String ParameterValueState × List ParameterIssue :=
  values.foldl (collectState engine.indices) (.empty, [])

/-- `explicit_ids` of `evaluate`. -/
def explicitIds (states : OrdMap String ParameterValueState) : List String :=
  states.entries.filterMap fun entry => (explicitLiteral entry.2).map fun _ => entry.1

structure ParameterControl where
  id : ParameterId
  labelKey : String
  descriptionKey : Option String
  schema : ParameterSchema
  state : ParameterValueState
  visible : Bool
  enabled : Bool
  issues : List ParameterIssue
deriving DecidableEq

structure ParameterEditorModel where
  basic : List ParameterControl
  advanced : List ParameterControl
  expert : List ParameterControl
deriving DecidableEq

structure AppliedParameter where
  parameterId : ParameterId
  mapping : ProviderParameterMapping
  value : ParameterLiteral
deriving DecidableEq

structure ParameterEvaluation where
  editor : ParameterEditorModel
  applied : List AppliedParameter
  omittedProviderDefaults : List ParameterId
  issues : List ParameterIssue
deriving DecidableEq

/-- The state of a definition's parameter. -/
def specState (states : OrdMap String ParameterValueState) (spec : TypedParameterSpec) : ParameterValueState :=
  (states.get? (normalizeId spec.id)).getD .inheritProviderDefault

/-- The issue of a literal that fails its schema. -/
def literalIssues (id : ParameterId) : Except String Unit → List ParameterIssue
  | .ok () => []
  | .error message => [⟨classifyLiteralError message, some id, none, message⟩]

/-- The issues of the value itself. -/
def valueIssues (states : OrdMap String ParameterValueState) (spec : TypedParameterSpec) :
    List ParameterIssue :=
  let visible := conditionIsTrue spec.visibility states
  match specState states spec with
  | .inheritProviderDefault =>
    reportIf (visible = true ∧ spec.defaultMode = .explicitRequired)
      ⟨.requiredValueMissing, some spec.id, none, "this visible parameter requires an explicit value"⟩
  | .explicit value =>
    reportIf (visible = false)
        ⟨.hiddenValue, some spec.id, none, "a hidden parameter may not retain an explicit user value"⟩ ++
      literalIssues spec.id (validateLiteral fromStr spec.schema value)

/-- The issue of one rule. -/
def ruleIssue (ids : List String) (id : ParameterId) : ParameterRule → List ParameterIssue
  | .mutuallyExclusive parameterId messageKey => reportIf (normalizeId parameterId ∈ ids)
      ⟨.mutuallyExclusive, some id, some parameterId, messageKey⟩
  | .requires parameterId messageKey => reportIf (normalizeId parameterId ∉ ids)
      ⟨.missingRequirement, some id, some parameterId, messageKey⟩

/-- `control_issues` of `evaluate`. -/
def controlIssues (states : OrdMap String ParameterValueState) (spec : TypedParameterSpec) :
    List ParameterIssue :=
  let ids := explicitIds states
  valueIssues fromStr states spec ++
    if conditionIsTrue spec.visibility states = true ∧ normalizeId spec.id ∈ ids then
      spec.rules.flatMap (ruleIssue ids spec.id)
    else []

/-- `disabled_by_conflict` of `evaluate`. -/
def disabledByConflict (states : OrdMap String ParameterValueState) (spec : TypedParameterSpec) : Bool :=
  let ids := explicitIds states
  decide (normalizeId spec.id ∉ ids) && spec.rules.any fun rule =>
    match rule with
    | .mutuallyExclusive parameterId _ => decide (normalizeId parameterId ∈ ids)
    | .requires _ _ => false

/-- The control of one definition. -/
def specControl (states : OrdMap String ParameterValueState) (spec : TypedParameterSpec) : ParameterControl :=
  let visible := conditionIsTrue spec.visibility states
  { id := spec.id
    labelKey := spec.labelKey
    descriptionKey := spec.descriptionKey
    schema := spec.schema
    state := specState states spec
    visible
    enabled := visible && !disabledByConflict states spec
    issues := controlIssues fromStr states spec }

/-- What `evaluate` pushes to `applied` for one definition. -/
def specApplied (states : OrdMap String ParameterValueState) (spec : TypedParameterSpec) :
    Option AppliedParameter :=
  match specState states spec with
  | .inheritProviderDefault => none
  | .explicit value =>
    if (validateLiteral fromStr spec.schema value).isOk && conditionIsTrue spec.visibility states then
      some ⟨spec.id, spec.providerMapping, value⟩
    else none

/-- What `evaluate` pushes to `omitted_provider_defaults` for one definition. -/
def specOmitted (states : OrdMap String ParameterValueState) (spec : TypedParameterSpec) :
    Option ParameterId :=
  match specState states spec with
  | .inheritProviderDefault => some spec.id
  | .explicit _ => none

/-- The visible controls of one level. -/
def controlsAt (states : OrdMap String ParameterValueState) (specs : List TypedParameterSpec)
    (level : UiParameterLevel) : List ParameterControl :=
  ((specs.filter (·.level = level)).map (specControl fromStr states)).filter (·.visible)

def ParameterEngine.evaluate (engine : ParameterEngine) (values : List ParameterValue) : ParameterEvaluation :=
  let collected := engine.collectStates values
  let states := collected.1
  { editor := {
      basic := controlsAt fromStr states engine.specs .basic
      advanced := controlsAt fromStr states engine.specs .advanced
      expert := controlsAt fromStr states engine.specs .expert }
    applied := engine.specs.filterMap (specApplied fromStr states)
    omittedProviderDefaults := engine.specs.filterMap (specOmitted states)
    issues := collected.2 ++ engine.specs.flatMap (controlIssues fromStr states) }

structure ValidatedParameterSet where
  applied : List AppliedParameter
  omittedProviderDefaults : List ParameterId
deriving DecidableEq

def ParameterEngine.validateForRequest (engine : ParameterEngine) (values : List ParameterValue) :
    Except ParameterEngineError ValidatedParameterSet :=
  let evaluation := engine.evaluate fromStr values
  if evaluation.issues = [] then .ok ⟨evaluation.applied, evaluation.omittedProviderDefaults⟩
  else .error ⟨evaluation.issues⟩

end ParameterMapping

end LorePia
