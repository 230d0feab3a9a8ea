import LorePia.Domain.Validate
import Mathlib.Data.List.Infix

/-!
# Conditions and safe templates (`crates/orchestration/src/template.rs`)

`evaluate_condition` and `render_safe_template`: the bounded condition AST and the
value-insertion-only templates, over read-only inputs.
-/

namespace LorePia

open Base

structure TemplateEnvironment where
  vars : VariableMap
  capabilities : List CapabilityKey
  characterName : String
  userName : String
  personaName : Option String
  personaDescription : Option String
  currentDate : String
  currentTime : String
  slots : List TemplateSlot

inductive TemplateError
  | invalid (reason : String)
  | missingVariable (label : String)
  | incompatibleVariable (label : String)
  | missingSlot (name : String)
  | outputLimit (limit : UInt32)
deriving DecidableEq

/-! ## Variables -/

def variableLabel (v : VariableRef) : String :=
  match v.ns with
  | none => v.id
  | some ns => s!"{ns}.{v.id}"

def incompatible (v : VariableRef) : TemplateError := .incompatibleVariable (variableLabel v)

def requireVariable (vars : VariableMap) (v : VariableRef) : Except TemplateError VariableValue :=
  okOr (vars.get v) (.missingVariable (variableLabel v))

def formatVariable (lib : Externals) : VariableValue → String
  | .bool value => if value then "true" else "false"
  | .integer value => toString value
  | .decimal value => lib.displayF64 value
  | .text value | .enum value => value
  | .stringList values => ", ".intercalate values

def builtInValue (env : TemplateEnvironment) : BuiltInTemplateValue → String
  | .characterName => env.characterName
  | .userName => env.userName
  | .personaName => env.personaName.getD ""
  | .personaDescription => env.personaDescription.getD ""
  | .currentDate => env.currentDate
  | .currentTime => env.currentTime

/-! ## Conditions -/

/-- The numeric value a `GreaterThan` condition compares. -/
def numericValue (v : VariableRef) : VariableValue → Except TemplateError F64
  | .integer value => .ok (f64OfInt value)
  | .decimal value => .ok value
  | _ => .error (incompatible v)

/-- The test of a `Contains` condition: a substring of a text, an item of a list. -/
def containsValue (v : VariableRef) (value : String) : VariableValue → Except TemplateError Bool
  | .text actual | .enum actual => .ok (decide (value.toList <:+: actual.toList))
  | .stringList actual => .ok (actual.contains value)
  | _ => .error (incompatible v)

mutual
def evaluateConditionValidated (vars : VariableMap) (capabilities : List CapabilityKey) :
    ConditionExpr → Except TemplateError Bool
  | .true => .ok true
  | .false => .ok false
  | .equals v value => do return (← requireVariable vars v).eq value
  | .notEquals v value => do return !(← requireVariable vars v).eq value
  | .greaterThan v value => do
    let actual ← numericValue v (← requireVariable vars v)
    return value.lt actual
  | .contains v value => do containsValue v value (← requireVariable vars v)
  | .existsVar v => .ok (vars.get v).isSome
  | .modelSupports capability => .ok (capabilities.contains capability)
  | .all expressions => evaluateAll vars capabilities expressions
  | .any expressions => evaluateAny vars capabilities expressions
  | .not expression => do return !(← evaluateConditionValidated vars capabilities expression)

/-- The loop of an `All` condition: stops at the first false one. -/
def evaluateAll (vars : VariableMap) (capabilities : List CapabilityKey) :
    List ConditionExpr → Except TemplateError Bool
  | [] => .ok true
  | expression :: rest => do
    if ← evaluateConditionValidated vars capabilities expression then
      evaluateAll vars capabilities rest
    else return false

/-- The loop of an `Any` condition: stops at the first true one. -/
def evaluateAny (vars : VariableMap) (capabilities : List CapabilityKey) :
    List ConditionExpr → Except TemplateError Bool
  | [] => .ok false
  | expression :: rest => do
    if ← evaluateConditionValidated vars capabilities expression then return true
    else evaluateAny vars capabilities rest
end

def evaluateCondition (expression : ConditionExpr) (vars : VariableMap)
    (capabilities : List CapabilityKey) : Except TemplateError Bool := do
  mapErr (fun error => .invalid error.display) expression.validate
  evaluateConditionValidated vars capabilities expression

/-! ## Rendering -/

/-- The output text and its length in characters. -/
structure RenderOutput where
  text : String
  chars : Nat

def appendBounded (limit : Nat) (output : RenderOutput) (value : String) :
    Except TemplateError RenderOutput := do
  let nextCount ← okOr (checkedAdd output.chars value.length) (.outputLimit (u32FromSat limit))
  rejectIf (nextCount > limit) (.outputLimit (u32FromSat limit))
  return ⟨output.text ++ value, nextCount⟩

/-- The value loop of a `Join` part, from `index` on. -/
def renderJoin (limit : Nat) (separator : String) :
    Nat → List String → RenderOutput → Except TemplateError RenderOutput
  | _, [], output => .ok output
  | index, value :: rest, output => do
    let output ← if index > 0 then appendBounded limit output separator else .ok output
    let output ← appendBounded limit output value
    renderJoin limit separator (index + 1) rest output

mutual
def renderValidated (lib : Externals) (env : TemplateEnvironment) :
    SafeTemplate → Except TemplateError String
  | ⟨parts, maxOutputChars⟩ => do
    let output ← renderParts lib env maxOutputChars.toNat parts ⟨"", 0⟩
    return output.text

/-- The part loop of `render_validated`. -/
def renderParts (lib : Externals) (env : TemplateEnvironment) (limit : Nat) :
    List TemplatePart → RenderOutput → Except TemplateError RenderOutput
  | [], output => .ok output
  | part :: rest, output => do
    let output ← renderPart lib env limit part output
    renderParts lib env limit rest output

/-- One part of `render_validated`. -/
def renderPart (lib : Externals) (env : TemplateEnvironment) (limit : Nat) :
    TemplatePart → RenderOutput → Except TemplateError RenderOutput
  | .text value, output => appendBounded limit output value
  | .varRef v, output => do
    appendBounded limit output (formatVariable lib (← requireVariable env.vars v))
  | .builtIn value, output => appendBounded limit output (builtInValue env value)
  | .slot name, output => do
    let slot ← okOr (env.slots.find? (fun slot => slot.name = name)) (.missingSlot name)
    appendBounded limit output slot.value
  | .join v separator, output => do
    match ← requireVariable env.vars v with
    | .stringList values => renderJoin limit separator 0 values output
    | _ => .error (incompatible v)
  | .conditional condition thenTemplate elseTemplate, output => do
    if ← evaluateConditionValidated env.vars env.capabilities condition then
      appendBounded limit output (← renderValidated lib env thenTemplate)
    else renderElse lib env limit elseTemplate output

/-- The optional `else` template of a conditional part. -/
def renderElse (lib : Externals) (env : TemplateEnvironment) (limit : Nat) :
    Option SafeTemplate → RenderOutput → Except TemplateError RenderOutput
  | none, output => .ok output
  | some elseTemplate, output => do
    appendBounded limit output (← renderValidated lib env elseTemplate)
end

def renderSafeTemplate (lib : Externals) (template : SafeTemplate) (env : TemplateEnvironment) :
    Except TemplateError String := do
  mapErr (fun error => .invalid error.display) template.validate
  renderValidated lib env template

end LorePia
