import LorePia.Base.Result
import LorePia.Base.Sort
import LorePia.Base.Word
import LorePia.Domain.Prompt

/-!
# Field validators (`crates/domain/src/orchestration.rs`)

The checks shared by every persisted document: bounded text, identifiers, digests, provenance,
variables, conditions and templates. Each returns the first violation with its field path. The
counters that the source threads as `&mut usize` are threaded as arguments and results.
-/

namespace LorePia

open Base

structure OrchestrationValidationError where
  path : String
  reason : String
deriving DecidableEq

abbrev Validation := Except OrchestrationValidationError

/-- `Display`: `{path}: {reason}`. -/
def OrchestrationValidationError.display (error : OrchestrationValidationError) : String :=
  s!"{error.path}: {error.reason}"

def promptPlanSchemaVersion : UInt32 := 1
def maxPromptBlocks : Nat := 256
def maxPromptControls : Nat := 256
def maxVariables : Nat := 512
def maxTemplateNodes : Nat := 1024
def maxTemplateDepth : Nat := 16
def maxConditionNodes : Nat := 512
def maxConditionDepth : Nat := 16
def maxTemplateOutputChars : Nat := 262144
def maxBlockTextChars : Nat := 262144
def maxHistoryMessages : Nat := 16384
def maxKnowledgeEntries : Nat := 4096
def maxMemoryRecords : Nat := 4096
def maxModuleComponents : Nat := 8192
def maxSafeRegexChars : Nat := 4096
def maxIdentifierChars : Nat := 256
def maxNameChars : Nat := 512
def maxVariableTextChars : Nat := 16384
def maxKnowledgeEntryTextChars : Nat := 65536
def maxVariableListItems : Nat := 256

/-! ## Text -/

def validateText (path value : String) (minimumChars maximumChars : Nat) : Validation Unit := do
  rejectIf (value.length < minimumChars ∨ value.length > maximumChars)
    ⟨path, s!"must contain between {minimumChars} and {maximumChars} characters"⟩
  rejectIf (value.toList.any (· = Char.ofNat 0)) ⟨path, "must not contain NUL"⟩

def validateId (path value : String) : Validation Unit :=
  validateText path value 1 maxIdentifierChars

def validateIdList (path : String) (values : List String) (maximum : Nat) : Validation Unit := do
  rejectIf (values.length > maximum) ⟨path, s!"must contain at most {maximum} identifiers"⟩
  forIdx (fun index value => validateId s!"{path}[{index}]" value) values
  rejectIf (hasDuplicate values) ⟨path, "identifiers must be unique"⟩

/-- A digit of `hex::encode`. -/
def hexDigit (n : Nat) : Char := if n < 10 then Char.ofNat (48 + n) else Char.ofNat (87 + n)

/-- `hex::encode`. -/
def hexEncode (bytes : List UInt8) : String :=
  String.ofList (bytes.flatMap fun b => [hexDigit (b.toNat / 16), hexDigit (b.toNat % 16)])

/-- `byte.is_ascii_uppercase()` for some byte of the character. -/
def isAsciiUppercase (c : Char) : Bool := 65 ≤ c.toNat && c.toNat ≤ 90

/-- A digit that `hex::decode` accepts. -/
def isHexDigit (c : Char) : Bool :=
  (48 ≤ c.toNat && c.toNat ≤ 57) || (97 ≤ c.toNat && c.toNat ≤ 102) ||
    (65 ≤ c.toNat && c.toNat ≤ 70)

/-- `hex::decode(value).is_ok()`. -/
def hexDecodes (value : String) : Bool :=
  value.utf8ByteSize % 2 = 0 && value.toList.all isHexDigit

def validateSha256 (path value : String) : Validation Unit :=
  rejectIf (value.utf8ByteSize ≠ 64 ∨ value.toList.any isAsciiUppercase ∨ ¬ hexDecodes value)
    ⟨path, "must be a lowercase 64-character SHA-256 digest"⟩

def validateProvenance (provenance : Provenance) (path : String) : Validation Unit := do
  forSome provenance.sourceId fun sourceId => validateText s!"{path}.source_id" sourceId 1 1024
  forSome provenance.sourceHash fun sourceHash => validateSha256 s!"{path}.source_hash" sourceHash
  forSome provenance.author fun author => validateText s!"{path}.author" author 1 maxNameChars
  forSome provenance.license fun license => validateText s!"{path}.license" license 1 maxNameChars

/-! ## Variables -/

def validateVariableRef (v : VariableRef) (path : String) : Validation Unit := do
  validateId s!"{path}.id" v.id
  match v.scope, v.ns with
  | .module, some ns => validateId s!"{path}.namespace" ns
  | .module, none => .error ⟨s!"{path}.namespace", "module variables require a module namespace"⟩
  | _, some _ => .error ⟨s!"{path}.namespace", "only module variables may carry a module namespace"⟩
  | _, none => .ok ()

def validateVariableValue (value : VariableValue) (path : String) : Validation Unit :=
  match value with
  | .decimal value => rejectIf (¬ value.isFinite) ⟨path, "decimal must be finite"⟩
  | .text value => validateText path value 0 maxVariableTextChars
  | .enum value => validateText path value 0 maxVariableTextChars
  | .stringList values => do
    rejectIf (values.length > maxVariableListItems)
      ⟨path, s!"must contain at most {maxVariableListItems} values"⟩
    forIdx (fun index value => validateText s!"{path}[{index}]" value 0 maxBlockTextChars) values
  | _ => .ok ()

def variableValueType : VariableValue → VariableType
  | .bool _ => .bool
  | .integer _ => .integer
  | .decimal _ => .decimal
  | .text _ => .text
  | .enum _ => .enum
  | .stringList _ => .stringList

def validateVariableMap (values : VariableMap) (path : String) : Validation Unit := do
  rejectIf (values.values.length > maxVariables)
    ⟨path, s!"must contain at most {maxVariables} variables"⟩
  forIdx (fun index binding => do
    validateVariableRef binding.var s!"{path}[{index}].variable"
    validateVariableValue binding.value s!"{path}[{index}].value") values.values
  rejectIf (hasDuplicate (values.values.map (·.var)))
    ⟨path, "variable references must be unique"⟩

/-! ## Conditions and templates -/

mutual
/-- `visit` of `validate_condition`; returns the node counter. -/
def visitCondition : ConditionExpr → String → Nat → Nat → Validation Nat
  | expression, path, depth, nodes => do
    rejectIf (depth > maxConditionDepth) ⟨path, s!"condition nesting exceeds {maxConditionDepth}"⟩
    rejectIf (nodes + 1 > maxConditionNodes) ⟨path, s!"condition nodes exceed {maxConditionNodes}"⟩
    match expression with
    | .equals v value | .notEquals v value =>
      validateVariableRef v s!"{path}.variable"
      validateVariableValue value s!"{path}.value"
      return nodes + 1
    | .greaterThan v value =>
      validateVariableRef v s!"{path}.variable"
      rejectIf (¬ value.isFinite) ⟨s!"{path}.value", "comparison value must be finite"⟩
      return nodes + 1
    | .contains v value =>
      validateVariableRef v s!"{path}.variable"
      validateText s!"{path}.value" value 0 maxBlockTextChars
      return nodes + 1
    | .existsVar v =>
      validateVariableRef v s!"{path}.variable"
      return nodes + 1
    | .all expressions | .any expressions =>
      rejectIf expressions.isEmpty ⟨path, "logical conditions must contain at least one expression"⟩
      visitConditions expressions path depth 0 (nodes + 1)
    | .not expression => visitCondition expression s!"{path}.not" (depth + 1) (nodes + 1)
    | .true | .false | .modelSupports _ => return nodes + 1

/-- The children of a logical condition, from `index` on. -/
def visitConditions : List ConditionExpr → String → Nat → Nat → Nat → Validation Nat
  | [], _, _, _, nodes => .ok nodes
  | child :: rest, path, depth, index, nodes => do
    let nodes ← visitCondition child s!"{path}[{index}]" (depth + 1) nodes
    visitConditions rest path depth (index + 1) nodes
end

def validateCondition (expression : ConditionExpr) (path : String) : Validation Unit := do
  let _ ← visitCondition expression path 0 0
  .ok ()

mutual
/-- `visit` of `validate_template`; returns the node counter. -/
def visitTemplate : SafeTemplate → String → Nat → Nat → Validation Nat
  | ⟨parts, maxOutputChars⟩, path, depth, nodes => do
    rejectIf (depth > maxTemplateDepth) ⟨path, s!"template nesting exceeds {maxTemplateDepth}"⟩
    rejectIf (maxOutputChars = 0 ∨ maxOutputChars.toNat > maxTemplateOutputChars)
      ⟨s!"{path}.max_output_chars", s!"must be between 1 and {maxTemplateOutputChars}"⟩
    visitParts parts path depth 0 nodes

/-- The parts of a template, from `index` on. -/
def visitParts : List TemplatePart → String → Nat → Nat → Nat → Validation Nat
  | [], _, _, _, nodes => .ok nodes
  | part :: rest, path, depth, index, nodes => do
    rejectIf (nodes + 1 > maxTemplateNodes) ⟨path, s!"template nodes exceed {maxTemplateNodes}"⟩
    let nodes ← visitPart part s!"{path}.parts[{index}]" depth (nodes + 1)
    visitParts rest path depth (index + 1) nodes

/-- One part of a template. -/
def visitPart : TemplatePart → String → Nat → Nat → Validation Nat
  | .text value, partPath, _, nodes => do
    validateText partPath value 0 maxBlockTextChars
    return nodes
  | .varRef v, partPath, _, nodes => do
    validateVariableRef v s!"{partPath}.variable"
    return nodes
  | .join v separator, partPath, _, nodes => do
    validateVariableRef v s!"{partPath}.variable"
    validateText s!"{partPath}.separator" separator 0 maxNameChars
    return nodes
  | .slot name, partPath, _, nodes => do
    validateText s!"{partPath}.name" name 1 maxNameChars
    return nodes
  | .conditional condition thenTemplate elseTemplate, partPath, depth, nodes => do
    validateCondition condition s!"{partPath}.condition"
    let nodes ← visitTemplate thenTemplate s!"{partPath}.then_template" (depth + 1) nodes
    visitElse elseTemplate partPath depth nodes
  | .builtIn _, _, _, nodes => .ok nodes

/-- The optional `else` template of a conditional part. -/
def visitElse : Option SafeTemplate → String → Nat → Nat → Validation Nat
  | none, _, _, nodes => .ok nodes
  | some elseTemplate, partPath, depth, nodes =>
    visitTemplate elseTemplate s!"{partPath}.else_template" (depth + 1) nodes
end

def validateTemplate (template : SafeTemplate) (path : String) : Validation Unit := do
  let _ ← visitTemplate template path 0 0
  .ok ()

def ConditionExpr.validate (expression : ConditionExpr) : Validation Unit :=
  validateCondition expression "condition"

def SafeTemplate.validate (template : SafeTemplate) : Validation Unit :=
  validateTemplate template "template"

end LorePia
