import LorePia.Domain.Validate

/-!
# Prompt presets (`crates/domain/src/orchestration.rs`)

`PromptPreset::validate` with the block, control and cache-boundary contracts it enforces.
-/

namespace LorePia

open Base

/-! ## Blocks -/

def promptBlockKindMatchesSource (kind : PromptBlockKind) : BlockSource → Bool
  | .history => kind = .historySlice
  | .latestUser => kind = .latestUserTurn
  | .selectedKnowledge => kind = .worldKnowledge
  | .selectedMemory => kind = .retrievedMemory
  | .conversationSummary => kind = .conversationSummary
  | .authorNote => kind = .authorNote
  | .userPersona => kind = .userPersona
  | .groupContext => kind = .groupContext
  | .characterField field =>
    match field with
    | .name => kind = .characterIdentity
    | .description => kind = .characterDescription
    | .personality => kind = .characterPersonality
    | .scenario => kind = .scenario
    | .dialogueExamples => kind = .dialogueExamples
    | .systemInstruction => kind = .staticInstruction
    | .postHistoryInstruction => kind = .postHistoryInstruction
    | .firstMessage => kind = .staticInstruction ∨ kind = .assistantPrefill
  | .template => ¬ (kind = .characterIdentity ∨ kind = .characterDescription ∨
      kind = .characterPersonality ∨ kind = .scenario ∨ kind = .userPersona ∨
      kind = .dialogueExamples ∨ kind = .worldKnowledge ∨ kind = .retrievedMemory ∨
      kind = .conversationSummary ∨ kind = .historySlice ∨ kind = .latestUserTurn ∨
      kind = .authorNote ∨ kind = .postHistoryInstruction ∨ kind = .groupContext)

/-- The kind-specific restrictions of `validate_prompt_block`. -/
def validatePromptBlockKind (block : PromptBlock) (path : String) : Validation Unit :=
  match block.kind with
  | .latestUserTurn =>
    rejectIf (block.placementZone ≠ .latestUser ∨ block.source ≠ .latestUser ∨ ¬ block.enabled ∨
        block.template.isSome ∨ block.historySelector.isSome ∨ block.roleHint ≠ .user ∨
        block.overflowPolicy ≠ .reject)
      ⟨path, "latest-user block must be enabled, fixed to latest_user, and reject overflow"⟩
  | .assistantPrefill =>
    rejectIf (block.placementZone ≠ .assistantPrefill ∨ block.roleHint ≠ .assistant)
      ⟨s!"{path}.placement_zone", "assistant prefill must use the assistant-prefill zone"⟩
  | _ => .ok ()

/-- `minimum.zip(maximum).is_some_and(|(minimum, maximum)| minimum > maximum)`. -/
def minimumExceedsMaximum (policy : TokenPolicy) : Bool :=
  match policy.minTokens, policy.maxTokens with
  | some minimum, some maximum => minimum > maximum
  | _, _ => false

def validatePromptBlock (block : PromptBlock) (path : String) : Validation Unit := do
  validateId s!"{path}.id" block.id
  validateText s!"{path}.name" block.name 1 maxNameChars
  forSome block.template fun template => validateTemplate template s!"{path}.template"
  forSome block.condition fun condition => validateCondition condition s!"{path}.condition"
  rejectIf (minimumExceedsMaximum block.tokenPolicy)
    ⟨s!"{path}.token_policy", "minimum tokens must not exceed maximum tokens"⟩
  validatePromptBlockKind block path
  rejectIf (decide (block.source = .history) ≠ block.historySelector.isSome)
    ⟨s!"{path}.history_selector", "history selectors are required only for history sources"⟩
  rejectIf (¬ promptBlockKindMatchesSource block.kind block.source)
    ⟨s!"{path}.source", "prompt block kind and source are semantically inconsistent"⟩
  rejectIf (decide (block.placementZone = .applicationPolicy) ≠ decide (block.authority = .application))
    ⟨s!"{path}.authority",
      "application authority is reserved for the fixed application-policy zone"⟩
  validateProvenance block.provenance s!"{path}.provenance"

/-- The block loop of `validate_prompt_preset_blocks`; returns the number of latest-user blocks. -/
def validateBlockOrder : List PromptBlock → Nat → PlacementZone → Nat → Bool → Validation Nat
  | [], _, _, latestUserCount, _ => .ok latestUserCount
  | block :: rest, index, previousZone, latestUserCount, prefillSeen => do
    validatePromptBlock block s!"blocks[{index}]"
    rejectIf (block.placementZone.rank < previousZone.rank)
      ⟨s!"blocks[{index}].placement_zone", "blocks must be ordered by placement zone"⟩
    rejectIf prefillSeen ⟨s!"blocks[{index}]", "assistant prefill must be the final block"⟩
    validateBlockOrder rest (index + 1) block.placementZone
      (if block.kind = .latestUserTurn then latestUserCount + 1 else latestUserCount)
      (block.kind = .assistantPrefill)

def validatePromptPresetBlocks (preset : PromptPreset) : Validation Unit := do
  let latestUserCount ← validateBlockOrder preset.blocks 0 .applicationPolicy 0 false
  rejectIf (hasDuplicate (preset.blocks.map (·.id)))
    ⟨"blocks", "block identifiers must be unique"⟩
  rejectIf (latestUserCount ≠ 1) ⟨"blocks", "exactly one latest-user block is required"⟩

/-! ## Controls -/

/-- The value types a control of each kind may declare. -/
def controlAcceptsType : ControlKind → VariableType → Bool
  | .toggle, .bool | .select, .enum | .multiSelect, .stringList | .text, .text => true
  | .number, .integer | .number, .decimal | .slider, .integer | .slider, .decimal => true
  | _, _ => false

/-- The types an option's value may have. -/
def optionAcceptsType : ControlKind → VariableType → Bool
  | .select, .enum | .multiSelect, .text | .multiSelect, .enum => true
  | _, _ => false

def validateControlBinding (control : ControlSpec) (path : String) : Validation Unit :=
  if control.kind = .section ∨ control.kind = .caption ∨ control.kind = .divider then
    rejectIf (control.valueType.isSome ∨ control.var.isSome ∨ control.defaultValue.isSome ∨
        ¬ control.options.isEmpty ∨ control.minimum.isSome ∨ control.maximum.isSome ∨
        control.step.isSome ∨ control.sensitive)
      ⟨path, "presentation-only controls cannot bind, default, constrain, or expose a value"⟩
  else do
    let valueType ← okOr control.valueType
      ⟨s!"{path}.value_type", "interactive controls require a declared value type"⟩
    let v ← okOr control.var
      ⟨s!"{path}.variable", "interactive controls require a variable binding"⟩
    validateVariableRef v s!"{path}.variable"
    rejectIf (v.scope ≠ control.scope)
      ⟨s!"{path}.scope", "control scope must match its variable binding"⟩
    rejectIf (¬ controlAcceptsType control.kind valueType)
      ⟨s!"{path}.value_type", "value type is incompatible with the control kind"⟩

def validateControlDefault (control : ControlSpec) (path : String) : Validation Unit :=
  forSome control.defaultValue fun value => do
    validateVariableValue value s!"{path}.default_value"
    rejectIf (control.valueType.any (fun valueType => variableValueType value ≠ valueType))
      ⟨s!"{path}.default_value", "default value does not match the declared value type"⟩

/-- One option of `validate_control_options`; returns its encoding. -/
def validateControlOption (lib : Externals) (control : ControlSpec) (path : String) (index : Nat)
    (option : ControlOption) : Validation String := do
  validateVariableValue option.value s!"{path}.options[{index}].value"
  validateText s!"{path}.options[{index}].label" option.label 1 maxNameChars
  rejectIf (¬ optionAcceptsType control.kind (variableValueType option.value))
    ⟨s!"{path}.options[{index}].value",
      "only select controls may declare compatible option values"⟩
  mapErr (fun error => ⟨s!"{path}.options[{index}].value", s!"cannot encode option value: {error}"⟩)
    (lib.variableValueToString option.value)

/-- Whether a multi-select default names the text of an option. -/
def ControlOption.hasText (option : ControlOption) (text : String) : Bool :=
  match option.value with
  | .text value | .enum value => value = text
  | _ => false

def validateControlOptions (lib : Externals) (control : ControlSpec) (path : String) :
    Validation Unit := do
  rejectIf (control.options.length > maxVariableListItems)
    ⟨s!"{path}.options", s!"must contain at most {maxVariableListItems} options"⟩
  let encodedOptions ← mapIdx (validateControlOption lib control path) control.options
  rejectIf (hasDuplicate encodedOptions) ⟨s!"{path}.options", "option values must be unique"⟩
  rejectIf ((control.kind = .select ∨ control.kind = .multiSelect) ∧ control.options.isEmpty)
    ⟨s!"{path}.options", "select controls require at least one option"⟩
  match control.kind, control.defaultValue with
  | .select, some defaultValue =>
    rejectIf (¬ control.options.any (fun option => option.value.eq defaultValue))
      ⟨s!"{path}.default_value", "select default value must be one of the declared options"⟩
  | .multiSelect, some (.stringList defaultValues) =>
    forIdx (fun index defaultValue =>
      rejectIf (¬ control.options.any (fun option => option.hasText defaultValue))
        ⟨s!"{path}.default_value[{index}]", "multi-select defaults must be declared options"⟩)
      defaultValues
  | _, _ => .ok ()

def validateControlNumericBounds (control : ControlSpec) (path : String) : Validation Unit := do
  rejectIf (control.minimum.any (¬ ·.isFinite) ∨ control.maximum.any (¬ ·.isFinite) ∨
      control.step.any (fun value => ¬ value.isFinite ∨ ¬ value.isNaN ∧ value.scaled ≤ 0))
    ⟨path, "numeric bounds must be finite and step must be positive"⟩
  rejectIf (control.minimum.any fun minimum => control.maximum.any fun maximum => maximum.lt minimum)
    ⟨path, "minimum must not exceed maximum"⟩
  rejectIf (¬ (control.kind = .number ∨ control.kind = .slider) ∧
      (control.minimum.isSome ∨ control.maximum.isSome ∨ control.step.isSome))
    ⟨path, "only number and slider controls may declare numeric bounds"⟩
  rejectIf (control.kind = .slider ∧ (control.minimum.isNone ∨ control.maximum.isNone))
    ⟨path, "slider controls require both minimum and maximum"⟩
  let numericDefault := match control.defaultValue with
    | some (.integer value) => some (f64OfInt value)
    | some (.decimal value) => some value
    | _ => none
  rejectIf (numericDefault.any fun value =>
      control.minimum.any (value.lt ·) || control.maximum.any (·.lt value))
    ⟨s!"{path}.default_value", "numeric default value must fall within the declared bounds"⟩

def validateControl (lib : Externals) (control : ControlSpec) (path : String) : Validation Unit := do
  validateId s!"{path}.id" control.id
  validateText s!"{path}.label" control.label 1 maxNameChars
  validateText s!"{path}.description" control.description 0 4096
  validateControlBinding control path
  validateControlDefault control path
  validateControlOptions lib control path
  validateControlNumericBounds control path
  forSome control.visibleWhen fun condition => validateCondition condition s!"{path}.visible_when"

/-! ## The preset -/

def validatePromptPresetReferences (preset : PromptPreset) : Validation Unit := do
  validateVariableMap preset.defaultValues "default_values"
  validateIdList "knowledge_book_ids" preset.knowledgeBookIds 128
  validateIdList "transform_set_ids" preset.transformSetIds 128
  validateIdList "module_ids" preset.moduleIds 128
  rejectIf (preset.metadata.tags.length > 64) ⟨"metadata.tags", "must contain at most 64 tags"⟩
  forIdx (fun index tag => validateText s!"metadata.tags[{index}]" tag 1 128) preset.metadata.tags

def validatePromptPresetControls (lib : Externals) (preset : PromptPreset) : Validation Unit := do
  forIdx (fun index control => validateControl lib control s!"controls[{index}]") preset.controls
  rejectIf (hasDuplicate (preset.controls.map (·.id)))
    ⟨"controls", "control identifiers must be unique"⟩

def validatePromptPresetCacheBoundaries (preset : PromptPreset) : Validation Unit := do
  rejectIf (preset.cacheBoundaries.length > 32)
    ⟨"cache_boundaries", "must contain at most 32 boundaries"⟩
  forIdx (fun index boundary => do
    validateId s!"cache_boundaries[{index}].id" boundary.id
    rejectIf (¬ preset.blocks.any (fun block => block.id = boundary.afterBlockId))
      ⟨s!"cache_boundaries[{index}].after_block_id", "must reference a block in the preset"⟩)
    preset.cacheBoundaries

def PromptPreset.validate (lib : Externals) (preset : PromptPreset) : Validation Unit := do
  validateId "id" preset.id
  validateText "name" preset.name 1 maxNameChars
  rejectIf (preset.schemaVersion = 0) ⟨"schema_version", "must be positive"⟩
  rejectIf (preset.blocks.isEmpty ∨ preset.blocks.length > maxPromptBlocks)
    ⟨"blocks", s!"must contain between 1 and {maxPromptBlocks} blocks"⟩
  rejectIf (preset.controls.length > maxPromptControls)
    ⟨"controls", s!"must contain at most {maxPromptControls} controls"⟩
  validatePromptPresetReferences preset
  validatePromptPresetBlocks preset
  validatePromptPresetControls lib preset
  validatePromptPresetCacheBoundaries preset
  validateProvenance preset.metadata.provenance "metadata.provenance"

end LorePia
