import LorePia.Base.Utf8
import LorePia.Domain.Transform
import LorePia.Orchestration.InteractionEngine

/-!
# The transform pipeline (`crates/orchestration/src/transforms.rs`)

`TransformPipeline::compile_with_options` compiles the rules of some sets and sorts them;
`TransformPipeline::apply` runs the rules of one phase over a text and reports on each of them.

The regex engine and SHA-256 are the fields of `TransformExternals`. A compiled regex lists the names of
its groups and, for a text, the spans of the groups of its matches in bytes. A slice off a character
boundary or out of order panics: `replace_bounded` stops with `panicked`, and `apply` returns `none`.
-/

namespace LorePia

open Base

/-! ## The regex crate -/

/-- The byte range of a match. -/
structure Span where
  start : Nat
  stop : Nat

/-- `regex::Captures`: the spans of the groups that took part in a match; group `0` is the match. -/
abbrev Captures := List (Option Span)

/-- `captures.get(index)`. -/
def Captures.get (captures : Captures) (index : Nat) : Option Span := captures[index]?.join

/-- A compiled `regex::Regex`. -/
structure Regex where
  /-- `capture_names`: one item for each group, the unnamed group `0` first. -/
  captureNames : List (Option String)
  /-- `captures_iter`. -/
  capturesIter : String → List Captures

def Regex.capturesLen (regex : Regex) : Nat := regex.captureNames.length

/-- `captures.name(name)`. -/
def Regex.named (regex : Regex) (captures : Captures) (name : String) : Option Span :=
  (regex.captureNames.findIdx? (· = some name)).bind captures.get

structure TransformExternals where
  /-- `Sha256::digest`. -/
  sha256 : List UInt8 → Vector UInt8 32
  /-- `RegexBuilder::build` for a pattern, its case flag and the two size limits. -/
  buildRegex : String → Bool → Nat → Nat → Except String Regex

/-! ## Limits, reports and failures -/

structure TransformLimits where
  maxSets : Nat
  maxRules : Nat
  maxRulesPerPhase : Nat
  maxInputChars : Nat
  maxOutputChars : Nat
  maxPatternChars : Nat
  maxReplacementChars : Nat
  maxReplacementsPerRule : UInt32
  regexSizeLimitBytes : Nat
  regexDfaSizeLimitBytes : Nat
  maxDiffChars : Nat
  maxConditionDepth : Nat
  maxConditionNodes : Nat

inductive TransformFailureCode
  | invalidLimits | tooManySets | tooManyRules | tooManyRulesForPhase | duplicateSetId | duplicateRuleId
  | invalidIdentifier | invalidRuleLimit | patternTooLarge | replacementTooLarge | invalidRegex
  | invalidReplacement | inputLimitExceeded | outputLimitExceeded | conditionFailed
  | importedRuleMissingSource
deriving DecidableEq

structure TransformFailure where
  code : TransformFailureCode
  message : String
deriving DecidableEq

abbrev Transform := Except TransformFailure

def TransformLimits.validate (limits : TransformLimits) : Transform Unit :=
  rejectIf (limits.maxSets = 0 ∨ limits.maxRules = 0 ∨ limits.maxRulesPerPhase = 0 ∨
      limits.maxInputChars = 0 ∨ limits.maxOutputChars = 0 ∨ limits.maxPatternChars = 0 ∨
      limits.maxReplacementChars = 0 ∨ limits.maxReplacementsPerRule = 0 ∨
      limits.regexSizeLimitBytes = 0 ∨ limits.regexDfaSizeLimitBytes = 0 ∨ limits.maxDiffChars = 0 ∨
      limits.maxConditionDepth = 0 ∨ limits.maxConditionNodes = 0)
    ⟨.invalidLimits, "all transform limits must be non-zero"⟩

structure TransformApplyOptions where
  allowResolvedPrompt : Bool

structure TransformContext where
  vars : VariableMap
  modelCapabilities : List CapabilityKey

inductive TransformRuleStatus
  | applied | noMatch | disabled | pendingImportApproval | resolvedPromptDisabled | conditionFalse | failed
deriving DecidableEq

structure TransformDiff where
  unchangedPrefixChars : UInt32
  beforeFragment : String
  afterFragment : String
  unchangedSuffixChars : UInt32
  truncated : Bool
deriving DecidableEq

structure TransformRuleExecutionAudit where
  setId : TransformSetId
  beforeSha256 : String
  afterSha256 : Option String
  failureCode : Option TransformFailureCode
deriving DecidableEq

structure TransformRuleReport where
  trace : TransformTrace
  status : TransformRuleStatus
  diff : Option TransformDiff
  executionAudit : Option TransformRuleExecutionAudit
deriving DecidableEq

inductive TransformOutputRendering
  | nativePlainText
deriving DecidableEq

structure TransformResult where
  phase : TransformPhase
  original : String
  output : String
  changed : Bool
  rendering : TransformOutputRendering
  reports : List TransformRuleReport
  diff : Option TransformDiff
  error : Option TransformFailure
deriving DecidableEq

/-! ## Compiled rules -/

inductive ReplacementToken
  | literal (value : String)
  | captureIndex (index : Nat)
  | captureName (name : String)
deriving DecidableEq

inductive CompiledPattern
  | ready (regex : Regex) (replacement : List ReplacementToken)
  | invalid (error : TransformFailure)

/-- `CompiledRule`. -/
structure CompiledTransform where
  setId : TransformSetId
  setEnabled : Bool
  rule : TransformRule
  approvedForExecution : Bool
  outputLimitChars : Nat
  compiled : CompiledPattern

structure TransformPipeline where
  rules : List CompiledTransform
  limits : TransformLimits

def phaseIndex : TransformPhase → Nat
  | .userInputForRequest => 0
  | .resolvedPrompt => 1
  | .providerOutputCanonical => 2
  | .displayOnly => 3
  | .memoryInput => 4

/-- The `Debug` form of a phase. -/
def TransformPhase.debug : TransformPhase → String
  | .userInputForRequest => "UserInputForRequest"
  | .resolvedPrompt => "ResolvedPrompt"
  | .providerOutputCanonical => "ProviderOutputCanonical"
  | .displayOnly => "DisplayOnly"
  | .memoryInput => "MemoryInput"

/-- `validate_identifier`. -/
def validateTransformIdentifier (label value : String) : Transform Unit :=
  rejectIf (value.isEmpty ∨ value.utf8ByteSize > 128 ∨ value.toList.all isIdentifierCharacter = false)
    ⟨.invalidIdentifier,
      s!"{label} must contain only ASCII letters, digits, `.`, `_`, or `-` and fit 128 bytes"⟩

/-- `imported_source_id`. -/
def transformSourceId (provenance : Provenance) : Transform (Option String) :=
  if provenance.isImported then do
    let sourceId ← okOr provenance.sourceId
      ⟨.importedRuleMissingSource, "imported transform content requires a provenance source ID"⟩
    return some sourceId
  else .ok none

def transformRuleIsApproved (setProvenance : Provenance) (rule : TransformRule)
    (approvedImportSourceIds : List String) : Transform Bool := do
  let setSource ← transformSourceId setProvenance
  let ruleSource ← transformSourceId rule.provenance
  match setSource with
  | some setSource =>
    rejectIf (ruleSource ≠ some setSource) ⟨.importedRuleMissingSource,
      "an imported transform set may contain only rules from the same imported source"⟩
    return rule.importedEnabled && setSource ∈ approvedImportSourceIds
  | none =>
    return ruleSource.all fun source => rule.importedEnabled && source ∈ approvedImportSourceIds

/-! ## Replacements -/

/-- `capture.parse::<usize>()` of some digits. -/
def parseUsize (digits : List Char) : Option Nat :=
  let value := digits.foldl (fun value digit => value * 10 + (digit.toNat - 48)) 0
  if value ≤ usizeMax then some value else none

/-- The token of a capture reference. -/
def captureToken (regex : Regex) (capture : List Char) : Transform ReplacementToken :=
  let unknown : TransformFailure :=
    ⟨.invalidReplacement, s!"replacement references unknown capture `${String.ofList capture}`"⟩
  if capture.all Char.isDigit then do
    let index ← okOr (parseUsize capture)
      ⟨.invalidReplacement, "replacement capture index is too large"⟩
    rejectIf (index ≥ regex.capturesLen) unknown
    return .captureIndex index
  else do
    rejectIf (¬ some (String.ofList capture) ∈ regex.captureNames) unknown
    return .captureName (String.ofList capture)

/-- The tokens with the text since `literal_start`. -/
def flushLiteral (tokens : List ReplacementToken) (literal : List Char) : List ReplacementToken :=
  if literal.isEmpty then tokens else tokens ++ [ReplacementToken.literal (String.ofList literal)]

/-- `byte.is_ascii_alphanumeric() || byte == b'_'`. -/
def isCaptureCharacter (c : Char) : Bool := c.isAlphanum || c = '_'

/-- The loop of `parse_replacement` over the rest of the source, with the text since `literal_start`. Every
round consumes a character, so the length of the source is enough fuel. -/
def parseReplacementFrom (regex : Regex) : Nat → List ReplacementToken → List Char → List Char →
    Transform (List ReplacementToken)
  | _, tokens, literal, [] => .ok (flushLiteral tokens literal)
  | 0, tokens, _, _ => .ok tokens
  | fuel + 1, tokens, literal, '$' :: rest =>
    let tokens := flushLiteral tokens literal
    match rest with
    | [] => .error ⟨.invalidReplacement,
        "replacement has a dangling `$`; use `$$` for a literal dollar sign"⟩
    | '$' :: rest => parseReplacementFrom regex fuel (tokens ++ [ReplacementToken.literal "$"]) [] rest
    | '{' :: rest => do
      rejectIf ('}' ∉ rest) ⟨.invalidReplacement, "replacement capture has no closing `\x7d`"⟩
      let capture := rest.takeWhile (· ≠ '}')
      rejectIf capture.isEmpty ⟨.invalidReplacement, "replacement capture name cannot be empty"⟩
      let token ← captureToken regex capture
      parseReplacementFrom regex fuel (tokens ++ [token]) [] ((rest.dropWhile (· ≠ '}')).drop 1)
    | rest => do
      let capture := rest.takeWhile isCaptureCharacter
      rejectIf capture.isEmpty ⟨.invalidReplacement,
        "replacement `$` must be followed by `$`, a capture number, or a capture name"⟩
      let token ← captureToken regex capture
      parseReplacementFrom regex fuel (tokens ++ [token]) [] (rest.dropWhile isCaptureCharacter)
  | fuel + 1, tokens, literal, c :: rest =>
    parseReplacementFrom regex fuel tokens (literal ++ [c]) rest

def parseReplacement (source : String) (regex : Regex) : Transform (List ReplacementToken) :=
  parseReplacementFrom regex source.length [] [] source.toList

def compileRulePattern (lib : TransformExternals) (rule : TransformRule) (limits : TransformLimits) :
    CompiledPattern :=
  if rule.pattern.pattern.length > limits.maxPatternChars then
    .invalid ⟨.patternTooLarge,
      s!"rule `{rule.id}` regex pattern exceeds the configured character limit"⟩
  else if rule.replacement.length > limits.maxReplacementChars then
    .invalid ⟨.replacementTooLarge,
      s!"rule `{rule.id}` replacement exceeds the configured character limit"⟩
  else
    match lib.buildRegex rule.pattern.pattern rule.pattern.caseInsensitive limits.regexSizeLimitBytes
        limits.regexDfaSizeLimitBytes with
    | .error error => .invalid ⟨.invalidRegex, s!"rule `{rule.id}` regex is invalid: {error}"⟩
    | .ok regex =>
      match parseReplacement rule.replacement regex with
      | .error error => .invalid error
      | .ok replacement => .ready regex replacement

/-! ## Compiling -/

/-- The rules of each phase that were counted, `[usize; 5]`. -/
abbrev PhaseCounts := TransformPhase → Nat

/-- `counts[phase_index] = counts[phase_index].saturating_add(1)`. -/
def PhaseCounts.bump (counts : PhaseCounts) (phase : TransformPhase) : PhaseCounts :=
  fun other => if other = phase then min (counts other + 1) usizeMax else counts other

/-- What `compile_with_options` has collected: the set ids and rule ids seen, the phase counts of all sets
and of the current one, and the rules. -/
structure TransformCompileState where
  setIds : List TransformSetId
  ids : List TransformRuleId
  phaseCounts : PhaseCounts
  setPhaseCounts : PhaseCounts
  rules : List CompiledTransform

/-- One rule of a set. -/
def compileTransformRule (lib : TransformExternals) (limits : TransformLimits)
    (approvedImportSourceIds : List String) (set : TransformSet) (state : TransformCompileState)
    (rule : TransformRule) : Transform TransformCompileState := do
  validateTransformIdentifier "transform rule id" rule.id
  rejectIf (rule.id ∈ state.ids)
    ⟨.duplicateRuleId, s!"duplicate transform rule id `{rule.id}`"⟩
  let setPhaseCounts := state.setPhaseCounts.bump rule.phase
  let phaseCounts := state.phaseCounts.bump rule.phase
  rejectIf (setPhaseCounts rule.phase > set.maxRulesPerPhase.toNat ∨
      phaseCounts rule.phase > limits.maxRulesPerPhase)
    ⟨.tooManyRulesForPhase, s!"transform phase {rule.phase.debug} exceeds its configured rule limit"⟩
  rejectIf (rule.inputLimit.toNat = 0 ∨ rule.inputLimit.toNat > limits.maxInputChars ∨
      rule.outputLimit.toNat = 0 ∨ rule.outputLimit.toNat > set.maxOutputChars.toNat ∨
      rule.maxReplacements = 0 ∨ rule.maxReplacements > limits.maxReplacementsPerRule)
    ⟨.invalidRuleLimit,
      s!"transform rule `{rule.id}` has an invalid input, output, or replacement limit"⟩
  let approvedForExecution ← transformRuleIsApproved set.provenance rule approvedImportSourceIds
  return { state with
    ids := state.ids ++ [rule.id]
    phaseCounts := phaseCounts
    setPhaseCounts := setPhaseCounts
    rules := state.rules ++ [{
      setId := set.id
      setEnabled := set.enabled
      rule := rule
      approvedForExecution := approvedForExecution
      outputLimitChars := min rule.outputLimit.toNat set.maxOutputChars.toNat
      compiled := compileRulePattern lib rule limits }] }

/-- One set. -/
def compileTransformSet (lib : TransformExternals) (limits : TransformLimits)
    (approvedImportSourceIds : List String) (state : TransformCompileState) (set : TransformSet) :
    Transform TransformCompileState := do
  validateTransformIdentifier "transform set id" set.id
  rejectIf (set.id ∈ state.setIds) ⟨.duplicateSetId, s!"duplicate transform set id `{set.id}`"⟩
  rejectIf (set.maxRulesPerPhase.toNat = 0 ∨ set.maxRulesPerPhase.toNat > limits.maxRulesPerPhase)
    ⟨.invalidRuleLimit,
      s!"transform set `{set.id}` phase rule limit must be within 1..={limits.maxRulesPerPhase}"⟩
  rejectIf (set.maxOutputChars.toNat = 0 ∨ set.maxOutputChars.toNat > limits.maxOutputChars)
    ⟨.invalidRuleLimit,
      s!"transform set `{set.id}` output limit must be within 1..={limits.maxOutputChars}"⟩
  set.rules.foldlM (compileTransformRule lib limits approvedImportSourceIds set)
    { state with setIds := state.setIds ++ [set.id], setPhaseCounts := fun _ => 0 }

/-- The order of the rules: phase, order, rule id, set id. -/
def transformLe (left right : CompiledTransform) : Bool :=
  lexLe [compare (phaseIndex left.rule.phase) (phaseIndex right.rule.phase),
    compare left.rule.order right.rule.order, compare left.rule.id right.rule.id,
    compare left.setId right.setId]

/-- `TransformPipeline::compile_with_options`. -/
def compileTransforms (lib : TransformExternals) (sets : List TransformSet) (limits : TransformLimits)
    (approvedImportSourceIds : List String) : Transform TransformPipeline := do
  limits.validate
  rejectIf (sets.length > limits.maxSets) ⟨.tooManySets,
    s!"transform set count {sets.length} exceeds limit {limits.maxSets}"⟩
  let totalRules ← okOr (sets.foldlM (fun count set => checkedAdd count set.rules.length) 0)
    ⟨.tooManyRules, "transform rule count overflowed"⟩
  rejectIf (totalRules > limits.maxRules)
    ⟨.tooManyRules, s!"transform rule count {totalRules} exceeds limit {limits.maxRules}"⟩
  let compiled ← sets.foldlM (compileTransformSet lib limits approvedImportSourceIds)
    ⟨[], [], fun _ => 0, fun _ => 0, []⟩
  return ⟨stableSort transformLe compiled.rules, limits⟩

/-! ## Bounded replacement -/

/-- Why `replace_bounded` stops: a failure that it returns, or a slice that panics. -/
inductive TransformStop
  | failed (failure : TransformFailure)
  | panicked

/-- The output so far and the number of its characters. -/
structure BoundedText where
  output : String
  outputChars : Nat

def pushBounded (maxOutputChars : Nat) (text : BoundedText) (value : String) :
    Except TransformStop BoundedText := do
  let nextChars ← okOr (checkedAdd text.outputChars value.length)
    (.failed ⟨.outputLimitExceeded, "transform output length overflowed"⟩)
  rejectIf (nextChars > maxOutputChars) (.failed ⟨.outputLimitExceeded,
    s!"transform output would exceed {maxOutputChars} characters"⟩)
  return ⟨text.output ++ value, nextChars⟩

/-- The text of a capture, when it took part in the match. -/
def pushCapture (input : String) (maxOutputChars : Nat) (text : BoundedText) (capture : Option Span) :
    Except TransformStop BoundedText :=
  match capture with
  | some span => do
    let value ← okOr (sliceBytes input span.start span.stop) .panicked
    pushBounded maxOutputChars text value
  | none => .ok text

/-- One token of a replacement. -/
def expandToken (regex : Regex) (input : String) (captures : Captures) (maxOutputChars : Nat)
    (text : BoundedText) : ReplacementToken → Except TransformStop BoundedText
  | .literal value => pushBounded maxOutputChars text value
  | .captureIndex index => pushCapture input maxOutputChars text (captures.get index)
  | .captureName name => pushCapture input maxOutputChars text (regex.named captures name)

def expandReplacement (regex : Regex) (input : String) (captures : Captures)
    (replacement : List ReplacementToken) (maxOutputChars : Nat) (text : BoundedText) :
    Except TransformStop BoundedText :=
  replacement.foldlM (expandToken regex input captures maxOutputChars) text

/-- The output, the end of the last match and the number of replacements. -/
structure ReplaceState where
  text : BoundedText
  lastEnd : Nat
  replacements : UInt32

/-- The loop of `replace_bounded` over the matches. -/
def replaceMatches (regex : Regex) (replacement : List ReplacementToken) (input : String)
    (maxReplacements : UInt32) (maxOutputChars : Nat) : List Captures → ReplaceState →
    Except TransformStop ReplaceState
  | [], state => .ok state
  | captures :: rest, state =>
    if state.replacements ≥ maxReplacements then .ok state
    else
      match captures.get 0 with
      | none => replaceMatches regex replacement input maxReplacements maxOutputChars rest state
      | some wholeMatch => do
        let between ← okOr (sliceBytes input state.lastEnd wholeMatch.start) .panicked
        let text ← pushBounded maxOutputChars state.text between
        let text ← expandReplacement regex input captures replacement maxOutputChars text
        replaceMatches regex replacement input maxReplacements maxOutputChars rest
          ⟨text, wholeMatch.stop, satAdd state.replacements 1⟩

def replaceBounded (regex : Regex) (replacement : List ReplacementToken) (input : String)
    (maxReplacements : UInt32) (maxOutputChars : Nat) : Except TransformStop (String × UInt32) := do
  let state ← replaceMatches regex replacement input maxReplacements maxOutputChars
    (regex.capturesIter input) ⟨⟨"", 0⟩, 0, 0⟩
  let tail ← okOr (sliceBytesFrom input state.lastEnd) .panicked
  let text ← pushBounded maxOutputChars state.text tail
  return (text.output, state.replacements)

/-! ## Applying -/

def transformTextSha256 (lib : TransformExternals) (text : String) : String :=
  hexEncode (lib.sha256 (stringBytes text)).toList

/-- The common beginning of two texts. -/
def commonLength : List Char → List Char → Nat
  | a :: l, b :: k => if a = b then commonLength l k + 1 else 0
  | _, _ => 0

def makeDiff (before after : String) (maxFragmentChars : Nat) : TransformDiff :=
  let beforeChars := before.toList
  let afterChars := after.toList
  let common := commonLength beforeChars afterChars
  let maximumSuffix := min (beforeChars.length - common) (afterChars.length - common)
  let suffix := min maximumSuffix (commonLength beforeChars.reverse afterChars.reverse)
  let beforeMiddle := (beforeChars.take (beforeChars.length - suffix)).drop common
  let afterMiddle := (afterChars.take (afterChars.length - suffix)).drop common
  { unchangedPrefixChars := u32FromSat common
    beforeFragment := String.ofList (beforeMiddle.take maxFragmentChars)
    afterFragment := String.ofList (afterMiddle.take maxFragmentChars)
    unchangedSuffixChars := u32FromSat suffix
    truncated := beforeMiddle.length > maxFragmentChars || afterMiddle.length > maxFragmentChars }

def skippedReport (lib : TransformExternals) (setId : TransformSetId) (rule : TransformRule)
    (status : TransformRuleStatus) (input : String) : TransformRuleReport where
  trace := ⟨rule.id, false, 0, u32FromSat input.length, u32FromSat input.length, none⟩
  status := status
  diff := none
  executionAudit := some
    ⟨setId, transformTextSha256 lib input, some (transformTextSha256 lib input), none⟩

def failedReport (lib : TransformExternals) (setId : TransformSetId) (rule : TransformRule)
    (input : String) (error : TransformFailure) : TransformRuleReport where
  trace := ⟨rule.id, false, 0, u32FromSat input.length, u32FromSat input.length, some error.message⟩
  status := .failed
  diff := none
  executionAudit := some ⟨setId, transformTextSha256 lib input, none, some error.code⟩

/-- The report of a rule that was applied. -/
def appliedReport (lib : TransformExternals) (setId : TransformSetId) (rule : TransformRule)
    (limits : TransformLimits) (before candidate : String) (replacements : UInt32) :
    TransformRuleReport where
  trace := ⟨rule.id, true, replacements, u32FromSat before.length, u32FromSat candidate.length, none⟩
  status := .applied
  diff := some (makeDiff before candidate limits.maxDiffChars)
  executionAudit := some
    ⟨setId, transformTextSha256 lib before, some (transformTextSha256 lib candidate), none⟩

/-- The condition of a rule; a report says why it does not go on. -/
def checkTransformCondition (lib : TransformExternals) (limits : TransformLimits)
    (context : TransformContext) (compiled : CompiledTransform) (output : String) :
    Except TransformRuleReport Unit :=
  forSome compiled.rule.condition fun condition =>
    let conditionLimits := { defaultInteractionLimits with
      maxConditionDepth := limits.maxConditionDepth
      maxConditionNodes := limits.maxConditionNodes
      maxTextChars := limits.maxOutputChars }
    match evaluateConditionAst condition context.vars context.modelCapabilities conditionLimits with
    | .ok true => .ok ()
    | .ok false => .error (skippedReport lib compiled.setId compiled.rule .conditionFalse output)
    | .error error => .error (failedReport lib compiled.setId compiled.rule output
        ⟨.conditionFailed, error.message⟩)

/-- Everything that `apply` checks before it runs a rule; a report says why it does not. -/
def admitTransform (lib : TransformExternals) (limits : TransformLimits) (phase : TransformPhase)
    (context : TransformContext) (options : TransformApplyOptions) (compiled : CompiledTransform)
    (output : String) : Except TransformRuleReport (Regex × List ReplacementToken) := do
  let rule := compiled.rule
  rejectIf (compiled.setEnabled = false ∨ rule.enabled = false)
    (skippedReport lib compiled.setId rule .disabled output)
  rejectIf (compiled.approvedForExecution = false)
    (skippedReport lib compiled.setId rule .pendingImportApproval output)
  rejectIf (phase = .resolvedPrompt ∧ options.allowResolvedPrompt = false)
    (skippedReport lib compiled.setId rule .resolvedPromptDisabled output)
  checkTransformCondition lib limits context compiled output
  rejectIf (output.length > rule.inputLimit.toNat) (failedReport lib compiled.setId rule output
    ⟨.inputLimitExceeded,
      s!"rule `{rule.id}` input has {output.length} characters; limit is {rule.inputLimit}"⟩)
  match compiled.compiled with
  | .ready regex replacement => .ok (regex, replacement)
  | .invalid error => .error (failedReport lib compiled.setId rule output error)

/-- One round of the loop of `apply`: the text after the rule and its report. -/
def applyTransform (lib : TransformExternals) (limits : TransformLimits) (phase : TransformPhase)
    (context : TransformContext) (options : TransformApplyOptions) (compiled : CompiledTransform)
    (output : String) : Option (String × TransformRuleReport) :=
  match admitTransform lib limits phase context options compiled output with
  | .error report => some (output, report)
  | .ok (regex, replacement) =>
    match replaceBounded regex replacement output compiled.rule.maxReplacements
        (min compiled.outputLimitChars limits.maxOutputChars) with
    | .ok (candidate, replacements) =>
      if replacements = 0 then
        some (output, skippedReport lib compiled.setId compiled.rule .noMatch output)
      else
        some (candidate,
          appliedReport lib compiled.setId compiled.rule limits output candidate replacements)
    | .error (.failed error) =>
      -- fail-open: the text before the rule goes on to the later rules
      some (output, failedReport lib compiled.setId compiled.rule output error)
    | .error .panicked => none

/-- The loop of `apply` over the rules of the phase. -/
def applyTransforms (lib : TransformExternals) (limits : TransformLimits) (phase : TransformPhase)
    (context : TransformContext) (options : TransformApplyOptions) :
    List CompiledTransform → String → Option (String × List TransformRuleReport)
  | [], output => some (output, [])
  | compiled :: rest, output =>
    match applyTransform lib limits phase context options compiled output with
    | none => none
    | some (next, report) =>
      (applyTransforms lib limits phase context options rest next).map fun result =>
        (result.1, report :: result.2)

def TransformPipeline.apply (lib : TransformExternals) (pipeline : TransformPipeline)
    (phase : TransformPhase) (input : String) (context : TransformContext)
    (options : TransformApplyOptions) : Option TransformResult :=
  let limits := pipeline.limits
  if input.length > limits.maxInputChars then
    some {
      phase := phase
      original := input
      output := input
      changed := false
      rendering := .nativePlainText
      reports := []
      diff := none
      error := some ⟨.inputLimitExceeded,
        s!"transform input has {input.length} characters; limit is {limits.maxInputChars}"⟩ }
  else
    (applyTransforms lib limits phase context options
      (pipeline.rules.filter fun compiled => compiled.rule.phase = phase) input).map fun result => {
        phase := phase
        original := input
        output := result.1
        changed := result.1 ≠ input
        rendering := .nativePlainText
        reports := result.2
        diff := if result.1 ≠ input then some (makeDiff input result.1 limits.maxDiffChars) else none
        error := none }

def previewTransformRule (lib : TransformExternals) (rule : TransformRule) (input : String)
    (context : TransformContext) (limits : TransformLimits) (approvedImportSourceIds : List String)
    (options : TransformApplyOptions) : Transform (Option TransformResult) := do
  let set : TransformSet := {
    id := "preview"
    name := "Transform preview"
    schemaVersion := 1
    enabled := true
    importedAuthorEnabled := false
    rules := [rule]
    maxRulesPerPhase := 1
    maxOutputChars := rule.outputLimit
    provenance := rule.provenance }
  let pipeline ← compileTransforms lib [set] limits approvedImportSourceIds
  return pipeline.apply lib rule.phase input context options

end LorePia
