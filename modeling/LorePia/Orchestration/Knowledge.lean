import LorePia.Base.Metered
import LorePia.Base.OrdMap
import LorePia.Domain.Knowledge

/-!
# Knowledge selection (`crates/orchestration/src/knowledge.rs`)

`KnowledgeEngine::select_with_budget`: normalization of the book, regex planning, the activation
scan, the activation rounds, the exclusion evidence and the token budget. Every expensive step is
charged to the work budget first, a `Meter` that keeps its charges when the selection fails.

A compiled regex is its match predicate, and a `BTreeSet` is a list with a membership test. Unicode
case mapping and classification, SHA-256 and the regex engine are the fields of
`KnowledgeExternals`. The texts of `KnowledgeSelectionError` are not read here.
-/

namespace LorePia

open Base Metered

/-- Library functions the engine calls. -/
structure KnowledgeExternals where
  /-- `Sha256::digest`. -/
  sha256 : List UInt8 → Vector UInt8 32
  /-- `str::to_lowercase`. -/
  toLowercase : String → String
  /-- `char::to_lowercase`. -/
  charToLowercase : Char → List Char
  /-- `char::is_alphanumeric`. -/
  isAlphanumeric : Char → Bool
  /-- `RegexBuilder::build` for a pattern, its case flag and the two size limits. -/
  buildRegex : String → Bool → Nat → Nat → Except String (String → Bool)

def maxEngineKnowledgeEntries : Nat := 10000
def maxActivationRuleDepth : Nat := 32
def maxActivationRuleNodes : Nat := 1024
def maxRegexPatternsPerRule : Nat := 64
def maxRegexPatternBytes : Nat := 4 * 1024
def maxKnowledgeScanChars : Nat := 512 * 1024
def maxKnowledgeRecursionDepth : UInt32 := 32
def maxActivationProbabilityBasisPoints : UInt16 := 10000
def maxTotalRegexPatterns : Nat := 1024
def maxTotalRegexSourceBytes : Nat := 256 * 1024
def maxTotalRegexCompiledBytes : Nat := 16 * 1024 * 1024
def maxTotalRegexDfaBytes : Nat := 32 * 1024 * 1024
def maxRegexCompiledBytes : Nat := 2 * 1024 * 1024
def maxRegexDfaBytes : Nat := 4 * 1024 * 1024
def maxGenerationKnowledgeWorkBytes : Nat := 64 * 1024 * 1024

inductive KnowledgeSelectionError
  | invalidBook (message : String)
  | tooManyEntries
  | duplicateEntryId (entryId : String)
  | foreignBookEntry (entryId : String)
  | ruleLimitExceeded (entryId : String)
  | invalidRegex (entryId message : String)
  | duplicateSemanticScore (entryId : String)
  | invalidSemanticScore (entryId : String)
  | invalidSemanticThreshold (entryId : String)
  | invalidActivationProbability (entryId : String)
  | recursionDepthLimitExceeded
  | scanLimitExceeded
deriving DecidableEq

abbrev Selection := Except KnowledgeSelectionError

/-! ## The work budget -/

/-- `KnowledgeWorkBudget`: `limit` is `max_work_bytes`, `used` is `used_work_bytes`. -/
abbrev KnowledgeWorkBudget := Meter maxGenerationKnowledgeWorkBytes

abbrev Work := Metered maxGenerationKnowledgeWorkBytes KnowledgeSelectionError

def withMaxWorkBytes (maxWorkBytes : Nat) : KnowledgeWorkBudget :=
  ⟨min maxWorkBytes maxGenerationKnowledgeWorkBytes, 0, Nat.min_le_right _ _, Nat.zero_le _⟩

/-- `KnowledgeWorkBudget::default`. -/
def defaultWorkBudget : KnowledgeWorkBudget :=
  ⟨maxGenerationKnowledgeWorkBytes, 0, Nat.le_refl _, Nat.zero_le _⟩

def chargeWorkBytes (scopeId : String) (workBytes : Nat) : Work Unit := fun budget =>
  match checkedAdd budget.used workBytes with
  | none => (.error (.ruleLimitExceeded scopeId), budget)
  | some next =>
    if h : next ≤ budget.limit then (.ok (), { budget with used := next, used_le := h })
    else (.error (.ruleLimitExceeded scopeId), budget)

/-- `value.ok_or_else(|| RuleLimitExceeded { entry_id })`. -/
def orRuleLimit {α : Type} (value : Option α) (entryId : String) : Work α :=
  lift (okOr value (.ruleLimitExceeded entryId))

/-! ## Normalization of a book -/

/-- `ids.windows(2).find(|pair| pair[0] == pair[1])`. -/
def adjacentDuplicate : List String → Option String
  | a :: b :: rest => if a = b then some a else adjacentDuplicate (b :: rest)
  | _ => none

/-- The ids of `ids`, sorted. -/
def sortIds (ids : List String) : List String := stableSort (fun a b => decide (a ≤ b)) ids

/-- Fails with the first duplicate of some sorted ids. -/
def rejectDuplicate (ids : List String) : Selection Unit :=
  match adjacentDuplicate ids with
  | some entryId => .error (.duplicateEntryId entryId)
  | none => .ok ()

def validateBook (book : KnowledgeBook) : Selection Unit := do
  rejectIf (book.entries.length > maxEngineKnowledgeEntries) .tooManyEntries
  rejectDuplicate (sortIds (book.entries.map (·.id)))
  mapErr (fun error => .invalidBook error.display) book.validate
  rejectIf (book.maxRecursionDepth > maxKnowledgeRecursionDepth) .recursionDepthLimitExceeded

mutual
def chargeActivationRuleNormalization (entryId : KnowledgeEntryId) : ActivationRule → Work Unit
  | .keyword primary secondary _ _ _ => do
    chargeWorkBytes entryId 1
    forEach (fun keyword => chargeWorkBytes entryId keyword.utf8ByteSize) (primary ++ secondary)
  | .regex patterns => do
    chargeWorkBytes entryId 1
    forEach (fun pattern => chargeWorkBytes entryId pattern.pattern.utf8ByteSize) patterns
  | .any rules | .all rules => do
    chargeWorkBytes entryId 1
    chargeActivationRulesNormalization entryId rules
  | .always | .manual | .semantic .. | .condition _ => chargeWorkBytes entryId 1

/-- The children of a composed rule. -/
def chargeActivationRulesNormalization (entryId : KnowledgeEntryId) :
    List ActivationRule → Work Unit
  | [] => pure ()
  | rule :: rest => do
    chargeActivationRuleNormalization entryId rule
    chargeActivationRulesNormalization entryId rest
end

/-- The charges of one entry. -/
def chargeEntryNormalization (entry : KnowledgeEntry) : Work Unit := do
  let entryBytes ← orRuleLimit
    ([entry.id.utf8ByteSize, entry.bookId.utf8ByteSize, entry.name.utf8ByteSize,
      entry.content.utf8ByteSize, (entry.parentId.map (·.utf8ByteSize)).getD 0].foldlM checkedAdd 1)
    entry.id
  chargeWorkBytes entry.id entryBytes
  chargeActivationRuleNormalization entry.id entry.activation

def chargeBookNormalization (book : KnowledgeBook) : Work Unit := do
  let bytes ← orRuleLimit ((checkedAdd book.id.utf8ByteSize book.name.utf8ByteSize).bind
    fun bytes => checkedAdd bytes book.entries.length) book.id
  chargeWorkBytes book.id bytes
  forEach chargeEntryNormalization book.entries

mutual
/-- `visit` of `validate_rule`; returns the node counter. -/
def visitRule : ActivationRule → Nat → Nat → Option Nat
  | rule, depth, nodes => do
    let nodes ← checkedAdd nodes 1
    if depth > maxActivationRuleDepth || nodes > maxActivationRuleNodes then none
    else match rule with
      | .regex patterns =>
        if patterns.length > maxRegexPatternsPerRule ||
          patterns.any (fun pattern => pattern.pattern.utf8ByteSize > maxRegexPatternBytes) then none
        else some nodes
      | .semantic threshold _ => if invalidUnit threshold then none else some nodes
      | .any rules | .all rules => if rules.isEmpty then none else visitRules rules depth nodes
      | .always | .manual | .keyword .. | .condition _ => some nodes

/-- The children of a composed rule. -/
def visitRules : List ActivationRule → Nat → Nat → Option Nat
  | [], _, nodes => some nodes
  | child :: rest, depth, nodes => do
    let nodes ← visitRule child (depth + 1) nodes
    visitRules rest depth nodes
end

mutual
def containsInvalidSemanticThreshold : ActivationRule → Bool
  | .semantic threshold _ => invalidUnit threshold
  | .any rules | .all rules => anyInvalidSemanticThreshold rules
  | .always | .manual | .keyword .. | .regex _ | .condition _ => false

/-- `rules.iter().any(contains_invalid_semantic_threshold)`. -/
def anyInvalidSemanticThreshold : List ActivationRule → Bool
  | [] => false
  | rule :: rest => containsInvalidSemanticThreshold rule || anyInvalidSemanticThreshold rest
end

def validateRule (entry : KnowledgeEntry) : Selection Unit :=
  match visitRule entry.activation 1 0 with
  | some _ => .ok ()
  | none =>
    if containsInvalidSemanticThreshold entry.activation then
      .error (.invalidSemanticThreshold entry.id)
    else .error (.ruleLimitExceeded entry.id)

/-- The checks on one entry of the sorted book. -/
def checkNormalizedEntry (bookId : KnowledgeBookId) (entry : KnowledgeEntry) : Selection Unit := do
  rejectIf (entry.bookId ≠ bookId) (.foreignBookEntry entry.id)
  rejectIf (entry.activationProbabilityBasisPoints > maxActivationProbabilityBasisPoints)
    (.invalidActivationProbability entry.id)
  validateRule entry

/-- The entries of a book, sorted by id. -/
def sortEntries (entries : List KnowledgeEntry) : List KnowledgeEntry :=
  stableSort (fun left right => decide (left.id ≤ right.id)) entries

def normalizedEntries (book : KnowledgeBook) : Selection (List KnowledgeEntry) := do
  let entries := sortEntries book.entries
  rejectDuplicate (entries.map (·.id))
  forIdx (fun _ entry => checkNormalizedEntry book.id entry) entries
  return entries

/-! ## Regexes -/

structure RegexKey where
  pattern : String
  caseInsensitive : Bool
deriving DecidableEq

mutual
/-- `collect` of `compile_regexes`. -/
def collectPatterns : ActivationRule → List SafeRegex
  | .regex patterns => patterns
  | .any rules | .all rules => collectRulePatterns rules
  | .always | .manual | .keyword .. | .semantic .. | .condition _ => []

/-- The patterns of some rules. -/
def collectRulePatterns : List ActivationRule → List SafeRegex
  | [] => []
  | rule :: rest => collectPatterns rule ++ collectRulePatterns rest
end

/-- The planned regexes with the entry each comes from first (their keys are the source's `seen`),
and the bytes of their patterns. -/
structure RegexPlan where
  planned : List (RegexKey × KnowledgeEntryId)
  totalSourceBytes : Nat

/-- One pattern of the planning loop. -/
def planPattern (entryId : KnowledgeEntryId) (plan : RegexPlan) (pattern : SafeRegex) :
    Selection RegexPlan :=
  let key : RegexKey := ⟨pattern.pattern, pattern.caseInsensitive⟩
  if key ∈ plan.planned.map (·.1) then .ok plan
  else do
    let totalSourceBytes ← okOr (checkedAdd plan.totalSourceBytes pattern.pattern.utf8ByteSize)
      (.ruleLimitExceeded entryId)
    rejectIf (plan.planned.length ≥ maxTotalRegexPatterns ∨
        totalSourceBytes > maxTotalRegexSourceBytes) (.ruleLimitExceeded entryId)
    return ⟨plan.planned ++ [(key, entryId)], totalSourceBytes⟩

/-- The planning loop of `compile_regexes`. -/
def planRegexes (entries : List KnowledgeEntry) : Selection RegexPlan :=
  entries.foldlM (fun plan entry =>
    (collectPatterns entry.activation).foldlM (planPattern entry.id) plan) ⟨[], 0⟩

def regexMemoryLimits (regexCount : Nat) : Nat × Nat :=
  (min maxRegexCompiledBytes (maxTotalRegexCompiledBytes / max regexCount 1),
    min maxRegexDfaBytes (maxTotalRegexDfaBytes / max regexCount 1))

/-- The work of compiling the planned regexes, charged to the first one's entry. -/
def chargeCompilation (plan : RegexPlan) : Work Unit :=
  match plan.planned with
  | [] => pure ()
  | (_, scopeId) :: _ => do
    let limits := regexMemoryLimits plan.planned.length
    let compileWork ← orRuleLimit (((checkedAdd limits.1 limits.2).bind
      fun perPattern => checkedMul perPattern plan.planned.length).bind
        fun work => checkedAdd work plan.totalSourceBytes) scopeId
    chargeWorkBytes scopeId compileWork

/-- The compiled regexes by key. -/
abbrev CompiledRegexes := List (RegexKey × (String → Bool))

/-- The compilation loop of `compile_regexes`. -/
def buildRegexes (lib : KnowledgeExternals) (plan : RegexPlan) : Selection CompiledRegexes :=
  let limits := regexMemoryLimits plan.planned.length
  mapIdx (fun _ item => do
    let regex ← mapErr (.invalidRegex item.2)
      (lib.buildRegex item.1.pattern item.1.caseInsensitive limits.1 limits.2)
    return (item.1, regex)) plan.planned

def compileRegexes (lib : KnowledgeExternals) (entries : List KnowledgeEntry) :
    Work CompiledRegexes := do
  let plan ← lift (planRegexes entries)
  chargeCompilation plan
  lift (buildRegexes lib plan)

end LorePia
