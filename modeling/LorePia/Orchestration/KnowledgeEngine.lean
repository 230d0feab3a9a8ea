import LorePia.Orchestration.Knowledge

/-!
# The knowledge engine (`crates/orchestration/src/knowledge.rs`)

Rule evaluation, the activation rounds, the exclusion evidence, the token budget and
`KnowledgeEngine::select_with_budget` itself. A round appends the contents of the entries that the
round before activated to the scan and evaluates every entry that is not activated yet.
-/

namespace LorePia

open Base Metered

structure KnowledgeSelectionContext where
  scanTexts : List String
  manualEntryIds : List KnowledgeEntryId
  semanticScores : List SemanticKnowledgeScore
  vars : VariableMap
  supportedCapabilities : List CapabilityKey
  tokenEstimates : OrdMap KnowledgeEntryId UInt32
  activationSeed : UInt64

structure SelectedKnowledgeEntry where
  entryId : KnowledgeEntryId
  content : String
  placement : KnowledgePlacement
  estimatedTokens : UInt32
  recursionDepth : Nat
  reasons : List KnowledgeActivationReason
deriving DecidableEq

structure KnowledgeSelection where
  selected : List SelectedKnowledgeEntry
  evidence : List KnowledgeSelectionEvidence
  usedTokens : UInt32
  tokenBudget : UInt32
deriving DecidableEq

structure ActivatedCandidate where
  reasons : List KnowledgeActivationReason
  recursionDepth : Nat
  estimatedTokens : UInt32
deriving DecidableEq

structure EvaluationContext where
  manualEntryIds : List KnowledgeEntryId
  semanticScores : OrdMap KnowledgeEntryId UInt32
  semanticRank : OrdMap KnowledgeEntryId Nat
  vars : VariableMap
  supportedCapabilities : List CapabilityKey
  regexes : CompiledRegexes

structure ActivationScan where
  original : String
  lowercase : String
  characters : Nat
deriving DecidableEq

/-! ## Semantic scores -/

def scoreToMillionths (score : F32) : UInt32 := UInt32.ofNat score.toMillionths

mutual
def containsSemanticRule : ActivationRule → Bool
  | .semantic .. => true
  | .any rules | .all rules => anySemanticRule rules
  | .always | .manual | .keyword .. | .regex _ | .condition _ => false

/-- `rules.iter().any(contains_semantic_rule)`. -/
def anySemanticRule : List ActivationRule → Bool
  | [] => false
  | rule :: rest => containsSemanticRule rule || anySemanticRule rest
end

/-- The ids whose scores are read. -/
def semanticEntryIds (entries : List KnowledgeEntry) : List KnowledgeEntryId :=
  (entries.filter fun entry => entry.enabled && containsSemanticRule entry.activation).map (·.id)

/-- One supplied score. -/
def scoreStep (ids : List KnowledgeEntryId) (scores : OrdMap KnowledgeEntryId UInt32)
    (score : SemanticKnowledgeScore) : Selection (OrdMap KnowledgeEntryId UInt32) :=
  if score.entryId ∉ ids then .ok scores
  else do
    rejectIf (invalidUnit score.score) (.invalidSemanticScore score.entryId)
    rejectIf (scores.contains score.entryId) (.duplicateSemanticScore score.entryId)
    return scores.insert score.entryId (scoreToMillionths score.score)

/-- Higher scores first, then ids. -/
def scoreLe (left right : KnowledgeEntryId × UInt32) : Bool :=
  right.2 < left.2 || (left.2 = right.2 && decide (left.1 ≤ right.1))

def normalizeSemanticScores (entries : List KnowledgeEntry) (supplied : List SemanticKnowledgeScore) :
    Selection (OrdMap KnowledgeEntryId UInt32 × OrdMap KnowledgeEntryId Nat) := do
  let scores ← supplied.foldlM (scoreStep (semanticEntryIds entries)) .empty
  let ordered := stableSort scoreLe scores.entries
  return (scores, .ofList (ordered.zipIdx.map fun item => (item.1.1, item.2)))

/-! ## The activation scan -/

def appendScanText (scan : String) (scanCharacters : Nat) (text : String) :
    Selection (String × Nat) := do
  let separatorChars := if scan.isEmpty then 0 else 1
  let nextChars ← okOr ((checkedAdd scanCharacters separatorChars).bind
    fun count => checkedAdd count text.length) .scanLimitExceeded
  rejectIf (nextChars > maxKnowledgeScanChars) .scanLimitExceeded
  return ((if scan.isEmpty then scan else scan ++ "\n") ++ text, nextChars)

/-- The bytes of the scanned texts and their separators. -/
def scanSourceBytes (texts : List String) : Option Nat :=
  texts.zipIdx.foldlM (fun total item =>
    (checkedAdd total (if item.2 > 0 then 1 else 0)).bind
      fun total => checkedAdd total item.1.utf8ByteSize) 0

def ActivationScan.fromTexts (lib : KnowledgeExternals) (scanDepth : UInt32)
    (scanTexts : List String) (scopeId : String) : Work ActivationScan := do
  let texts := scanTexts.drop (scanTexts.length - scanDepth.toNat)
  let sourceBytes ← orRuleLimit (scanSourceBytes texts) scopeId
  let normalizationWork ← orRuleLimit (checkedMul sourceBytes 2) scopeId
  chargeWorkBytes scopeId normalizationWork
  let scan ← lift (texts.foldlM (fun scan text => appendScanText scan.1 scan.2 text) ("", 0))
  return ⟨scan.1, lib.toLowercase scan.1, scan.2⟩

def ActivationScan.appendText (lib : KnowledgeExternals) (scan : ActivationScan) (text : String)
    (scopeId : String) : Work ActivationScan := do
  let needsSeparator := !scan.original.isEmpty
  let sourceBytes ← orRuleLimit ((checkedAdd text.utf8ByteSize (if needsSeparator then 1 else 0)).bind
    fun bytes => checkedMul bytes 2) scopeId
  chargeWorkBytes scopeId sourceBytes
  let (original, characters) ← lift (appendScanText scan.original scan.characters text)
  let lowercase := if needsSeparator then scan.lowercase ++ "\n" else scan.lowercase
  return ⟨original, lowercase ++ String.ofList (text.toList.flatMap lib.charToLowercase), characters⟩

def ActivationScan.matchingText (scan : ActivationScan) (caseSensitive : Bool) : String :=
  if caseSensitive then scan.original else scan.lowercase

/-! ## Rules -/

def pushReason (reasons : List KnowledgeActivationReason) (reason : KnowledgeActivationReason) :
    List KnowledgeActivationReason :=
  if reason ∈ reasons then reasons else reasons ++ [reason]

def isWordCharacter (lib : KnowledgeExternals) (character : Char) : Bool :=
  lib.isAlphanumeric character || character = '_'

/-- The characters around every match of `haystack.match_indices(needle)`: matches do not overlap,
so `skip` characters of the last one are still to come. -/
def matchContexts (needle : List Char) :
    Option Char → Nat → List Char → List (Option Char × Option Char)
  | before, _, [] => if needle.isEmpty then [(before, none)] else []
  | _, skip + 1, c :: rest => matchContexts needle (some c) skip rest
  | before, 0, c :: rest =>
    if needle.isPrefixOf (c :: rest) then
      (before, ((c :: rest).drop needle.length).head?) ::
        matchContexts needle (some c) (needle.length - 1) rest
    else matchContexts needle (some c) 0 rest

def containsKeyword (lib : KnowledgeExternals) (scan : ActivationScan) (keyword : String)
    (caseSensitive wholeWord : Bool) : Bool :=
  let haystack := scan.matchingText caseSensitive
  let needle := if caseSensitive then keyword else lib.toLowercase keyword
  if !wholeWord then containsText haystack needle
  else (matchContexts needle.toList none 0 haystack.toList).any fun around =>
    (around.1.all fun character => !isWordCharacter lib character) &&
      (around.2.all fun character => !isWordCharacter lib character)

def firstKeywordMatch (lib : KnowledgeExternals) (scan : ActivationScan)
    (caseSensitive wholeWord : Bool) (entryId : KnowledgeEntryId) :
    List String → Work (Option String)
  | [] => pure none
  | keyword :: rest =>
    if keyword.isEmpty then firstKeywordMatch lib scan caseSensitive wholeWord entryId rest
    else do
      if !caseSensitive then chargeWorkBytes entryId keyword.utf8ByteSize
      chargeWorkBytes entryId (scan.matchingText caseSensitive).utf8ByteSize
      if containsKeyword lib scan keyword caseSensitive wholeWord then return some keyword
      else firstKeywordMatch lib scan caseSensitive wholeWord entryId rest

def evaluateKeywordRule (lib : KnowledgeExternals) (scan : ActivationScan)
    (entryId : KnowledgeEntryId) (primary secondary : List String)
    (selective caseSensitive wholeWord : Bool) :
    Work (Option (List KnowledgeActivationReason)) := do
  match ← firstKeywordMatch lib scan caseSensitive wholeWord entryId primary with
  | none => return none
  | some primaryMatch =>
    if selective then
      match ← firstKeywordMatch lib scan caseSensitive wholeWord entryId secondary with
      | none => return none
      | some secondaryMatch =>
        return some (pushReason [.keyword primaryMatch] (.keyword secondaryMatch))
    else return some [.keyword primaryMatch]

/-- `context.regexes.get(&key).is_some_and(|regex| regex.is_match(&scan.original))`. -/
def regexMatches (context : EvaluationContext) (pattern : SafeRegex) (text : String) : Bool :=
  ((context.regexes.find? fun item => item.1 = ⟨pattern.pattern, pattern.caseInsensitive⟩).map
    fun item => item.2 text).getD false

/-- The pattern loop of a regex rule. -/
def firstRegexMatch (context : EvaluationContext) (scan : ActivationScan)
    (entryId : KnowledgeEntryId) :
    List SafeRegex → Work (Option (List KnowledgeActivationReason))
  | [] => pure none
  | pattern :: rest => do
    chargeWorkBytes entryId scan.original.utf8ByteSize
    if regexMatches context pattern scan.original then return some [.regex pattern.pattern]
    else firstRegexMatch context scan entryId rest

/-- The semantic rule. -/
def evaluateSemanticRule (context : EvaluationContext) (entryId : KnowledgeEntryId)
    (threshold : F32) (topK : UInt32) : Option (List KnowledgeActivationReason) :=
  match context.semanticScores.get? entryId, context.semanticRank.get? entryId with
  | some score, some rank =>
    if score ≥ scoreToMillionths threshold ∧ rank < topK.toNat then some [.semantic score] else none
  | _, _ => none

mutual
/-- `evaluate_condition`. -/
def evaluateKnowledgeCondition (vars : VariableMap) (capabilities : List CapabilityKey) :
    ConditionExpr → Bool
  | .true => true
  | .false => false
  | .equals v value => (vars.get v).any (·.eq value)
  | .notEquals v value => !(vars.get v).any (·.eq value)
  | .greaterThan v value => value.isFinite &&
      match vars.get v with
      | some (.integer actual) => value.lt (f64OfInt actual)
      | some (.decimal actual) => actual.isFinite && value.lt actual
      | _ => false
  | .contains v value =>
      match vars.get v with
      | some (.text actual) | some (.enum actual) => containsText actual value
      | some (.stringList actual) => actual.contains value
      | _ => false
  | .existsVar v => (vars.get v).isSome
  | .modelSupports capability => capabilities.contains capability
  | .all expressions => evaluateKnowledgeAll vars capabilities expressions
  | .any expressions => evaluateKnowledgeAny vars capabilities expressions
  | .not expression => !evaluateKnowledgeCondition vars capabilities expression

/-- `expressions.iter().all(evaluate_condition)`. -/
def evaluateKnowledgeAll (vars : VariableMap) (capabilities : List CapabilityKey) :
    List ConditionExpr → Bool
  | [] => true
  | expression :: rest => evaluateKnowledgeCondition vars capabilities expression &&
      evaluateKnowledgeAll vars capabilities rest

/-- `expressions.iter().any(evaluate_condition)`. -/
def evaluateKnowledgeAny (vars : VariableMap) (capabilities : List CapabilityKey) :
    List ConditionExpr → Bool
  | [] => false
  | expression :: rest => evaluateKnowledgeCondition vars capabilities expression ||
      evaluateKnowledgeAny vars capabilities rest
end

mutual
def evaluateRule (lib : KnowledgeExternals) (context : EvaluationContext) (scan : ActivationScan)
    (entryId : KnowledgeEntryId) : ActivationRule → Work (Option (List KnowledgeActivationReason))
  | .always => pure (some [.always])
  | .manual => pure (if entryId ∈ context.manualEntryIds then some [.manual] else none)
  | .keyword primary secondary selective caseSensitive wholeWord =>
    evaluateKeywordRule lib scan entryId primary secondary selective caseSensitive wholeWord
  | .regex patterns => firstRegexMatch context scan entryId patterns
  | .semantic threshold topK => pure (evaluateSemanticRule context entryId threshold topK)
  | .condition expression =>
    pure (if evaluateKnowledgeCondition context.vars context.supportedCapabilities expression then
      some [.condition] else none)
  | .any rules => do
    let reasons ← evaluateAnyRule lib context scan entryId [] rules
    return if reasons.isEmpty then none else some reasons
  | .all rules => evaluateAllRule lib context scan entryId [] rules

/-- The loop of an `Any` rule. -/
def evaluateAnyRule (lib : KnowledgeExternals) (context : EvaluationContext)
    (scan : ActivationScan) (entryId : KnowledgeEntryId)
    (reasons : List KnowledgeActivationReason) :
    List ActivationRule → Work (List KnowledgeActivationReason)
  | [] => pure reasons
  | rule :: rest => do
    let childReasons ← evaluateRule lib context scan entryId rule
    evaluateAnyRule lib context scan entryId
      ((childReasons.getD []).foldl pushReason reasons) rest

/-- The loop of an `All` rule: stops at the first rule that does not match. -/
def evaluateAllRule (lib : KnowledgeExternals) (context : EvaluationContext)
    (scan : ActivationScan) (entryId : KnowledgeEntryId)
    (reasons : List KnowledgeActivationReason) :
    List ActivationRule → Work (Option (List KnowledgeActivationReason))
  | [] => pure (some reasons)
  | rule :: rest => do
    match ← evaluateRule lib context scan entryId rule with
    | none => return none
    | some childReasons =>
      evaluateAllRule lib context scan entryId (childReasons.foldl pushReason reasons) rest
end

def evaluateActivation (lib : KnowledgeExternals) (context : EvaluationContext)
    (scan : ActivationScan) (entry : KnowledgeEntry) :
    Work (Option (List KnowledgeActivationReason)) :=
  evaluateRule lib context scan entry.id entry.activation

/-! ## The probability gate -/

/-- `value.to_be_bytes()` of a `u64`. -/
def beBytes64 (value : Nat) : List UInt8 :=
  (List.range 8).map fun i => UInt8.ofNat (value / 256 ^ (7 - i))

/-- `update_hash_field`: the bytes it adds to the digest. -/
def hashField (value : List UInt8) : List UInt8 :=
  beBytes64 (min value.length (2 ^ 64 - 1)) ++ value

/-- The bytes of a string. -/
def stringBytes (text : String) : List UInt8 := text.toUTF8.data.toList

/-- The sample that `probability_allows` draws for an entry. -/
def probabilitySample (lib : KnowledgeExternals) (bookId : KnowledgeBookId)
    (entryId : KnowledgeEntryId) (seed : UInt64) : Nat :=
  let digest := lib.sha256 (hashField (stringBytes "lorepia-knowledge-probability-v1") ++
    hashField (stringBytes bookId) ++ hashField (stringBytes entryId) ++
      hashField (beBytes64 seed.toNat))
  (digest[0].toNat * 256 + digest[1].toNat) % 10000

def probabilityAllows (lib : KnowledgeExternals) (bookId : KnowledgeBookId) (entry : KnowledgeEntry)
    (seed : UInt64) : Bool :=
  let probability := entry.activationProbabilityBasisPoints
  if probability = 0 then false
  else if probability = maxActivationProbabilityBasisPoints then true
  else probabilitySample lib bookId entry.id seed < probability.toNat

/-! ## Token estimates -/

def estimateTextTokens (text : String) : UInt32 :=
  if text.isEmpty then 0 else max (u32FromSat ((text.length + 3) / 4)) 1

def estimatedTokens (entry : KnowledgeEntry) (estimates : OrdMap KnowledgeEntryId UInt32) : UInt32 :=
  (estimates.get? entry.id).getD (estimateTextTokens entry.content)

/-! ## Activation -/

/-- What every pass over the entries reads. -/
structure Pass where
  lib : KnowledgeExternals
  bookId : KnowledgeBookId
  seed : UInt64
  estimates : OrdMap KnowledgeEntryId UInt32
  evaluation : EvaluationContext
  entries : List KnowledgeEntry

abbrev Activated := OrdMap KnowledgeEntryId ActivatedCandidate

/-- `evaluate_activation` behind the probability gate. -/
def Pass.gate (pass : Pass) (entry : KnowledgeEntry) : Bool :=
  probabilityAllows pass.lib pass.bookId entry pass.seed

/-- One entry of the first pass. -/
def Pass.initialStep (pass : Pass) (scan : ActivationScan) (activated : Activated)
    (entry : KnowledgeEntry) : Work Activated :=
  if !entry.enabled then pure activated
  else do
    match ← evaluateActivation pass.lib pass.evaluation scan entry with
    | some reasons =>
      if pass.gate entry then
        return activated.insert entry.id ⟨reasons, 0, estimatedTokens entry pass.estimates⟩
      else return activated
    | none => return activated

/-- The parent an activation is attributed to. -/
def triggerOf (frontier : List KnowledgeEntryId) (fallback : KnowledgeEntryId)
    (entry : KnowledgeEntry) : KnowledgeEntryId :=
  (entry.parentId.filter fun parentId => frontier.contains parentId).getD fallback

/-- One entry of the pass of round `depth`. -/
def Pass.recursiveStep (pass : Pass) (scan : ActivationScan) (depth : Nat)
    (frontier : List KnowledgeEntryId) (fallback : KnowledgeEntryId)
    (state : Activated × List KnowledgeEntryId) (entry : KnowledgeEntry) :
    Work (Activated × List KnowledgeEntryId) :=
  if !entry.enabled || state.1.contains entry.id then pure state
  else do
    match ← evaluateActivation pass.lib pass.evaluation scan entry with
    | none => return state
    | some reasons =>
      if !pass.gate entry then return state
      else
        let reasons := pushReason reasons (.recursive (triggerOf frontier fallback entry))
        return (state.1.insert entry.id ⟨reasons, depth, estimatedTokens entry pass.estimates⟩,
          state.2 ++ [entry.id])

/-- Appends the contents of a frontier to the scan. -/
def Pass.appendFrontier (pass : Pass) (scan : ActivationScan) (frontier : List KnowledgeEntryId) :
    Work ActivationScan :=
  frontier.foldlM (fun scan parentId =>
    match pass.entries.find? fun entry => entry.id = parentId with
    | none => pure scan
    | some parent => scan.appendText pass.lib parent.content parent.id) scan

/-- The rounds from `depth` on, at most `rounds` of them. -/
def Pass.recursionRounds (pass : Pass) :
    Nat → Nat → ActivationScan → Activated → List KnowledgeEntryId →
      Work (ActivationScan × Activated)
  | 0, _, scan, activated, _ => pure (scan, activated)
  | rounds + 1, depth, scan, activated, frontier =>
    match sortIds frontier with
    | [] => pure (scan, activated)
    | fallback :: others => do
      let scan ← pass.appendFrontier scan (fallback :: others)
      let (activated, next) ← pass.entries.foldlM
        (pass.recursiveStep scan depth (fallback :: others) fallback) (activated, [])
      pass.recursionRounds rounds (depth + 1) scan activated next

/-- The first pass and the rounds: the last scan and what is activated. -/
def Pass.activate (pass : Pass) (book : KnowledgeBook) (scan : ActivationScan) :
    Work (ActivationScan × Activated) := do
  let activated ← pass.entries.foldlM (pass.initialStep scan) .empty
  if book.recursive && book.maxRecursionDepth > 0 then
    pass.recursionRounds book.maxRecursionDepth.toNat 1 scan activated activated.keys
  else return (scan, activated)

/-! ## Evidence and the token budget -/

def disabledReason : String := "entry is disabled"
def gatedReason : String := "deterministic activation probability gate"
def unmatchedReason : String := "activation rule did not match"
def entryLimitReason : String := "entry exceeds its per-entry token limit"
def budgetOverflowReason : String := "knowledge token budget overflow"
def budgetReason : String := "entry does not fit the remaining knowledge token budget"

abbrev EvidenceMap := OrdMap KnowledgeEntryId KnowledgeSelectionEvidence

/-- The evidence an entry starts with. -/
def entryEvidence (estimates : OrdMap KnowledgeEntryId UInt32) (entry : KnowledgeEntry) :
    KnowledgeSelectionEvidence where
  entryId := entry.id
  selected := false
  reasons := []
  estimatedTokens := estimatedTokens entry estimates
  exclusionReason := if entry.enabled then none else some disabledReason

def initialEvidence (entries : List KnowledgeEntry) (estimates : OrdMap KnowledgeEntryId UInt32) :
    EvidenceMap :=
  .ofList (entries.map fun entry => (entry.id, entryEvidence estimates entry))

/-- One entry of `apply_activation_exclusions`; every entry has its evidence. -/
def Pass.exclusionStep (pass : Pass) (scan : ActivationScan) (activated : Activated)
    (evidence : EvidenceMap) (entry : KnowledgeEntry) : Work EvidenceMap :=
  if !entry.enabled then pure evidence
  else match activated.get? entry.id with
    | some candidate =>
      pure (evidence.modify entry.id fun item => { item with reasons := candidate.reasons })
    | none => do
      let reasons ← evaluateActivation pass.lib pass.evaluation scan entry
      let why := if reasons.isSome && !pass.gate entry then gatedReason else unmatchedReason
      return evidence.modify entry.id fun item => { item with exclusionReason := some why }

def Pass.applyActivationExclusions (pass : Pass) (scan : ActivationScan) (activated : Activated)
    (evidence : EvidenceMap) : Work EvidenceMap :=
  pass.entries.foldlM (pass.exclusionStep scan activated) evidence

def activationTier (reasons : List KnowledgeActivationReason) : Nat :=
  if .manual ∈ reasons then 0 else if .always ∈ reasons then 1 else 2

/-- The order of two tuples from the orders of their components. -/
def lexLe (orders : List Ordering) : Bool := (orders.find? (· ≠ .eq)).getD .eq ≠ .gt

/-- The order of the candidates: tier, priorities and importance descending, tokens, id. -/
def candidateLe (left right : KnowledgeEntry × ActivatedCandidate) : Bool :=
  lexLe [compare (activationTier left.2.reasons) (activationTier right.2.reasons),
    compare right.1.priority left.1.priority,
    compare right.1.tokenPolicy.priority.toNat left.1.tokenPolicy.priority.toNat,
    compare right.1.importance.toNat left.1.importance.toNat,
    compare left.2.estimatedTokens.toNat right.2.estimatedTokens.toNat,
    compare left.1.id right.1.id]

/-- The activated entries in selection order. -/
def budgetOrder (entries : List KnowledgeEntry) (activated : Activated) :
    List (KnowledgeEntry × ActivatedCandidate) :=
  stableSort candidateLe (activated.entries.filterMap fun item =>
    (entries.find? fun entry => entry.id = item.1).map fun entry => (entry, item.2))

/-- The state of the budget loop. -/
structure Spending where
  selected : List SelectedKnowledgeEntry
  usedTokens : UInt32
  evidence : EvidenceMap

/-- Leaves a candidate out for the reason `why`. -/
def Spending.exclude (state : Spending) (entryId : KnowledgeEntryId) (why : String) : Spending :=
  { state with
    evidence := state.evidence.modify entryId fun item =>
      { item with exclusionReason := some why } }

/-- `used.checked_add(tokens)`. -/
def checkedAddTokens (used tokens : UInt32) : Option UInt32 :=
  u32TryFrom (used.toNat + tokens.toNat)

/-- Selects a candidate; `nextTokens` counts it. -/
def Spending.select (state : Spending) (entry : KnowledgeEntry) (candidate : ActivatedCandidate)
    (nextTokens : UInt32) : Spending where
  selected := state.selected ++ [
    { entryId := entry.id
      content := entry.content
      placement := entry.placement
      estimatedTokens := candidate.estimatedTokens
      recursionDepth := candidate.recursionDepth
      reasons := candidate.reasons }]
  usedTokens := nextTokens
  evidence := state.evidence.modify entry.id fun item =>
    { item with selected := true, exclusionReason := none }

/-- One candidate of `apply_budget`. -/
def spendStep (maxTokens : UInt32) (state : Spending)
    (item : KnowledgeEntry × ActivatedCandidate) : Spending :=
  if item.1.tokenPolicy.maxTokens.any fun limit => item.2.estimatedTokens > limit then
    state.exclude item.1.id entryLimitReason
  else match checkedAddTokens state.usedTokens item.2.estimatedTokens with
    | none => state.exclude item.1.id budgetOverflowReason
    | some nextTokens =>
      if nextTokens > maxTokens then state.exclude item.1.id budgetReason
      else state.select item.1 item.2 nextTokens

def applyBudget (maxTokens : UInt32) (entries : List KnowledgeEntry) (activated : Activated)
    (evidence : EvidenceMap) : Spending :=
  (budgetOrder entries activated).foldl (spendStep maxTokens) ⟨[], 0, evidence⟩

/-- The evidence in id order. -/
def sortedEvidence (evidence : EvidenceMap) : List KnowledgeSelectionEvidence :=
  stableSort (fun left right => decide (left.entryId ≤ right.entryId)) evidence.values

/-! ## Selection -/

/-- What the selection reads of a context once its scores are normalized. -/
def evaluationContext (context : KnowledgeSelectionContext)
    (scores : OrdMap KnowledgeEntryId UInt32 × OrdMap KnowledgeEntryId Nat)
    (regexes : CompiledRegexes) : EvaluationContext where
  manualEntryIds := context.manualEntryIds
  semanticScores := scores.1
  semanticRank := scores.2
  vars := context.vars
  supportedCapabilities := context.supportedCapabilities
  regexes := regexes

/-- What the passes of a selection read. -/
def passOf (lib : KnowledgeExternals) (book : KnowledgeBook) (context : KnowledgeSelectionContext)
    (entries : List KnowledgeEntry) (regexes : CompiledRegexes)
    (scores : OrdMap KnowledgeEntryId UInt32 × OrdMap KnowledgeEntryId Nat) : Pass where
  lib := lib
  bookId := book.id
  seed := context.activationSeed
  estimates := context.tokenEstimates
  evaluation := evaluationContext context scores regexes
  entries := entries

/-- The selection from the activation scan on. -/
def Pass.select (pass : Pass) (book : KnowledgeBook) (scanTexts : List String) :
    Work KnowledgeSelection := do
  let scopeId := (pass.entries.head?.map (·.id)).getD book.id
  let scan ← ActivationScan.fromTexts pass.lib book.scanDepth scanTexts scopeId
  let (scan, activated) ← pass.activate book scan
  let evidence ← pass.applyActivationExclusions scan activated
    (initialEvidence pass.entries pass.estimates)
  let spent := applyBudget book.tokenBudget.maxTokens pass.entries activated evidence
  return {
    selected := spent.selected
    evidence := sortedEvidence spent.evidence
    usedTokens := spent.usedTokens
    tokenBudget := book.tokenBudget.maxTokens }

/-- The selection over the normalized entries. -/
def selectNormalized (lib : KnowledgeExternals) (book : KnowledgeBook)
    (context : KnowledgeSelectionContext) (entries : List KnowledgeEntry) :
    Work KnowledgeSelection := do
  let regexes ← compileRegexes lib entries
  let scores ← lift (normalizeSemanticScores entries context.semanticScores)
  (passOf lib book context entries regexes scores).select book context.scanTexts

def selectWithBudget (lib : KnowledgeExternals) (book : KnowledgeBook)
    (context : KnowledgeSelectionContext) : Work KnowledgeSelection := do
  lift (validateBook book)
  chargeBookNormalization book
  let entries ← lift (normalizedEntries book)
  selectNormalized lib book context entries

/-- `KnowledgeEngine::select`. -/
def selectKnowledge (lib : KnowledgeExternals) (book : KnowledgeBook)
    (context : KnowledgeSelectionContext) : Selection KnowledgeSelection :=
  (selectWithBudget lib book context defaultWorkBudget).1

end LorePia
