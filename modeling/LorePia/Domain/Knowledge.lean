import Mathlib.Data.List.Infix
import LorePia.Domain.Validate

/-!
# Knowledge books (`crates/domain/src/orchestration.rs`)

Knowledge books, their entries and activation rules, and `KnowledgeBook::validate`. The node
counter of `validate_activation_rule` is threaded as an argument and a result. The parent graph is
walked by the source's three-colour loop; its fuel is the number of entries and one, which the walk
never uses up, since every round but the last colours an unseen entry.
-/

namespace LorePia

open Base

structure TokenBudget where
  maxTokens : UInt32
deriving DecidableEq

inductive ActivationRule
  | always
  | manual
  | keyword (primary secondary : List String) (selective caseSensitive wholeWord : Bool)
  | regex (patterns : List SafeRegex)
  | semantic (threshold : F32) (topK : UInt32)
  | condition (expression : ConditionExpr)
  | any (rules : List ActivationRule)
  | all (rules : List ActivationRule)

structure KnowledgeEntry where
  id : KnowledgeEntryId
  bookId : KnowledgeBookId
  name : String
  content : String
  enabled : Bool
  activation : ActivationRule
  priority : Int
  importance : UInt8
  placement : KnowledgePlacement
  tokenPolicy : TokenPolicy
  parentId : Option KnowledgeEntryId
  activationProbabilityBasisPoints : UInt16
  provenance : Provenance

structure KnowledgeBook where
  id : KnowledgeBookId
  name : String
  schemaVersion : UInt32
  entries : List KnowledgeEntry
  scanDepth : UInt32
  tokenBudget : TokenBudget
  recursive : Bool
  maxRecursionDepth : UInt32
  provenance : Provenance

structure SemanticKnowledgeScore where
  entryId : KnowledgeEntryId
  score : F32
deriving DecidableEq

/-! ## Rules -/

def unsupportedSafeRegexSyntax : List String :=
  ["(?=", "(?!", "(?<=", "(?<!", "\\1", "\\2", "\\k"]

/-- `text.contains(needle)`. -/
def containsText (text needle : String) : Bool := decide (needle.toList <:+: text.toList)

def SafeRegex.validate (regex : SafeRegex) : Validation Unit := do
  validateText "pattern" regex.pattern 1 maxSafeRegexChars
  rejectIf (unsupportedSafeRegexSyntax.any (containsText regex.pattern))
    ⟨"pattern", "look-around and backreferences are not supported"⟩

/-- `!threshold.is_finite() || !(0.0..=1.0).contains(threshold)`. -/
def invalidUnit (value : F32) : Bool := !value.isFinite || !value.inRange 1

mutual
/-- `validate_activation_rule`; returns the node counter. -/
def validateActivationRule : ActivationRule → String → Nat → Nat → Validation Nat
  | rule, path, depth, nodes => do
    rejectIf (depth > 16) ⟨path, "activation nesting exceeds 16"⟩
    rejectIf (nodes + 1 > 512) ⟨path, "activation expression exceeds 512 nodes"⟩
    match rule with
    | .keyword primary secondary _ _ _ =>
      rejectIf (primary.isEmpty ∨ primary.length + secondary.length > 256)
        ⟨path, "keyword activation requires primary keys and at most 256 total keys"⟩
      forIdx (fun index keyword => validateText s!"{path}.keywords[{index}]" keyword 1 1024)
        (primary ++ secondary)
      return nodes + 1
    | .regex patterns =>
      rejectIf (patterns.isEmpty ∨ patterns.length > 64)
        ⟨path, "regex activation requires between 1 and 64 patterns"⟩
      forIdx (fun index pattern => mapErr
        (fun error => ⟨s!"{path}.patterns[{index}].{error.path}", error.reason⟩) pattern.validate)
        patterns
      return nodes + 1
    | .semantic threshold topK =>
      rejectIf (invalidUnit threshold ∨ topK = 0)
        ⟨path, "semantic threshold must be within 0..=1 and top_k positive"⟩
      return nodes + 1
    | .condition expression =>
      validateCondition expression path
      return nodes + 1
    | .any rules | .all rules =>
      rejectIf rules.isEmpty ⟨path, "composed activation requires at least one rule"⟩
      validateActivationRules rules path depth 0 (nodes + 1)
    | .always | .manual => return nodes + 1

/-- The children of a composed rule, from `index` on. -/
def validateActivationRules : List ActivationRule → String → Nat → Nat → Nat → Validation Nat
  | [], _, _, _, nodes => .ok nodes
  | child :: rest, path, depth, index, nodes => do
    let nodes ← validateActivationRule child s!"{path}[{index}]" (depth + 1) nodes
    validateActivationRules rest path depth (index + 1) nodes
end

/-! ## The parent graph -/

inductive KnowledgeParentVisit
  | unseen | active | done
deriving DecidableEq

/-- `entries_by_id.get(id)`: the map is collected in order, so the last entry of an id wins. -/
def entryIndex (entries : List KnowledgeEntry) (id : KnowledgeEntryId) : Option Nat :=
  (entries.zipIdx.reverse.find? fun item => item.1.id = id).map (·.2)

/-- The cursor after an unseen entry: its parent's index, if it has a parent. -/
def parentIndex (entries : List KnowledgeEntry) (rootIndex index : Nat) :
    Validation (Option Nat) :=
  match entries[index]?.bind (·.parentId) with
  | none => .ok none
  | some parentId => do
    let parent ← okOr (entryIndex entries parentId)
      ⟨s!"entries[{rootIndex}].parent_id", "parent must reference an entry in the same book"⟩
    return some parent

/-- The `while` loop from one root: the colours and the path when it ends. -/
def walkParents (entries : List KnowledgeEntry) (rootIndex : Nat) :
    Nat → List KnowledgeParentVisit → List Nat → Option Nat →
      Validation (List KnowledgeParentVisit × List Nat)
  | _, visits, path, none => .ok (visits, path)
  | 0, visits, path, some _ => .ok (visits, path)
  | fuel + 1, visits, path, some index =>
    match visits[index]?.getD .done with
    | .done => .ok (visits, path)
    | .active => .error
        ⟨s!"entries[{rootIndex}].parent_id", "parent graph contains a cycle"⟩
    | .unseen => do
      let cursor ← parentIndex entries rootIndex index
      walkParents entries rootIndex fuel (visits.set index .active) (path ++ [index]) cursor

/-- The `for` loop over the roots. -/
def visitRoots (entries : List KnowledgeEntry) :
    List Nat → List KnowledgeParentVisit → Validation (List KnowledgeParentVisit)
  | [], visits => .ok visits
  | rootIndex :: rest, visits =>
    if visits[rootIndex]? = some .done then visitRoots entries rest visits
    else do
      let (visits, path) ← walkParents entries rootIndex (entries.length + 1) visits [] rootIndex
      visitRoots entries rest (path.foldl (fun visits index => visits.set index .done) visits)

def validateKnowledgeParentGraph (entries : List KnowledgeEntry) : Validation Unit := do
  let _ ← visitRoots entries (List.range entries.length)
    (List.replicate entries.length .unseen)
  return ()

/-! ## Books -/

/-- The checks on one entry of a book. -/
def validateKnowledgeEntry (bookId : KnowledgeBookId) (index : Nat) (entry : KnowledgeEntry) :
    Validation Unit := do
  rejectIf (entry.bookId ≠ bookId)
    ⟨s!"entries[{index}].book_id", "must match the enclosing book"⟩
  validateId s!"entries[{index}].id" entry.id
  validateText s!"entries[{index}].content" entry.content 1 maxKnowledgeEntryTextChars
  rejectIf (entry.importance > 100 ∨ entry.activationProbabilityBasisPoints > 10000)
    ⟨s!"entries[{index}]", "importance or activation probability is out of range"⟩
  let _ ← validateActivationRule entry.activation s!"entries[{index}].activation" 0 0
  rejectIf (entry.parentId = some entry.id)
    ⟨s!"entries[{index}].parent_id", "an entry cannot be its own parent"⟩

def KnowledgeBook.validate (book : KnowledgeBook) : Validation Unit := do
  validateId "id" book.id
  validateText "name" book.name 1 maxNameChars
  rejectIf (book.schemaVersion = 0 ∨ book.entries.length > maxKnowledgeEntries)
    ⟨"entries", s!"schema must be positive and entries at most {maxKnowledgeEntries}"⟩
  rejectIf (book.scanDepth > 1024 ∨ book.maxRecursionDepth > 16 ∨
      book.tokenBudget.maxTokens > 10000000)
    ⟨"knowledge_book", "scan depth, recursion depth, or token budget is out of range"⟩
  rejectIf (book.recursive = false ∧ book.maxRecursionDepth ≠ 0)
    ⟨"max_recursion_depth", "must be zero when recursive retrieval is disabled"⟩
  forIdx (validateKnowledgeEntry book.id) book.entries
  rejectIf (hasDuplicate (book.entries.map (·.id)))
    ⟨"entries", "entry identifiers must be unique"⟩
  validateKnowledgeParentGraph book.entries

end LorePia
