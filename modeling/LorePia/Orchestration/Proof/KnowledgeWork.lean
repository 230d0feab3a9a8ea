import LorePia.Orchestration.KnowledgeEngine

/-!
# Work budgets

Every function of the engine performs a script (`Transparent`): what it charges and what it returns
do not depend on the budget, and each of its charges fails with `RuleLimitExceeded`. The budget laws
of a selection, and of a sequence of selections that share one budget, are the library's laws of
scripts.
-/

namespace LorePia

open Base Metered

variable {lib : KnowledgeExternals}

/-- The error of a charge that does not fit. -/
def IsRuleLimit (error : KnowledgeSelectionError) : Prop := ∃ entryId, error = .ruleLimitExceeded entryId

/-- The engine's computations whose control flow does not depend on the budget. -/
abbrev Scripted {α : Type} (m : Work α) : Prop := Transparent IsRuleLimit m

/-! ## Charges -/

/-- No charge overflows a `usize` before it exceeds the budget. -/
theorem chargeWorkBytes_eq_charge (scopeId : String) (workBytes : Nat) :
    chargeWorkBytes scopeId workBytes = charge workBytes (.ruleLimitExceeded scopeId) := by
  funext budget
  have hlimit := budget.limit_le
  unfold chargeWorkBytes charge
  by_cases hfit : budget.used + workBytes ≤ budget.limit
  · have hadd : checkedAdd budget.used workBytes = some (budget.used + workBytes) := by
      refine checkedAdd_eq_some.2 ⟨?_, rfl⟩
      unfold maxGenerationKnowledgeWorkBytes at hlimit
      unfold usizeMax
      omega
    simp only [hadd, hfit, dite_true]
    rfl
  · rw [dif_neg hfit]
    cases hadd : checkedAdd budget.used workBytes with
    | none => rfl
    | some next =>
      obtain ⟨-, rfl⟩ := checkedAdd_eq_some.1 hadd
      simp only [hfit, dite_false]

theorem scripted_charge (scopeId : String) (workBytes : Nat) :
    Scripted (chargeWorkBytes scopeId workBytes) := by
  rw [chargeWorkBytes_eq_charge]
  exact transparent_charge ⟨scopeId, rfl⟩

theorem scripted_orRuleLimit {α : Type} (value : Option α) (entryId : String) :
    Scripted (orRuleLimit value entryId) := transparent_lift _

theorem scripted_ite {α : Type} {p : Prop} [Decidable p] {m m' : Work α} (hm : Scripted m)
    (hm' : Scripted m') : Scripted (if p then m else m') := by
  split
  · exact hm
  · exact hm'

/-! ## Normalization -/

mutual
theorem chargeActivationRuleNormalization_scripted (entryId : KnowledgeEntryId) :
    ∀ rule : ActivationRule, Scripted (chargeActivationRuleNormalization entryId rule)
  | .always | .manual | .semantic .. | .condition _ => scripted_charge _ _
  | .keyword .. =>
    (scripted_charge _ _).bind fun _ => .forEach fun _ _ => scripted_charge _ _
  | .regex _ => (scripted_charge _ _).bind fun _ => .forEach fun _ _ => scripted_charge _ _
  | .any rules | .all rules =>
    (scripted_charge _ _).bind fun _ => chargeActivationRulesNormalization_scripted entryId rules

theorem chargeActivationRulesNormalization_scripted (entryId : KnowledgeEntryId) :
    ∀ rules : List ActivationRule, Scripted (chargeActivationRulesNormalization entryId rules)
  | [] => transparent_pure _
  | rule :: rest => (chargeActivationRuleNormalization_scripted entryId rule).bind fun _ =>
      chargeActivationRulesNormalization_scripted entryId rest
end

theorem chargeEntryNormalization_scripted (entry : KnowledgeEntry) :
    Scripted (chargeEntryNormalization entry) :=
  (scripted_orRuleLimit _ _).bind fun _ => (scripted_charge _ _).bind fun _ =>
    chargeActivationRuleNormalization_scripted _ _

theorem chargeBookNormalization_scripted (book : KnowledgeBook) :
    Scripted (chargeBookNormalization book) :=
  (scripted_orRuleLimit _ _).bind fun _ => (scripted_charge _ _).bind fun _ =>
    .forEach fun entry _ => chargeEntryNormalization_scripted entry

theorem chargeCompilation_scripted (plan : RegexPlan) : Scripted (chargeCompilation plan) := by
  unfold chargeCompilation
  split
  · exact transparent_pure _
  · exact (scripted_orRuleLimit _ _).bind fun _ => scripted_charge _ _

theorem compileRegexes_scripted (entries : List KnowledgeEntry) :
    Scripted (compileRegexes lib entries) :=
  (transparent_lift _).bind fun plan => (chargeCompilation_scripted plan).bind fun _ =>
    transparent_lift _

/-! ## The scan -/

theorem fromTexts_scripted (scanDepth : UInt32) (scanTexts : List String) (scopeId : String) :
    Scripted (ActivationScan.fromTexts lib scanDepth scanTexts scopeId) :=
  (scripted_orRuleLimit _ _).bind fun _ => (scripted_orRuleLimit _ _).bind fun _ =>
    (scripted_charge _ _).bind fun _ => (transparent_lift _).bind fun _ => transparent_pure _

theorem appendText_scripted (scan : ActivationScan) (text scopeId : String) :
    Scripted (scan.appendText lib text scopeId) :=
  (scripted_orRuleLimit _ _).bind fun _ => (scripted_charge _ _).bind fun _ =>
    (transparent_lift _).bind fun _ => transparent_pure _

/-! ## Rules -/

theorem firstKeywordMatch_scripted (scan : ActivationScan) (caseSensitive wholeWord : Bool)
    (entryId : KnowledgeEntryId) (keywords : List String) :
    Scripted (firstKeywordMatch lib scan caseSensitive wholeWord entryId keywords) := by
  induction keywords with
  | nil => exact transparent_pure _
  | cons keyword rest ih =>
    unfold firstKeywordMatch
    have htest : Scripted (chargeWorkBytes entryId (scan.matchingText caseSensitive).utf8ByteSize >>=
        fun _ => if containsKeyword lib scan keyword caseSensitive wholeWord = true then
          pure (some keyword)
        else firstKeywordMatch lib scan caseSensitive wholeWord entryId rest) :=
      (scripted_charge _ _).bind fun _ => scripted_ite (transparent_pure _) ih
    refine scripted_ite ih (scripted_ite ?_ htest)
    exact (scripted_charge _ _).bind fun _ => htest

theorem evaluateKeywordRule_scripted (scan : ActivationScan) (entryId : KnowledgeEntryId)
    (primary secondary : List String) (selective caseSensitive wholeWord : Bool) :
    Scripted (evaluateKeywordRule lib scan entryId primary secondary selective caseSensitive
      wholeWord) := by
  refine (firstKeywordMatch_scripted _ _ _ _ _).bind fun primaryMatch => ?_
  cases primaryMatch with
  | none => exact transparent_pure _
  | some primaryMatch =>
    refine scripted_ite ?_ (transparent_pure _)
    refine (firstKeywordMatch_scripted _ _ _ _ _).bind fun secondaryMatch => ?_
    cases secondaryMatch with
    | none => exact transparent_pure _
    | some secondaryMatch => exact transparent_pure _

theorem firstRegexMatch_scripted (context : EvaluationContext) (scan : ActivationScan)
    (entryId : KnowledgeEntryId) (patterns : List SafeRegex) :
    Scripted (firstRegexMatch context scan entryId patterns) := by
  induction patterns with
  | nil => exact transparent_pure _
  | cons pattern rest ih =>
    exact (scripted_charge _ _).bind fun _ => scripted_ite (transparent_pure _) ih

mutual
/-- **Rule evaluation is scripted.** -/
theorem evaluateRule_scripted (context : EvaluationContext) (scan : ActivationScan)
    (entryId : KnowledgeEntryId) :
    ∀ rule : ActivationRule, Scripted (evaluateRule lib context scan entryId rule)
  | .always | .manual | .semantic .. | .condition _ => transparent_pure _
  | .keyword .. => evaluateKeywordRule_scripted _ _ _ _ _ _ _
  | .regex patterns => firstRegexMatch_scripted context scan entryId patterns
  | .any rules => (evaluateAnyRule_scripted context scan entryId [] rules).bind fun _ =>
      transparent_pure _
  | .all rules => evaluateAllRule_scripted context scan entryId [] rules

theorem evaluateAnyRule_scripted (context : EvaluationContext) (scan : ActivationScan)
    (entryId : KnowledgeEntryId) (reasons : List KnowledgeActivationReason) :
    ∀ rules : List ActivationRule, Scripted (evaluateAnyRule lib context scan entryId reasons rules)
  | [] => transparent_pure _
  | rule :: rest => (evaluateRule_scripted context scan entryId rule).bind fun _ =>
      evaluateAnyRule_scripted context scan entryId _ rest

theorem evaluateAllRule_scripted (context : EvaluationContext) (scan : ActivationScan)
    (entryId : KnowledgeEntryId) (reasons : List KnowledgeActivationReason) :
    ∀ rules : List ActivationRule, Scripted (evaluateAllRule lib context scan entryId reasons rules)
  | [] => transparent_pure _
  | rule :: rest => (evaluateRule_scripted context scan entryId rule).bind fun childReasons =>
      match childReasons with
      | none => transparent_pure _
      | some _ => evaluateAllRule_scripted context scan entryId _ rest
end

theorem evaluateActivation_scripted (context : EvaluationContext) (scan : ActivationScan)
    (entry : KnowledgeEntry) : Scripted (evaluateActivation lib context scan entry) :=
  evaluateRule_scripted context scan entry.id entry.activation

/-! ## Passes -/

section Passes

variable (pass : Pass)

theorem initialStep_scripted (scan : ActivationScan) (activated : Activated)
    (entry : KnowledgeEntry) : Scripted (pass.initialStep scan activated entry) := by
  refine scripted_ite (transparent_pure _) ?_
  refine (evaluateActivation_scripted _ _ _).bind fun reasons => ?_
  cases reasons with
  | none => exact transparent_pure _
  | some reasons => exact scripted_ite (transparent_pure _) (transparent_pure _)

theorem recursiveStep_scripted (scan : ActivationScan) (depth : Nat)
    (frontier : List KnowledgeEntryId) (fallback : KnowledgeEntryId)
    (state : Activated × List KnowledgeEntryId) (entry : KnowledgeEntry) :
    Scripted (pass.recursiveStep scan depth frontier fallback state entry) := by
  refine scripted_ite (transparent_pure _) ?_
  refine (evaluateActivation_scripted _ _ _).bind fun reasons => ?_
  cases reasons with
  | none => exact transparent_pure _
  | some reasons => exact scripted_ite (transparent_pure _) (transparent_pure _)

theorem appendFrontier_scripted (scan : ActivationScan) (frontier : List KnowledgeEntryId) :
    Scripted (pass.appendFrontier scan frontier) := by
  refine Transparent.foldlM (fun scan parentId _ => ?_) scan
  split
  · exact transparent_pure _
  · exact appendText_scripted _ _ _

theorem recursionRounds_scripted (rounds depth : Nat) (scan : ActivationScan)
    (activated : Activated) (frontier : List KnowledgeEntryId) :
    Scripted (pass.recursionRounds rounds depth scan activated frontier) := by
  induction rounds generalizing depth scan activated frontier with
  | zero => exact transparent_pure _
  | succ rounds ih =>
    unfold Pass.recursionRounds
    split
    · exact transparent_pure _
    · refine (appendFrontier_scripted pass _ _).bind fun scan => ?_
      refine (Transparent.foldlM (fun state entry _ => ?_) _).bind fun state => ih _ _ _ _
      exact recursiveStep_scripted pass _ _ _ _ _ _

theorem activate_scripted (book : KnowledgeBook) (scan : ActivationScan) :
    Scripted (pass.activate book scan) := by
  refine (Transparent.foldlM (fun activated entry _ => ?_) _).bind fun activated => ?_
  · exact initialStep_scripted pass _ _ _
  · exact scripted_ite (recursionRounds_scripted pass _ _ _ _ _) (transparent_pure _)

theorem applyActivationExclusions_scripted (scan : ActivationScan) (activated : Activated)
    (evidence : EvidenceMap) : Scripted (pass.applyActivationExclusions scan activated evidence) := by
  refine Transparent.foldlM (fun evidence entry _ => ?_) evidence
  unfold Pass.exclusionStep
  refine scripted_ite (transparent_pure _) ?_
  split
  · exact transparent_pure _
  · exact (evaluateActivation_scripted _ _ _).bind fun _ => transparent_pure _

theorem passSelect_scripted (book : KnowledgeBook) (scanTexts : List String) :
    Scripted (pass.select book scanTexts) := by
  refine (fromTexts_scripted _ _ _).bind fun scan => ?_
  refine (activate_scripted _ _ _).bind fun state => ?_
  refine (applyActivationExclusions_scripted _ _ _ _).bind fun evidence => ?_
  exact transparent_pure _

end Passes

theorem selectNormalized_scripted (book : KnowledgeBook) (context : KnowledgeSelectionContext)
    (entries : List KnowledgeEntry) : Scripted (selectNormalized lib book context entries) := by
  refine (compileRegexes_scripted entries).bind fun regexes => ?_
  refine (transparent_lift _).bind fun scores => ?_
  exact passSelect_scripted _ _ _

/-- **A selection is scripted.** -/
theorem selectWithBudget_scripted (book : KnowledgeBook) (context : KnowledgeSelectionContext) :
    Scripted (selectWithBudget lib book context) := by
  refine (transparent_lift _).bind fun _ => ?_
  refine (chargeBookNormalization_scripted book).bind fun _ => ?_
  exact (transparent_lift _).bind fun entries => selectNormalized_scripted book context entries

/-! ## Budgets -/

/-- Books selected in order with one budget. -/
def selectBooks (lib : KnowledgeExternals) (items : List (KnowledgeBook × KnowledgeSelectionContext)) :
    Work (List KnowledgeSelection) :=
  inSequence (items.map fun item => selectWithBudget lib item.1 item.2)

/-- **Work-budget transparency.** A selection never gives work back and never exceeds its budget; a
successful one decides the outcome on every other budget; and books that share a budget succeed
exactly when the sum of what each charges fits. -/
theorem selectWithBudget_work (lib : KnowledgeExternals) (book : KnowledgeBook)
    (context : KnowledgeSelectionContext) (budget : KnowledgeWorkBudget) :
    (budget.used ≤ (selectWithBudget lib book context budget).2.used ∧
        (selectWithBudget lib book context budget).2.used ≤ budget.limit ∧
          budget.limit ≤ 64 * 1024 * 1024) ∧
      (∀ selection after, selectWithBudget lib book context budget = (.ok selection, after) →
        ∀ other : KnowledgeWorkBudget,
          (after.used - budget.used ≤ other.remaining →
            ∃ after', selectWithBudget lib book context other = (.ok selection, after') ∧
              after'.used = other.used + (after.used - budget.used)) ∧
          (other.remaining < after.used - budget.used → ∃ entryId after',
            selectWithBudget lib book context other =
              (.error (.ruleLimitExceeded entryId), after'))) ∧
        ∀ items : List (KnowledgeBook × KnowledgeSelectionContext),
          (∃ selections after, selectBooks lib items budget = (.ok selections, after)) ↔
            ∃ charges : List Nat, List.Forall₂ (fun item charge => ∃ selection,
                Costs (selectWithBudget lib item.1 item.2) selection charge) items charges ∧
              charges.sum ≤ budget.remaining := by
  have hscript : Scripted (selectWithBudget lib book context) := selectWithBudget_scripted book context
  refine ⟨?_, ?_, ?_⟩
  · obtain ⟨hused, hlimit⟩ := hscript.used_le budget
    have hle := (selectWithBudget lib book context budget).2.used_le
    rw [hlimit] at hle
    exact ⟨hused, hle, budget.limit_le⟩
  · intro selection after h other
    obtain ⟨-, -, hok, herr⟩ := hscript.of_ok h
    constructor
    · intro hfit
      obtain ⟨after', hrun, -, hcharge⟩ := hok other hfit
      exact ⟨after', hrun, hcharge⟩
    · intro hshort
      obtain ⟨error, after', ⟨entryId, rfl⟩, hrun⟩ := herr other hshort
      exact ⟨entryId, after', hrun⟩
  · intro items
    unfold selectBooks
    rw [inSequence_run_iff (P := IsRuleLimit) ?_]
    · simp only [List.forall₂_map_left_iff]
    · intro m hm
      obtain ⟨item, -, rfl⟩ := List.mem_map.1 hm
      exact selectWithBudget_scripted item.1 item.2

/-! ## A book -/

/-- Library functions that are right on ASCII texts without regexes and probability gates. -/
def asciiExternals : KnowledgeExternals where
  sha256 _ := Vector.replicate 32 0
  toLowercase text := String.ofList (text.toList.map Char.toLower)
  charToLowercase c := [c.toLower]
  isAlphanumeric := Char.isAlphanum
  buildRegex _ _ _ _ := .error "unsupported"

def sampleProvenance : Provenance := ⟨.userCreated, none, none, none, none, none⟩

def sampleEntry (id content : String) (activation : ActivationRule) : KnowledgeEntry where
  id := id
  bookId := "book"
  name := id
  content := content
  enabled := true
  activation := activation
  priority := 0
  importance := 0
  placement := .retrievedContext
  tokenPolicy := ⟨0, none, none, none⟩
  parentId := none
  activationProbabilityBasisPoints := 10000
  provenance := sampleProvenance

/-- An entry that is always active and one that its content activates. -/
def sampleBook : KnowledgeBook where
  id := "book"
  name := "Book"
  schemaVersion := 1
  entries := [sampleEntry "tide" "The moon pulls." .always,
    sampleEntry "harbor" "The harbor sleeps." (.keyword ["moon"] [] false true false)]
  scanDepth := 1
  tokenBudget := ⟨100⟩
  recursive := true
  maxRecursionDepth := 2
  provenance := sampleProvenance

def sampleSelectionContext : KnowledgeSelectionContext where
  scanTexts := ["Hello."]
  manualEntryIds := []
  semanticScores := []
  vars := ⟨[]⟩
  supportedCapabilities := []
  tokenEstimates := .empty
  activationSeed := 0

/-- The work of a run that succeeded. -/
def chargedWork {α : Type} (run : Selection α × KnowledgeWorkBudget) : Option Nat :=
  match run.1 with
  | .ok _ => some run.2.used
  | .error _ => none

theorem chargedWork_eq_some {α : Type} {run : Selection α × KnowledgeWorkBudget} {work : Nat}
    (h : chargedWork run = some work) : ∃ value after, run = (.ok value, after) ∧ after.used = work := by
  obtain ⟨result, after⟩ := run
  cases result with
  | error error => cases h
  | ok value =>
    cases h
    exact ⟨value, after, rfl, rfl⟩

theorem sampleBook_select : ∃ selection after,
    selectWithBudget asciiExternals sampleBook sampleSelectionContext defaultWorkBudget =
      (.ok selection, after) ∧ after.used = 189 :=
  chargedWork_eq_some (by decide +kernel)

theorem selectWithBudget_work_sampleBook : ∃ selection after after' entryId after'',
    selectWithBudget asciiExternals sampleBook sampleSelectionContext defaultWorkBudget =
        (.ok selection, after) ∧ after.used = 189 ∧
      selectWithBudget asciiExternals sampleBook sampleSelectionContext (withMaxWorkBytes 189) =
          (.ok selection, after') ∧
        selectWithBudget asciiExternals sampleBook sampleSelectionContext (withMaxWorkBytes 188) =
          (.error (.ruleLimitExceeded entryId), after'') := by
  obtain ⟨selection, after, h, hused⟩ := sampleBook_select
  obtain ⟨-, hall, -⟩ := selectWithBudget_work asciiExternals sampleBook sampleSelectionContext
    defaultWorkBudget
  have hcharge : after.used - defaultWorkBudget.used = 189 := by rw [hused]; rfl
  obtain ⟨after', hfit, -⟩ := (hall selection after h (withMaxWorkBytes 189)).1
    (by rw [hcharge]; decide)
  obtain ⟨entryId, after'', hshort⟩ := (hall selection after h (withMaxWorkBytes 188)).2
    (by rw [hcharge]; decide)
  exact ⟨selection, after, after', entryId, after'', h, hused, hfit, hshort⟩

end LorePia
