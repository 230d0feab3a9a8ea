import LorePia.Orchestration.Proof.KnowledgeRounds

/-!
# What a rule means

`RuleHolds` is the boolean meaning of an activation rule. A rule of a validated tree matches exactly when it holds
(`matchRule_matches`): the invariant of the two loops is that the reasons collected so far are without repeats and
come from leaves that hold, and that a child that holds adds a reason, so the reasons of an `Any` rule are empty only
when none of its children holds. `ruleWork` is enough work for every rule.
-/

namespace LorePia

open Base Metered

variable {lib : KnowledgeExternals} {context : EvaluationContext} {scan : ActivationScan}
  {entryId : KnowledgeEntryId}

/-! ## Meaning -/

/-- A keyword that the scan contains; the engine passes over empty ones. -/
def KeywordOccurs (lib : KnowledgeExternals) (scan : ActivationScan) (caseSensitive wholeWord : Bool)
    (keyword : String) : Prop :=
  keyword ≠ "" ∧ containsKeyword lib scan keyword caseSensitive wholeWord = true

mutual
/-- The rule holds of the scan. -/
def RuleHolds (lib : KnowledgeExternals) (context : EvaluationContext) (scan : ActivationScan)
    (entryId : KnowledgeEntryId) : ActivationRule → Prop
  | .always => True
  | .manual => entryId ∈ context.manualEntryIds
  | .keyword primary secondary selective caseSensitive wholeWord =>
    (∃ keyword ∈ primary, KeywordOccurs lib scan caseSensitive wholeWord keyword) ∧
      (selective = true → ∃ keyword ∈ secondary, KeywordOccurs lib scan caseSensitive wholeWord keyword)
  | .regex patterns => ∃ pattern ∈ patterns, regexMatches context pattern scan.original = true
  | .semantic threshold topK => ∃ score rank, context.semanticScores.get? entryId = some score ∧
      context.semanticRank.get? entryId = some rank ∧ score ≥ scoreToMillionths threshold ∧ rank < topK.toNat
  | .condition expression =>
    evaluateKnowledgeCondition context.vars context.supportedCapabilities expression = true
  | .any rules => SomeRuleHolds lib context scan entryId rules
  | .all rules => EveryRuleHolds lib context scan entryId rules

/-- One of the rules holds. -/
def SomeRuleHolds (lib : KnowledgeExternals) (context : EvaluationContext) (scan : ActivationScan)
    (entryId : KnowledgeEntryId) : List ActivationRule → Prop
  | [] => False
  | rule :: rest => RuleHolds lib context scan entryId rule ∨ SomeRuleHolds lib context scan entryId rest

/-- All rules hold. -/
def EveryRuleHolds (lib : KnowledgeExternals) (context : EvaluationContext) (scan : ActivationScan)
    (entryId : KnowledgeEntryId) : List ActivationRule → Prop
  | [] => True
  | rule :: rest => RuleHolds lib context scan entryId rule ∧ EveryRuleHolds lib context scan entryId rest
end

mutual
/-- The leaves of a rule. -/
def ruleLeaves : ActivationRule → List ActivationRule
  | .any rules | .all rules => rulesLeaves rules
  | rule => [rule]

/-- The leaves of some rules. -/
def rulesLeaves : List ActivationRule → List ActivationRule
  | [] => []
  | rule :: rest => ruleLeaves rule ++ rulesLeaves rest
end

/-- A leaf that gives a reason. -/
def LeafGives (lib : KnowledgeExternals) (context : EvaluationContext) (scan : ActivationScan)
    (entryId : KnowledgeEntryId) (reason : KnowledgeActivationReason) : ActivationRule → Prop
  | .always => reason = .always
  | .manual => reason = .manual
  | .keyword primary secondary _ caseSensitive wholeWord => ∃ keyword ∈ primary ++ secondary,
      KeywordOccurs lib scan caseSensitive wholeWord keyword ∧ reason = .keyword keyword
  | .regex patterns => ∃ pattern ∈ patterns, regexMatches context pattern scan.original = true ∧
      reason = .regex pattern.pattern
  | .semantic _ _ => ∃ score, context.semanticScores.get? entryId = some score ∧ reason = .semantic score
  | .condition _ => reason = .condition
  | .any _ | .all _ => False

/-- A reason that comes from a leaf that holds. -/
def ReasonJustified (lib : KnowledgeExternals) (context : EvaluationContext) (scan : ActivationScan)
    (entryId : KnowledgeEntryId) (leaves : List ActivationRule) (reason : KnowledgeActivationReason) : Prop :=
  ∃ leaf ∈ leaves, RuleHolds lib context scan entryId leaf ∧ LeafGives lib context scan entryId reason leaf

theorem ReasonJustified.mono {leaves leaves' : List ActivationRule} {reason : KnowledgeActivationReason}
    (h : ReasonJustified lib context scan entryId leaves reason) (hsub : leaves ⊆ leaves') :
    ReasonJustified lib context scan entryId leaves' reason := by
  obtain ⟨leaf, hleaf, hholds⟩ := h
  exact ⟨leaf, hsub hleaf, hholds⟩

mutual
/-- Every composed rule has children. -/
def Populated : ActivationRule → Prop
  | .any rules | .all rules => rules ≠ [] ∧ AllPopulated rules
  | .always | .manual | .keyword .. | .regex _ | .semantic .. | .condition _ => True

/-- The children of composed rules. -/
def AllPopulated : List ActivationRule → Prop
  | [] => True
  | rule :: rest => Populated rule ∧ AllPopulated rest
end

mutual
theorem visitRule_populated : ∀ {rule : ActivationRule} {depth nodes nodes' : Nat},
    visitRule rule depth nodes = some nodes' → Populated rule
  | .any rules, depth, nodes, nodes', h | .all rules, depth, nodes, nodes', h => by
    rw [visitRule] at h
    obtain ⟨count, -, h⟩ := Option.bind_eq_some_iff.1 h
    split at h
    · cases h
    · simp only [] at h
      split at h
      · cases h
      · rename_i hne
        exact ⟨by simpa using hne, visitRules_populated h⟩
  | .always, _, _, _, _ | .manual, _, _, _, _ | .keyword .., _, _, _, _ | .regex _, _, _, _, _
  | .semantic .., _, _, _, _ | .condition _, _, _, _, _ => trivial

theorem visitRules_populated : ∀ {rules : List ActivationRule} {depth nodes nodes' : Nat},
    visitRules rules depth nodes = some nodes' → AllPopulated rules
  | [], _, _, _, _ => trivial
  | rule :: rest, depth, nodes, nodes', h => by
    rw [visitRules] at h
    obtain ⟨next, hrule, h⟩ := Option.bind_eq_some_iff.1 h
    exact ⟨visitRule_populated hrule, visitRules_populated h⟩
end

theorem validateRule_populated {entry : KnowledgeEntry} (h : validateRule entry = .ok ()) :
    Populated entry.activation := by
  unfold validateRule at h
  split at h
  · rename_i nodes hvisit
    exact visitRule_populated hvisit
  · split at h <;> cases h

/-! ## Reasons -/

theorem mem_pushReason_iff {reasons : List KnowledgeActivationReason} {reason other : KnowledgeActivationReason} :
    other ∈ pushReason reasons reason ↔ other ∈ reasons ∨ other = reason := by
  unfold pushReason
  split
  · rename_i hin
    exact ⟨.inl, fun h => h.elim id fun heq => heq ▸ hin⟩
  · rw [List.mem_append, List.mem_singleton]

theorem pushReason_nodup {reasons : List KnowledgeActivationReason} (h : reasons.Nodup)
    (reason : KnowledgeActivationReason) : (pushReason reasons reason).Nodup := by
  unfold pushReason
  split
  · exact h
  · rename_i hout
    exact nodup_snoc.2 ⟨h, hout⟩

theorem mem_foldl_pushReason {other : KnowledgeActivationReason} : ∀ {added reasons : List KnowledgeActivationReason},
    other ∈ added.foldl pushReason reasons ↔ other ∈ reasons ∨ other ∈ added
  | [], _ => by simp
  | reason :: added, reasons => by
    rw [List.foldl_cons, mem_foldl_pushReason, mem_pushReason_iff, List.mem_cons, or_assoc]

theorem foldl_pushReason_nodup : ∀ {added reasons : List KnowledgeActivationReason}, reasons.Nodup →
    (added.foldl pushReason reasons).Nodup
  | [], _, h => h
  | reason :: added, reasons, h => by
    rw [List.foldl_cons]
    exact foldl_pushReason_nodup (pushReason_nodup h reason)

/-- Reasons without repeats that come from some leaves. -/
structure Reasons (lib : KnowledgeExternals) (context : EvaluationContext) (scan : ActivationScan)
    (entryId : KnowledgeEntryId) (leaves : List ActivationRule) (reasons : List KnowledgeActivationReason) :
    Prop where
  distinct : reasons.Nodup
  justified : ∀ reason ∈ reasons, ReasonJustified lib context scan entryId leaves reason

theorem Reasons.foldl {leaves leaves' : List ActivationRule} {reasons added : List KnowledgeActivationReason}
    (h : Reasons lib context scan entryId leaves reasons)
    (hadded : ∀ reason ∈ added, ReasonJustified lib context scan entryId leaves' reason) :
    Reasons lib context scan entryId (leaves ++ leaves') (added.foldl pushReason reasons) where
  distinct := foldl_pushReason_nodup h.distinct
  justified reason hreason := by
    rcases mem_foldl_pushReason.1 hreason with hin | hin
    · exact (h.justified reason hin).mono (List.subset_append_left _ _)
    · exact (hadded reason hin).mono (List.subset_append_right _ _)

/-- What matching a rule gives: reasons exactly when it holds, at least one, and from its leaves. -/
structure RuleMatches (lib : KnowledgeExternals) (context : EvaluationContext) (scan : ActivationScan)
    (entryId : KnowledgeEntryId) (rule : ActivationRule) (result : Option (List KnowledgeActivationReason)) :
    Prop where
  holds : result.isSome = true ↔ RuleHolds lib context scan entryId rule
  nonempty : ∀ reasons, result = some reasons → reasons ≠ []
  reasons : ∀ reasons, result = some reasons → Reasons lib context scan entryId (ruleLeaves rule) reasons

/-- A leaf with one reason when it holds. -/
theorem matches_leaf {rule : ActivationRule} {p : Prop} [Decidable p] {reason : KnowledgeActivationReason}
    (hleaf : ruleLeaves rule = [rule]) (hp : p ↔ RuleHolds lib context scan entryId rule)
    (hgives : p → LeafGives lib context scan entryId reason rule) :
    RuleMatches lib context scan entryId rule (if p then some [reason] else none) := by
  by_cases h : p
  · rw [if_pos h]
    refine ⟨iff_of_true rfl (hp.1 h), fun reasons hreasons => ?_, fun reasons hreasons => ?_⟩
    · cases hreasons
      exact List.cons_ne_nil _ _
    · cases hreasons
      refine ⟨List.nodup_singleton _, fun other hother => ?_⟩
      rw [List.mem_singleton.1 hother, hleaf]
      exact ⟨rule, List.mem_singleton_self _, hp.1 h, hgives h⟩
  · rw [if_neg h]
    exact ⟨iff_of_false (by decide) fun hholds => h (hp.2 hholds), nofun, nofun⟩

theorem firstKeyword_eq_some {caseSensitive wholeWord : Bool} {keywords : List String} {keyword : String}
    (h : firstKeyword lib scan caseSensitive wholeWord keywords = some keyword) :
    keyword ∈ keywords ∧ KeywordOccurs lib scan caseSensitive wholeWord keyword := by
  have hfound := List.find?_some h
  rw [Bool.and_eq_true, Bool.not_eq_true', String.isEmpty_eq_false_iff] at hfound
  exact ⟨List.mem_of_find?_eq_some h, hfound⟩

theorem firstKeyword_eq_none {caseSensitive wholeWord : Bool} {keywords : List String}
    (h : firstKeyword lib scan caseSensitive wholeWord keywords = none) :
    ¬ ∃ keyword ∈ keywords, KeywordOccurs lib scan caseSensitive wholeWord keyword := by
  rintro ⟨keyword, hmem, hne, hin⟩
  refine List.find?_eq_none.1 h keyword hmem ?_
  rw [Bool.and_eq_true, Bool.not_eq_true', String.isEmpty_eq_false_iff]
  exact ⟨hne, hin⟩

theorem matches_keyword (primary secondary : List String) (selective caseSensitive wholeWord : Bool) :
    RuleMatches lib context scan entryId (.keyword primary secondary selective caseSensitive wholeWord)
      (keywordReasons lib scan primary secondary selective caseSensitive wholeWord) := by
  unfold keywordReasons
  cases hprimary : firstKeyword lib scan caseSensitive wholeWord primary with
  | none =>
    refine ⟨iff_of_false Bool.false_ne_true fun hholds => ?_, nofun, nofun⟩
    rw [RuleHolds] at hholds
    exact firstKeyword_eq_none hprimary hholds.1
  | some first =>
    obtain ⟨hfirst, hfirstOccurs⟩ := firstKeyword_eq_some hprimary
    have hgives : ∀ keyword ∈ primary ++ secondary, KeywordOccurs lib scan caseSensitive wholeWord keyword →
        LeafGives lib context scan entryId (.keyword keyword)
          (.keyword primary secondary selective caseSensitive wholeWord) :=
      fun keyword hmem hoccurs => ⟨keyword, hmem, hoccurs, rfl⟩
    rw [Option.bind_some]
    cases selective with
    | false =>
      have hholds : RuleHolds lib context scan entryId
          (.keyword primary secondary false caseSensitive wholeWord) := by
        rw [RuleHolds]
        exact ⟨⟨first, hfirst, hfirstOccurs⟩, nofun⟩
      refine ⟨iff_of_true rfl hholds, fun reasons hreasons => ?_, fun reasons hreasons => ?_⟩
      · cases hreasons
        exact List.cons_ne_nil _ _
      · cases hreasons
        refine ⟨List.nodup_singleton _, fun reason hreason => ?_⟩
        rw [List.mem_singleton.1 hreason, ruleLeaves]
        exact ⟨_, List.mem_singleton_self _, hholds, hgives first (List.mem_append_left _ hfirst) hfirstOccurs⟩
        all_goals nofun
    | true =>
      rw [if_pos rfl]
      cases hsecondary : firstKeyword lib scan caseSensitive wholeWord secondary with
      | none =>
        refine ⟨iff_of_false Bool.false_ne_true fun hholds => ?_, nofun, nofun⟩
        rw [RuleHolds] at hholds
        exact firstKeyword_eq_none hsecondary (hholds.2 rfl)
      | some second =>
        obtain ⟨hsecond, hsecondOccurs⟩ := firstKeyword_eq_some hsecondary
        have hholds : RuleHolds lib context scan entryId
            (.keyword primary secondary true caseSensitive wholeWord) := by
          rw [RuleHolds]
          exact ⟨⟨first, hfirst, hfirstOccurs⟩, fun _ => ⟨second, hsecond, hsecondOccurs⟩⟩
        refine ⟨iff_of_true rfl hholds, fun reasons hreasons => ?_, fun reasons hreasons => ?_⟩
        · cases hreasons
          exact List.ne_nil_of_mem (mem_pushReason_iff.2 (.inl (List.mem_singleton_self _)))
        · cases hreasons
          refine ⟨pushReason_nodup (List.nodup_singleton _) _, fun reason hreason => ?_⟩
          rw [ruleLeaves]
          refine ⟨_, List.mem_singleton_self _, hholds, ?_⟩
          rcases mem_pushReason_iff.1 hreason with hin | rfl
          · rw [List.mem_singleton.1 hin]
            exact hgives first (List.mem_append_left _ hfirst) hfirstOccurs
          · exact hgives second (List.mem_append_right _ hsecond) hsecondOccurs
          all_goals nofun

theorem matches_regex (patterns : List SafeRegex) : RuleMatches lib context scan entryId (.regex patterns)
    ((patterns.find? fun pattern => regexMatches context pattern scan.original).map
      fun pattern => [.regex pattern.pattern]) := by
  cases hfind : patterns.find? fun pattern => regexMatches context pattern scan.original with
  | none =>
    refine ⟨iff_of_false Bool.false_ne_true fun hholds => ?_, nofun, nofun⟩
    rw [RuleHolds] at hholds
    obtain ⟨pattern, hmem, hmatch⟩ := hholds
    exact List.find?_eq_none.1 hfind pattern hmem hmatch
  | some pattern =>
    have hmem := List.mem_of_find?_eq_some hfind
    have hmatch := List.find?_some hfind
    have hholds : RuleHolds lib context scan entryId (.regex patterns) := by
      rw [RuleHolds]
      exact ⟨pattern, hmem, hmatch⟩
    refine ⟨iff_of_true rfl hholds, fun reasons hreasons => ?_, fun reasons hreasons => ?_⟩
    · cases hreasons
      exact List.cons_ne_nil _ _
    · cases hreasons
      refine ⟨List.nodup_singleton _, fun reason hreason => ?_⟩
      rw [List.mem_singleton.1 hreason, ruleLeaves]
      exact ⟨_, List.mem_singleton_self _, hholds, pattern, hmem, hmatch, rfl⟩
      all_goals nofun

theorem matches_semantic (threshold : F32) (topK : UInt32) : RuleMatches lib context scan entryId
    (.semantic threshold topK) (evaluateSemanticRule context entryId threshold topK) := by
  unfold evaluateSemanticRule
  cases hscore : context.semanticScores.get? entryId with
  | none =>
    refine ⟨iff_of_false Bool.false_ne_true fun hholds => ?_, nofun, nofun⟩
    rw [RuleHolds] at hholds
    obtain ⟨score, rank, hsome, -⟩ := hholds
    rw [hscore] at hsome
    cases hsome
  | some score =>
    cases hrank : context.semanticRank.get? entryId with
    | none =>
      refine ⟨iff_of_false Bool.false_ne_true fun hholds => ?_, nofun, nofun⟩
      rw [RuleHolds] at hholds
      obtain ⟨score, rank, -, hsome, -⟩ := hholds
      rw [hrank] at hsome
      cases hsome
    | some rank =>
      refine matches_leaf ?_ ?_ fun _ => ⟨score, hscore, rfl⟩
      · rw [ruleLeaves] <;> nofun
      · rw [RuleHolds]
        constructor
        · intro h
          exact ⟨score, rank, hscore, hrank, h⟩
        · rintro ⟨score', rank', hscore', hrank', h⟩
          rw [hscore, Option.some.injEq] at hscore'
          rw [hrank, Option.some.injEq] at hrank'
          rw [hscore', hrank']
          exact h

theorem foldl_pushReason_ne_nil {reasons added : List KnowledgeActivationReason} :
    added.foldl pushReason reasons ≠ [] ↔ reasons ≠ [] ∨ added ≠ [] := by
  have hnil : added.foldl pushReason reasons = [] ↔ reasons = [] ∧ added = [] := by
    simp only [List.eq_nil_iff_forall_not_mem, mem_foldl_pushReason, not_or, forall_and]
  rw [ne_eq, hnil, not_and_or]

/-- The reasons that a rule adds. -/
theorem RuleMatches.added {rule : ActivationRule} {result : Option (List KnowledgeActivationReason)}
    (h : RuleMatches lib context scan entryId rule result) :
    (∀ reason ∈ result.getD [], ReasonJustified lib context scan entryId (ruleLeaves rule) reason) ∧
      (result.getD [] ≠ [] ↔ RuleHolds lib context scan entryId rule) := by
  cases result with
  | none => exact ⟨List.forall_mem_nil _, iff_of_false (fun h => h rfl) fun hholds => nomatch h.holds.2 hholds⟩
  | some reasons => exact ⟨(h.reasons reasons rfl).justified, iff_of_true (h.nonempty reasons rfl) (h.holds.1 rfl)⟩

mutual
/-- **A validated rule matches exactly when it holds.** -/
theorem matchRule_matches : ∀ {rule : ActivationRule}, Populated rule →
    RuleMatches lib context scan entryId rule (matchRule lib context scan entryId rule)
  | .always, _ => by
    have hleaf : ruleLeaves .always = [.always] := by rw [ruleLeaves] <;> nofun
    rw [matchRule]
    refine ⟨iff_of_true rfl (by rw [RuleHolds]; trivial), fun reasons hreasons => ?_, fun reasons hreasons => ?_⟩
    · cases hreasons
      exact List.cons_ne_nil _ _
    · cases hreasons
      refine ⟨List.nodup_singleton _, fun reason hreason => ?_⟩
      rw [hleaf]
      exact ⟨.always, List.mem_singleton_self _, by rw [RuleHolds]; trivial, List.mem_singleton.1 hreason⟩
  | .manual, _ => by
    rw [matchRule]
    exact matches_leaf (by rw [ruleLeaves] <;> nofun) (by rw [RuleHolds]) fun _ => rfl
  | .keyword .., _ => by
    rw [matchRule]
    exact matches_keyword _ _ _ _ _
  | .regex patterns, _ => by
    rw [matchRule]
    exact matches_regex patterns
  | .semantic threshold topK, _ => by
    rw [matchRule]
    exact matches_semantic threshold topK
  | .condition expression, _ => by
    rw [matchRule]
    exact matches_leaf (by rw [ruleLeaves] <;> nofun) (by rw [RuleHolds]) fun _ => rfl
  | .any rules, h => by
    have hstart : Reasons lib context scan entryId [] [] := ⟨List.nodup_nil, List.forall_mem_nil _⟩
    obtain ⟨hreasons, hholds⟩ := matchAny_spec h.2 hstart
    rw [or_iff_right (fun hne => hne rfl)] at hholds
    rw [matchRule]
    by_cases hempty : matchAny lib context scan entryId [] rules = []
    · rw [hempty]
      refine ⟨iff_of_false Bool.false_ne_true fun h => ?_, nofun, nofun⟩
      rw [RuleHolds] at h
      exact hholds.2 h hempty
    · have hsome : (if (matchAny lib context scan entryId [] rules).isEmpty = true then none
          else some (matchAny lib context scan entryId [] rules)) =
            some (matchAny lib context scan entryId [] rules) :=
        if_neg (by rwa [List.isEmpty_iff])
      simp only [hsome]
      refine ⟨iff_of_true rfl ?_, fun reasons heq => ?_, fun reasons heq => ?_⟩
      · rw [RuleHolds]
        exact hholds.1 hempty
      · cases heq
        exact hempty
      · cases heq
        rw [ruleLeaves]
        exact hreasons
  | .all rules, h => by
    have hstart : Reasons lib context scan entryId [] [] := ⟨List.nodup_nil, List.forall_mem_nil _⟩
    obtain ⟨hholds, hresult⟩ := matchAll_spec h.2 hstart
    rw [matchRule]
    refine ⟨?_, fun reasons heq => ?_, fun reasons heq => ?_⟩
    · rw [RuleHolds]
      exact hholds
    · exact (hresult reasons heq).2 (.inr h.1)
    · rw [ruleLeaves]
      exact (hresult reasons heq).1

/-- The loop of an `Any` rule keeps what it has collected, and collects something when a rule holds. -/
theorem matchAny_spec : ∀ {rules leaves : List ActivationRule} {reasons : List KnowledgeActivationReason},
    AllPopulated rules → Reasons lib context scan entryId leaves reasons →
    Reasons lib context scan entryId (leaves ++ rulesLeaves rules)
        (matchAny lib context scan entryId reasons rules) ∧
      (matchAny lib context scan entryId reasons rules ≠ [] ↔
        reasons ≠ [] ∨ SomeRuleHolds lib context scan entryId rules)
  | [], leaves, reasons, _, h => by
    rw [rulesLeaves, List.append_nil, matchAny, SomeRuleHolds, or_false]
    exact ⟨h, Iff.rfl⟩
  | rule :: rest, leaves, reasons, hpop, h => by
    obtain ⟨hadded, hne⟩ := (matchRule_matches hpop.1).added
    obtain ⟨hrest, hholds⟩ := matchAny_spec hpop.2 (h.foldl hadded)
    rw [List.append_assoc] at hrest
    rw [foldl_pushReason_ne_nil, hne, or_assoc] at hholds
    rw [rulesLeaves, matchAny, SomeRuleHolds]
    exact ⟨hrest, hholds⟩

/-- The loop of an `All` rule ends with what all rules give. -/
theorem matchAll_spec : ∀ {rules leaves : List ActivationRule} {reasons : List KnowledgeActivationReason},
    AllPopulated rules → Reasons lib context scan entryId leaves reasons →
    ((matchAll lib context scan entryId reasons rules).isSome = true ↔
        EveryRuleHolds lib context scan entryId rules) ∧
      ∀ result, matchAll lib context scan entryId reasons rules = some result →
        Reasons lib context scan entryId (leaves ++ rulesLeaves rules) result ∧
          (reasons ≠ [] ∨ rules ≠ [] → result ≠ [])
  | [], leaves, reasons, _, h => by
    rw [rulesLeaves, List.append_nil, matchAll, EveryRuleHolds]
    refine ⟨iff_of_true rfl trivial, fun result heq => ?_⟩
    cases heq
    exact ⟨h, fun hne => hne.resolve_right fun hne => hne rfl⟩
  | rule :: rest, leaves, reasons, hpop, h => by
    have hrule : RuleMatches lib context scan entryId rule (matchRule lib context scan entryId rule) :=
      matchRule_matches hpop.1
    rw [rulesLeaves, matchAll, EveryRuleHolds, ← hrule.holds]
    cases hmatch : matchRule lib context scan entryId rule with
    | none => exact ⟨iff_of_false Bool.false_ne_true fun h => Bool.false_ne_true h.1, nofun⟩
    | some added =>
      have hadded := (hrule.reasons added hmatch).justified
      obtain ⟨hholds, hresult⟩ := matchAll_spec hpop.2 (h.foldl hadded)
      refine ⟨hholds.trans (and_iff_right rfl).symm, fun result heq => ?_⟩
      obtain ⟨hreasons, hne⟩ := hresult result heq
      rw [List.append_assoc] at hreasons
      exact ⟨hreasons, fun _ => hne (.inl (foldl_pushReason_ne_nil.2 (.inr (hrule.nonempty added hmatch))))⟩
end

/-! ## Enough work -/

/-- Every keyword and the text it is looked for in. -/
def keywordsWork (scan : ActivationScan) (caseSensitive : Bool) (keywords : List String) : Nat :=
  (keywords.map fun keyword => keyword.utf8ByteSize + (scan.matchingText caseSensitive).utf8ByteSize).sum

mutual
/-- Work that is enough for a rule. -/
def ruleWork (scan : ActivationScan) : ActivationRule → Nat
  | .keyword primary secondary _ caseSensitive _ =>
    keywordsWork scan caseSensitive primary + keywordsWork scan caseSensitive secondary
  | .regex patterns => patterns.length * scan.original.utf8ByteSize
  | .any rules | .all rules => rulesWork scan rules
  | .always | .manual | .semantic .. | .condition _ => 0

/-- Work that is enough for some rules. -/
def rulesWork (scan : ActivationScan) : List ActivationRule → Nat
  | [] => 0
  | rule :: rest => ruleWork scan rule + rulesWork scan rest
end

theorem within_chargeWorkBytes (scopeId : String) (workBytes : Nat) :
    Within (chargeWorkBytes scopeId workBytes) workBytes := by
  rw [chargeWorkBytes_eq_charge]
  exact within_charge _ _

theorem firstKeywordMatch_within (caseSensitive wholeWord : Bool) : ∀ keywords : List String,
    Within (firstKeywordMatch lib scan caseSensitive wholeWord entryId keywords)
      (keywordsWork scan caseSensitive keywords)
  | [] => within_pure _ _
  | keyword :: rest => by
    have ih := firstKeywordMatch_within caseSensitive wholeWord rest
    have hcons : keywordsWork scan caseSensitive (keyword :: rest) = keyword.utf8ByteSize +
        ((scan.matchingText caseSensitive).utf8ByteSize + keywordsWork scan caseSensitive rest) := by
      rw [keywordsWork, List.map_cons, List.sum_cons, ← keywordsWork, Nat.add_assoc]
    have htest : Within (chargeWorkBytes entryId (scan.matchingText caseSensitive).utf8ByteSize >>=
        fun _ => if containsKeyword lib scan keyword caseSensitive wholeWord = true then
          pure (some keyword)
        else firstKeywordMatch lib scan caseSensitive wholeWord entryId rest)
        ((scan.matchingText caseSensitive).utf8ByteSize + keywordsWork scan caseSensitive rest) :=
      (within_chargeWorkBytes _ _).bind fun _ => within_ite (within_pure _ _) ih
    unfold firstKeywordMatch
    rw [hcons]
    refine within_ite (ih.mono (by omega)) (within_ite ?_ (htest.mono (by omega)))
    exact (within_chargeWorkBytes _ _).bind fun _ => htest

theorem evaluateKeywordRule_within (primary secondary : List String) (selective caseSensitive wholeWord : Bool) :
    Within (evaluateKeywordRule lib scan entryId primary secondary selective caseSensitive wholeWord)
      (keywordsWork scan caseSensitive primary + keywordsWork scan caseSensitive secondary) := by
  refine (firstKeywordMatch_within _ _ _).bind fun primaryMatch => ?_
  cases primaryMatch with
  | none => exact within_pure _ _
  | some primaryMatch =>
    refine within_ite ?_ (within_pure _ _)
    rw [← Nat.add_zero (keywordsWork scan caseSensitive secondary)]
    refine (firstKeywordMatch_within _ _ _).bind fun secondaryMatch => ?_
    cases secondaryMatch with
    | none => exact within_pure _ _
    | some secondaryMatch => exact within_pure _ _

theorem firstRegexMatch_within : ∀ patterns : List SafeRegex,
    Within (firstRegexMatch context scan entryId patterns) (patterns.length * scan.original.utf8ByteSize)
  | [] => within_pure _ _
  | pattern :: rest => by
    have hlength : (pattern :: rest).length * scan.original.utf8ByteSize =
        scan.original.utf8ByteSize + rest.length * scan.original.utf8ByteSize := by
      rw [List.length_cons, Nat.succ_mul, Nat.add_comm]
    rw [hlength]
    exact (within_chargeWorkBytes _ _).bind fun _ => within_ite (within_pure _ _) (firstRegexMatch_within rest)

mutual
theorem evaluateRule_within : ∀ rule : ActivationRule,
    Within (evaluateRule lib context scan entryId rule) (ruleWork scan rule)
  | .always | .manual | .semantic .. | .condition _ => within_pure _ _
  | .keyword .. => by
    rw [evaluateRule, ruleWork]
    exact evaluateKeywordRule_within _ _ _ _ _
  | .regex patterns => by
    rw [evaluateRule, ruleWork]
    exact firstRegexMatch_within patterns
  | .any rules => by
    rw [evaluateRule, ruleWork, ← Nat.add_zero (rulesWork scan rules)]
    exact (evaluateAnyRule_within [] rules).bind fun _ => within_pure _ _
  | .all rules => by
    rw [evaluateRule, ruleWork]
    exact evaluateAllRule_within [] rules

theorem evaluateAnyRule_within (reasons : List KnowledgeActivationReason) : ∀ rules : List ActivationRule,
    Within (evaluateAnyRule lib context scan entryId reasons rules) (rulesWork scan rules)
  | [] => within_pure _ _
  | rule :: rest => by
    rw [evaluateAnyRule, rulesWork]
    exact (evaluateRule_within rule).bind fun _ => evaluateAnyRule_within _ rest

theorem evaluateAllRule_within (reasons : List KnowledgeActivationReason) : ∀ rules : List ActivationRule,
    Within (evaluateAllRule lib context scan entryId reasons rules) (rulesWork scan rules)
  | [] => within_pure _ _
  | rule :: rest => by
    rw [evaluateAllRule, rulesWork]
    refine (evaluateRule_within rule).bind fun childReasons => ?_
    cases childReasons with
    | none => exact within_pure _ _
    | some childReasons => exact evaluateAllRule_within _ rest
end

/-- **Rule evaluation decides what the rule means**: on a validated entry a run that is not stopped by the budget
gives reasons exactly when the rule holds, at least one, without repeats, each from a leaf that holds; and the
budget stops no run that has the rule's work left. -/
theorem evaluateRule_decides (lib : KnowledgeExternals) (context : EvaluationContext) (scan : ActivationScan)
    (entry : KnowledgeEntry) (hvalid : validateRule entry = .ok ()) :
    (∀ budget budget' result, evaluateRule lib context scan entry.id entry.activation budget = (.ok result, budget') →
      (result.isSome = true ↔ RuleHolds lib context scan entry.id entry.activation) ∧
        ∀ reasons, result = some reasons → reasons ≠ [] ∧ reasons.Nodup ∧
          ∀ reason ∈ reasons, ∃ leaf ∈ ruleLeaves entry.activation,
            RuleHolds lib context scan entry.id leaf ∧ LeafGives lib context scan entry.id reason leaf) ∧
    ∀ budget : KnowledgeWorkBudget, ruleWork scan entry.activation ≤ budget.remaining → ∃ result budget',
      evaluateRule lib context scan entry.id entry.activation budget = (.ok result, budget') := by
  refine ⟨fun budget budget' result hrun => ?_, fun budget hbudget => ?_⟩
  · have hmatches : RuleMatches lib context scan entry.id entry.activation _ :=
      matchRule_matches (validateRule_populated hvalid)
    rw [← evaluateRule_returns context scan entry.id entry.activation budget result budget' hrun] at hmatches
    refine ⟨hmatches.holds, fun reasons heq => ⟨hmatches.nonempty reasons heq, ?_⟩⟩
    exact ⟨(hmatches.reasons reasons heq).distinct, (hmatches.reasons reasons heq).justified⟩
  · obtain ⟨result, budget', hrun, -⟩ := evaluateRule_within entry.activation budget hbudget
    exact ⟨result, budget', hrun⟩

/-- An entry with a nested rule. -/
def tideEntry : KnowledgeEntry :=
  sampleEntry "tide" "The harbor sleeps." (.any [.keyword ["moon"] [] false true false, .all [.always, .manual]])

/-- Nothing is known but the text. -/
def textContext : EvaluationContext := ⟨[], .empty, .empty, ⟨[]⟩, [], []⟩

theorem evaluateRule_decides_tideEntry : ∃ result budget',
    evaluateRule asciiExternals textContext ⟨"The moon pulls.", "the moon pulls.", 15⟩ "tide" tideEntry.activation
        defaultWorkBudget = (.ok result, budget') ∧
      (result.isSome = true ↔
        RuleHolds asciiExternals textContext ⟨"The moon pulls.", "the moon pulls.", 15⟩ "tide" tideEntry.activation) := by
  have hvalid : validateRule tideEntry = .ok () := rfl
  obtain ⟨hdecides, henough⟩ :=
    evaluateRule_decides asciiExternals textContext ⟨"The moon pulls.", "the moon pulls.", 15⟩ tideEntry hvalid
  obtain ⟨result, budget', hrun⟩ := henough defaultWorkBudget (by decide +kernel)
  exact ⟨result, budget', hrun, (hdecides _ _ _ hrun).1⟩

end LorePia
