import LorePia.Domain.Proof.Knowledge
import LorePia.Orchestration.Proof.KnowledgeWork

/-!
# What the activation rounds compute

The meaning of a rule is `matchRule`, which reads the scan and charges nothing; rule evaluation
returns it. Which entries a book activates is said by `Activation`, over the whole history at once:
`roundScan k` is the text of round `k`, the first scan followed by the contents of the entries that
the rounds before `k` activated. An entry is activated in the first round whose text its rule
matches, and an entry whose probability gate is closed is never activated.

`Rounds k` is the invariant of the loop: it is `Activation` up to round `k`, together with the
frontier, the ids that round `k` activated. The loop stops early when the frontier is empty; the
text does not change from there on, so `Activation` holds up to the last round all the same.
-/

namespace LorePia

open Base Metered

variable {lib : KnowledgeExternals}

/-! ## Matching -/

/-- The first keyword that the scan contains. -/
def firstKeyword (lib : KnowledgeExternals) (scan : ActivationScan) (caseSensitive wholeWord : Bool)
    (keywords : List String) : Option String :=
  keywords.find? fun keyword =>
    !keyword.isEmpty && containsKeyword lib scan keyword caseSensitive wholeWord

/-- The reasons of a keyword rule that matches. -/
def keywordReasons (lib : KnowledgeExternals) (scan : ActivationScan)
    (primary secondary : List String) (selective caseSensitive wholeWord : Bool) :
    Option (List KnowledgeActivationReason) :=
  (firstKeyword lib scan caseSensitive wholeWord primary).bind fun primaryMatch =>
    if selective then
      (firstKeyword lib scan caseSensitive wholeWord secondary).map fun secondaryMatch =>
        pushReason [.keyword primaryMatch] (.keyword secondaryMatch)
    else some [.keyword primaryMatch]

mutual
/-- The reasons for which a rule matches a scan. -/
def matchRule (lib : KnowledgeExternals) (context : EvaluationContext) (scan : ActivationScan)
    (entryId : KnowledgeEntryId) : ActivationRule → Option (List KnowledgeActivationReason)
  | .always => some [.always]
  | .manual => if entryId ∈ context.manualEntryIds then some [.manual] else none
  | .keyword primary secondary selective caseSensitive wholeWord =>
    keywordReasons lib scan primary secondary selective caseSensitive wholeWord
  | .regex patterns => (patterns.find? fun pattern => regexMatches context pattern scan.original).map
      fun pattern => [.regex pattern.pattern]
  | .semantic threshold topK => evaluateSemanticRule context entryId threshold topK
  | .condition expression =>
    if evaluateKnowledgeCondition context.vars context.supportedCapabilities expression then
      some [.condition] else none
  | .any rules =>
    let reasons := matchAny lib context scan entryId [] rules
    if reasons.isEmpty then none else some reasons
  | .all rules => matchAll lib context scan entryId [] rules

/-- The reasons of the rules that match, after `reasons`. -/
def matchAny (lib : KnowledgeExternals) (context : EvaluationContext) (scan : ActivationScan)
    (entryId : KnowledgeEntryId) (reasons : List KnowledgeActivationReason) :
    List ActivationRule → List KnowledgeActivationReason
  | [] => reasons
  | rule :: rest => matchAny lib context scan entryId
      (((matchRule lib context scan entryId rule).getD []).foldl pushReason reasons) rest

/-- The reasons of the rules, after `reasons`, if all of them match. -/
def matchAll (lib : KnowledgeExternals) (context : EvaluationContext) (scan : ActivationScan)
    (entryId : KnowledgeEntryId) (reasons : List KnowledgeActivationReason) :
    List ActivationRule → Option (List KnowledgeActivationReason)
  | [] => some reasons
  | rule :: rest =>
    match matchRule lib context scan entryId rule with
    | none => none
    | some childReasons =>
      matchAll lib context scan entryId (childReasons.foldl pushReason reasons) rest
end

theorem firstKeywordMatch_returns (scan : ActivationScan) (caseSensitive wholeWord : Bool)
    (entryId : KnowledgeEntryId) (keywords : List String) :
    Returns (firstKeywordMatch lib scan caseSensitive wholeWord entryId keywords)
      (· = firstKeyword lib scan caseSensitive wholeWord keywords) := by
  induction keywords with
  | nil => exact returns_pure rfl
  | cons keyword rest ih =>
    unfold firstKeywordMatch
    by_cases hempty : keyword.isEmpty = true
    · rw [if_pos hempty]
      simpa [firstKeyword, hempty] using ih
    · rw [if_neg hempty]
      have htest : Returns (chargeWorkBytes entryId (scan.matchingText caseSensitive).utf8ByteSize >>=
          fun _ => if containsKeyword lib scan keyword caseSensitive wholeWord = true then
            pure (some keyword)
          else firstKeywordMatch lib scan caseSensitive wholeWord entryId rest)
          (· = firstKeyword lib scan caseSensitive wholeWord (keyword :: rest)) := by
        refine returns_bind fun _ => returns_ite (fun hin => ?_) fun hout => ?_
        · exact returns_pure (by simp [firstKeyword, hempty, hin])
        · simpa [firstKeyword, hempty, hout] using ih
      refine returns_ite (fun _ => ?_) fun _ => htest
      exact returns_bind fun _ => htest

theorem evaluateKeywordRule_returns (scan : ActivationScan) (entryId : KnowledgeEntryId)
    (primary secondary : List String) (selective caseSensitive wholeWord : Bool) :
    Returns (evaluateKeywordRule lib scan entryId primary secondary selective caseSensitive wholeWord)
      (· = keywordReasons lib scan primary secondary selective caseSensitive wholeWord) := by
  refine (firstKeywordMatch_returns _ _ _ _ _).bind fun primaryMatch hprimary => ?_
  unfold keywordReasons
  rw [← hprimary]
  cases primaryMatch with
  | none => exact returns_pure rfl
  | some primaryMatch =>
    refine returns_ite (fun hselective => ?_) fun hselective => ?_
    · refine (firstKeywordMatch_returns _ _ _ _ _).bind fun secondaryMatch hsecondary => ?_
      rw [Option.bind_some, if_pos hselective, ← hsecondary]
      cases secondaryMatch with
      | none => exact returns_pure rfl
      | some secondaryMatch => exact returns_pure rfl
    · rw [Option.bind_some, if_neg hselective]
      exact returns_pure rfl

theorem firstRegexMatch_returns (context : EvaluationContext) (scan : ActivationScan)
    (entryId : KnowledgeEntryId) (patterns : List SafeRegex) :
    Returns (firstRegexMatch context scan entryId patterns)
      (· = (patterns.find? fun pattern => regexMatches context pattern scan.original).map
        fun pattern => [.regex pattern.pattern]) := by
  induction patterns with
  | nil => exact returns_pure rfl
  | cons pattern rest ih =>
    refine returns_bind fun _ => returns_ite (fun hin => ?_) fun hout => ?_
    · exact returns_pure (by simp [hin])
    · simpa [hout] using ih

mutual
/-- **Rule evaluation returns what the rule means.** -/
theorem evaluateRule_returns (context : EvaluationContext) (scan : ActivationScan)
    (entryId : KnowledgeEntryId) : ∀ rule : ActivationRule,
      Returns (evaluateRule lib context scan entryId rule)
        (· = matchRule lib context scan entryId rule)
  | .always | .manual | .semantic .. | .condition _ => returns_pure (by rw [matchRule])
  | .keyword .. => by
    rw [evaluateRule, matchRule]
    exact evaluateKeywordRule_returns _ _ _ _ _ _ _
  | .regex patterns => by
    rw [evaluateRule, matchRule]
    exact firstRegexMatch_returns context scan entryId patterns
  | .any rules => by
    rw [evaluateRule, matchRule]
    refine (evaluateAnyRule_returns context scan entryId [] rules).bind fun reasons hreasons => ?_
    exact returns_pure (by rw [hreasons])
  | .all rules => by
    rw [evaluateRule, matchRule]
    exact evaluateAllRule_returns context scan entryId [] rules

theorem evaluateAnyRule_returns (context : EvaluationContext) (scan : ActivationScan)
    (entryId : KnowledgeEntryId) (reasons : List KnowledgeActivationReason) :
    ∀ rules : List ActivationRule, Returns (evaluateAnyRule lib context scan entryId reasons rules)
      (· = matchAny lib context scan entryId reasons rules)
  | [] => returns_pure (by rw [matchAny])
  | rule :: rest => by
    rw [evaluateAnyRule, matchAny]
    refine (evaluateRule_returns context scan entryId rule).bind fun childReasons hchild => ?_
    rw [hchild]
    exact evaluateAnyRule_returns context scan entryId _ rest

theorem evaluateAllRule_returns (context : EvaluationContext) (scan : ActivationScan)
    (entryId : KnowledgeEntryId) (reasons : List KnowledgeActivationReason) :
    ∀ rules : List ActivationRule, Returns (evaluateAllRule lib context scan entryId reasons rules)
      (· = matchAll lib context scan entryId reasons rules)
  | [] => returns_pure (by rw [matchAll])
  | rule :: rest => by
    rw [evaluateAllRule, matchAll]
    refine (evaluateRule_returns context scan entryId rule).bind fun childReasons hchild => ?_
    rw [← hchild]
    cases childReasons with
    | none => exact returns_pure rfl
    | some childReasons => exact evaluateAllRule_returns context scan entryId _ rest
end

/-! ## Texts -/

/-- A text appended to a scan and its character count. -/
def joinText (scan : String × Nat) (text : String) : String × Nat :=
  ((if scan.1.isEmpty then scan.1 else scan.1 ++ "\n") ++ text,
    scan.2 + (if scan.1.isEmpty then 0 else 1) + text.length)

/-- The scan of the last `scanDepth` texts. -/
def ActivationScan.ofTexts (lib : KnowledgeExternals) (scanDepth : UInt32) (scanTexts : List String) :
    ActivationScan :=
  let scan := (scanTexts.drop (scanTexts.length - scanDepth.toNat)).foldl joinText ("", 0)
  ⟨scan.1, lib.toLowercase scan.1, scan.2⟩

/-- The scan followed by a text. -/
def ActivationScan.append (lib : KnowledgeExternals) (scan : ActivationScan) (text : String) :
    ActivationScan where
  original := (joinText (scan.original, scan.characters) text).1
  lowercase := (if !scan.original.isEmpty then scan.lowercase ++ "\n" else scan.lowercase) ++
    String.ofList (text.toList.flatMap lib.charToLowercase)
  characters := (joinText (scan.original, scan.characters) text).2

theorem appendScanText_eq_ok {scan text : String} {characters : Nat} {joined : String × Nat}
    (h : appendScanText scan characters text = .ok joined) :
    joined = joinText (scan, characters) text := by
  obtain ⟨count, hcount, h⟩ := bind_eq_ok.1 h
  obtain ⟨-, h⟩ := seq_eq_ok.1 h
  obtain ⟨first, hfirst, hsecond⟩ := Option.bind_eq_some_iff.1 (okOr_eq_ok.1 hcount)
  obtain ⟨-, rfl⟩ := checkedAdd_eq_some.1 hfirst
  obtain ⟨-, rfl⟩ := checkedAdd_eq_some.1 hsecond
  cases h
  rfl

theorem foldlM_appendScanText_eq_ok {texts : List String} {scan joined : String × Nat}
    (h : texts.foldlM (fun scan text => appendScanText scan.1 scan.2 text) scan =
      (.ok joined : Selection (String × Nat))) : joined = texts.foldl joinText scan := by
  induction texts generalizing scan with
  | nil => cases h; rfl
  | cons text texts ih =>
    rw [List.foldlM_cons] at h
    obtain ⟨next, hnext, h⟩ := bind_eq_ok.1 h
    rw [List.foldl_cons, ← appendScanText_eq_ok hnext]
    exact ih h

theorem fromTexts_returns (scanDepth : UInt32) (scanTexts : List String) (scopeId : String) :
    Returns (ActivationScan.fromTexts lib scanDepth scanTexts scopeId)
      (· = .ofTexts lib scanDepth scanTexts) := by
  refine returns_bind fun _ => returns_bind fun _ => returns_bind fun _ => ?_
  refine (returns_lift fun joined h => foldlM_appendScanText_eq_ok h).bind fun joined hjoined => ?_
  exact returns_pure (by rw [hjoined]; rfl)

theorem appendText_returns (scan : ActivationScan) (text scopeId : String) :
    Returns (scan.appendText lib text scopeId) (· = scan.append lib text) := by
  refine returns_bind fun _ => returns_bind fun _ => ?_
  refine (returns_lift fun joined h => appendScanText_eq_ok h).bind fun joined hjoined => ?_
  exact returns_pure (by rw [hjoined]; rfl)

/-! ## The history of a book -/

section History

variable (pass : Pass)

/-- The reasons for which an entry is activated on a scan: it is enabled, its gate is open and its
rule matches. -/
def Pass.activates (scan : ActivationScan) (entry : KnowledgeEntry) :
    Option (List KnowledgeActivationReason) :=
  if entry.enabled && pass.gate entry then
    matchRule pass.lib pass.evaluation scan entry.id entry.activation
  else none

/-- The entries that round `k` activated. -/
def Pass.activatedAt (activated : Activated) (k : Nat) : List KnowledgeEntry :=
  pass.entries.filter fun entry =>
    (activated.get? entry.id).any fun candidate => candidate.recursionDepth = k

/-- The text of round `k`. -/
def Pass.roundScan (scan : ActivationScan) (activated : Activated) : Nat → ActivationScan
  | 0 => scan
  | k + 1 => (pass.activatedAt activated k).foldl
      (fun scan entry => scan.append pass.lib entry.content) (Pass.roundScan scan activated k)

/-- The reasons of a candidate: after the first round they name an entry of the round before. -/
def Pass.Reasoned (activated : Activated) (candidate : ActivatedCandidate)
    (reasons : List KnowledgeActivationReason) : Prop :=
  (candidate.recursionDepth = 0 → candidate.reasons = reasons) ∧
    ∀ k, candidate.recursionDepth = k + 1 → ∃ parent ∈ pass.activatedAt activated k,
      candidate.reasons = pushReason reasons (.recursive parent.id)

/-- **What is activated after `rounds` rounds** from `scan` on: every entry in the first round that
activates it. -/
structure Activation (rounds : Nat) (scan : ActivationScan) (activated : Activated) : Prop where
  of_some : ∀ id candidate, activated.get? id = some candidate → ∃ entry ∈ pass.entries,
    entry.id = id ∧ candidate.recursionDepth ≤ rounds ∧
      candidate.estimatedTokens = estimatedTokens entry pass.estimates ∧
        (∀ k < candidate.recursionDepth,
          pass.activates (pass.roundScan scan activated k) entry = none) ∧
          ∃ reasons, pass.activates (pass.roundScan scan activated candidate.recursionDepth) entry =
            some reasons ∧ pass.Reasoned activated candidate reasons
  of_none : ∀ entry ∈ pass.entries, activated.get? entry.id = none → ∀ k ≤ rounds,
    pass.activates (pass.roundScan scan activated k) entry = none

variable {pass}

theorem mem_activatedAt {activated : Activated} {k : Nat} {entry : KnowledgeEntry} :
    entry ∈ pass.activatedAt activated k ↔ entry ∈ pass.entries ∧
      ∃ candidate, activated.get? entry.id = some candidate ∧ candidate.recursionDepth = k := by
  unfold Pass.activatedAt
  rw [List.mem_filter]
  cases activated.get? entry.id with
  | none => simp
  | some candidate => simp

/-- The text of a round depends on the rounds before only. -/
theorem roundScan_congr {scan : ActivationScan} {activated activated' : Activated} {k : Nat}
    (h : ∀ j < k, pass.activatedAt activated j = pass.activatedAt activated' j) :
    pass.roundScan scan activated k = pass.roundScan scan activated' k := by
  induction k with
  | zero => rfl
  | succ k ih =>
    simp only [Pass.roundScan]
    rw [h k (Nat.lt_succ_self k), ih fun j hj => h j (by omega)]

/-- The text does not change after a round that activates nothing. -/
theorem roundScan_stable {scan : ActivationScan} {activated : Activated} {k : Nat}
    (h : ∀ j, k ≤ j → pass.activatedAt activated j = []) (j : Nat) (hj : k ≤ j) :
    pass.roundScan scan activated j = pass.roundScan scan activated k := by
  induction j with
  | zero =>
    obtain rfl : k = 0 := by omega
    rfl
  | succ j ih =>
    by_cases hkj : k = j + 1
    · rw [hkj]
    · rw [Pass.roundScan, h j (by omega), List.foldl_nil, ih (by omega)]

end History

/-! ## One pass over the entries -/

/-- `activated'` is `activated` after a pass over `done` that gives each entry its candidate. -/
def Extended (activated : Activated) (candidate : KnowledgeEntry → Option ActivatedCandidate)
    (done : List KnowledgeEntry) (activated' : Activated) : Prop :=
  ∀ id, activated'.get? id =
    ((done.find? fun entry => entry.id = id).bind candidate).or (activated.get? id)

section Extended

variable {activated activated' : Activated} {candidate : KnowledgeEntry → Option ActivatedCandidate}
  {done : List KnowledgeEntry} {entry : KnowledgeEntry}

theorem Extended.step (h : Extended activated candidate done activated')
    (hnew : entry.id ∉ done.map (·.id)) :
    Extended activated candidate (done ++ [entry])
      (activated'.insertOption entry.id (candidate entry)) := by
  intro id
  rw [OrdMap.get?_insertOption, h id, List.find?_append]
  by_cases hid : entry.id = id
  · have hnone : (done.find? fun item => item.id = id) = none := by
      rw [List.find?_eq_none]
      intro item hitem hc
      refine hnew (List.mem_map.2 ⟨item, hitem, ?_⟩)
      rw [hid]
      simpa using hc
    simp [hid, hnone]
  · simp [hid]

/-- An entry that the pass has not reached. -/
theorem Extended.get?_new (h : Extended activated candidate done activated')
    (hnew : entry.id ∉ done.map (·.id)) : activated'.get? entry.id = activated.get? entry.id := by
  have hnone : (done.find? fun item => item.id = entry.id) = none := by
    rw [List.find?_eq_none]
    intro item hitem hc
    exact hnew (List.mem_map.2 ⟨item, hitem, by simpa using hc⟩)
  rw [h entry.id, hnone]
  rfl

theorem Extended.get?_mem (h : Extended activated candidate done activated')
    (hnd : (done.map (·.id)).Nodup) (hentry : entry ∈ done) :
    activated'.get? entry.id = (candidate entry).or (activated.get? entry.id) := by
  rw [h entry.id, find?_key hnd hentry]
  rfl

end Extended

/-- The items before one of a list with distinct ids do not have its id. -/
theorem id_notMem_of_split {entries done rest : List KnowledgeEntry} {entry : KnowledgeEntry}
    (hnd : (entries.map (·.id)).Nodup) (h : entries = done ++ entry :: rest) :
    entry.id ∉ done.map (·.id) := by
  intro hmem
  rw [h, List.map_append, List.map_cons, List.nodup_append] at hnd
  exact hnd.2.2 entry.id hmem entry.id List.mem_cons_self rfl

section Passes

variable {pass : Pass}

/-- The candidate of the first pass. -/
def Pass.initialCandidate (pass : Pass) (scan : ActivationScan) (entry : KnowledgeEntry) :
    Option ActivatedCandidate :=
  (pass.activates scan entry).map fun reasons => ⟨reasons, 0, estimatedTokens entry pass.estimates⟩

/-- The candidate of the pass of round `depth` over what is not activated yet. -/
def Pass.recursiveCandidate (pass : Pass) (scan : ActivationScan) (depth : Nat)
    (frontier : List KnowledgeEntryId) (fallback : KnowledgeEntryId) (activated : Activated)
    (entry : KnowledgeEntry) : Option ActivatedCandidate :=
  if activated.contains entry.id then none
  else (pass.activates scan entry).map fun reasons =>
    ⟨pushReason reasons (.recursive (triggerOf frontier fallback entry)), depth,
      estimatedTokens entry pass.estimates⟩

theorem initialStep_returns (scan : ActivationScan) (activated : Activated)
    (entry : KnowledgeEntry) :
    Returns (pass.initialStep scan activated entry)
      (· = activated.insertOption entry.id (pass.initialCandidate scan entry)) := by
  unfold Pass.initialStep Pass.initialCandidate Pass.activates
  refine returns_ite (fun henabled => ?_) fun henabled => ?_
  · have hdisabled : entry.enabled = false := by simpa using henabled
    exact returns_pure (by simp [hdisabled, OrdMap.insertOption])
  · have henabled : entry.enabled = true := by simpa using henabled
    refine (evaluateRule_returns _ _ _ _).bind fun reasons hreasons => ?_
    rw [← hreasons, henabled, Bool.true_and]
    cases reasons with
    | none => exact returns_pure (by simp [OrdMap.insertOption])
    | some reasons =>
      refine returns_ite (fun hgate => ?_) fun hgate => ?_
      · exact returns_pure (by simp [hgate, OrdMap.insertOption])
      · exact returns_pure (by simp [hgate, OrdMap.insertOption])

theorem recursiveStep_returns (scan : ActivationScan) (depth : Nat)
    (frontier : List KnowledgeEntryId) (fallback : KnowledgeEntryId)
    (state : Activated × List KnowledgeEntryId) (entry : KnowledgeEntry) :
    Returns (pass.recursiveStep scan depth frontier fallback state entry) fun state' =>
      state'.1 = state.1.insertOption entry.id
          (pass.recursiveCandidate scan depth frontier fallback state.1 entry) ∧
        state'.2 = state.2 ++
          if (pass.recursiveCandidate scan depth frontier fallback state.1 entry).isSome then
            [entry.id] else [] := by
  unfold Pass.recursiveStep Pass.recursiveCandidate Pass.activates
  refine returns_ite (fun hskip => ?_) fun hskip => ?_
  · refine returns_pure ?_
    rcases Bool.or_eq_true_iff.1 hskip with hdisabled | hcontains
    · have hdisabled : entry.enabled = false := by simpa using hdisabled
      simp [hdisabled, OrdMap.insertOption]
    · simp [hcontains, OrdMap.insertOption]
  · obtain ⟨henabled, hnew⟩ : entry.enabled = true ∧ state.1.contains entry.id = false := by
      simpa using hskip
    refine (evaluateRule_returns _ _ _ _).bind fun reasons hreasons => ?_
    rw [← hreasons, henabled, hnew, Bool.true_and]
    cases reasons with
    | none => exact returns_pure (by simp [OrdMap.insertOption])
    | some reasons =>
      refine returns_ite (fun hgate => ?_) fun hgate => ?_
      · have hgate : pass.gate entry = false := by simpa using hgate
        exact returns_pure (by simp [hgate, OrdMap.insertOption])
      · have hgate : pass.gate entry = true := by simpa using hgate
        exact returns_pure (by simp [hgate, OrdMap.insertOption])

theorem initialPass_returns (hnd : (pass.entries.map (·.id)).Nodup) (scan : ActivationScan) :
    Returns (pass.entries.foldlM (pass.initialStep scan) .empty)
      (Extended .empty (pass.initialCandidate scan) pass.entries) := by
  refine Returns.foldlM (fun id => rfl) ?_
  intro done entry rest activated hsplit hdone b activated' d hrun
  rw [initialStep_returns scan activated entry b activated' d hrun]
  exact hdone.step (id_notMem_of_split hnd hsplit)

/-- The pass of round `depth` after the entries `done`: what is activated, and the next frontier. -/
def Pass.Passed (pass : Pass) (scan : ActivationScan) (depth : Nat)
    (frontier : List KnowledgeEntryId) (fallback : KnowledgeEntryId) (activated : Activated)
    (done : List KnowledgeEntry) (state : Activated × List KnowledgeEntryId) : Prop :=
  Extended activated (pass.recursiveCandidate scan depth frontier fallback activated) done state.1 ∧
    state.2 = (done.filter fun entry =>
      (pass.recursiveCandidate scan depth frontier fallback activated entry).isSome).map (·.id)

theorem recursivePass_returns (hnd : (pass.entries.map (·.id)).Nodup) (scan : ActivationScan)
    (depth : Nat) (frontier : List KnowledgeEntryId) (fallback : KnowledgeEntryId)
    (activated : Activated) :
    Returns (pass.entries.foldlM (pass.recursiveStep scan depth frontier fallback) (activated, []))
      (pass.Passed scan depth frontier fallback activated pass.entries) := by
  refine Returns.foldlM ⟨fun id => rfl, rfl⟩ ?_
  intro done entry rest state hsplit hdone b state' d hrun
  obtain ⟨hmap, hnext⟩ := recursiveStep_returns scan depth frontier fallback state entry b state' d hrun
  have hnew := id_notMem_of_split hnd hsplit
  -- the pass has not reached this entry, so it is activated now exactly if it was before the pass
  have hsame : pass.recursiveCandidate scan depth frontier fallback state.1 entry =
      pass.recursiveCandidate scan depth frontier fallback activated entry := by
    unfold Pass.recursiveCandidate OrdMap.contains
    rw [hdone.1.get?_new hnew]
  rw [hsame] at hmap hnext
  refine ⟨?_, ?_⟩
  · rw [hmap]
    exact hdone.1.step hnew
  · rw [hnext, hdone.2, List.filter_append, List.map_append]
    congr 1
    cases hcandidate : pass.recursiveCandidate scan depth frontier fallback activated entry with
    | none => simp [hcandidate]
    | some candidate => simp [hcandidate]

theorem appendFrontier_returns (hnd : (pass.entries.map (·.id)).Nodup) (scan : ActivationScan)
    {frontier : List KnowledgeEntry} (hmem : ∀ entry ∈ frontier, entry ∈ pass.entries) :
    Returns (pass.appendFrontier scan (frontier.map (·.id)))
      (· = frontier.foldl (fun scan entry => scan.append pass.lib entry.content) scan) := by
  unfold Pass.appendFrontier
  induction frontier generalizing scan with
  | nil => exact returns_pure rfl
  | cons entry rest ih =>
    rw [List.map_cons, List.foldlM_cons, find?_key hnd (hmem entry List.mem_cons_self)]
    refine (appendText_returns scan entry.content entry.id).bind fun next hnext => ?_
    rw [List.foldl_cons, ← hnext]
    exact ih next fun item hitem => hmem item (List.mem_cons_of_mem _ hitem)

end Passes

/-! ## The rounds -/

/-- The invariant of the rounds, after round `k`. -/
structure Rounds (pass : Pass) (k : Nat) (first scan : ActivationScan) (activated : Activated)
    (frontier : List KnowledgeEntryId) : Prop where
  activation : Activation pass k first activated
  scan_eq : scan = pass.roundScan first activated k
  frontier_eq : sortIds frontier = (pass.activatedAt activated k).map (·.id)

theorem sortIds_of_sorted {ids : List String} (h : ids.Pairwise (· < ·)) : sortIds ids = ids := by
  refine stableSort_of_pairwise (h.imp fun {a b} hab => ?_)
  simpa using le_of_lt hab

theorem triggerOf_mem (frontier : List KnowledgeEntryId) (fallback : KnowledgeEntryId)
    (entry : KnowledgeEntry) (h : fallback ∈ frontier) : triggerOf frontier fallback entry ∈ frontier := by
  unfold triggerOf
  cases hparent : entry.parentId.filter fun parentId => frontier.contains parentId with
  | none => exact h
  | some parentId =>
    have := (Option.filter_eq_some_iff.1 hparent).2
    simpa using this

section Rounds

variable {pass : Pass} (hsorted : (pass.entries.map (·.id)).Pairwise (· < ·))
  {first scan : ActivationScan} {activated activated' : Activated} {k : Nat}

include hsorted

theorem entries_nodup : (pass.entries.map (·.id)).Nodup := hsorted.imp ne_of_lt

/-- The first pass. -/
theorem rounds_initial
    (h : Extended .empty (pass.initialCandidate first) pass.entries activated) :
    Rounds pass 0 first first activated activated.keys := by
  have hnd := entries_nodup hsorted
  have hget : ∀ entry ∈ pass.entries,
      activated.get? entry.id = pass.initialCandidate first entry := by
    intro entry hentry
    rw [h.get?_mem hnd hentry]
    cases pass.initialCandidate first entry with
    | none => rfl
    | some candidate => rfl
  have hof : ∀ id candidate, activated.get? id = some candidate → ∃ entry ∈ pass.entries,
      entry.id = id ∧ pass.initialCandidate first entry = some candidate := by
    intro id candidate hid
    rw [h id, OrdMap.get?_empty, Option.or_none] at hid
    obtain ⟨entry, hfind, hcandidate⟩ := Option.bind_eq_some_iff.1 hid
    exact ⟨entry, List.mem_of_find?_eq_some hfind, by simpa using List.find?_some hfind, hcandidate⟩
  refine ⟨⟨?_, ?_⟩, rfl, ?_⟩
  · intro id candidate hget
    obtain ⟨entry, hentry, hid, hcandidate⟩ := hof id candidate hget
    obtain ⟨reasons, hreasons, rfl⟩ := Option.map_eq_some_iff.1 hcandidate
    refine ⟨entry, hentry, hid, Nat.le_refl 0, rfl, fun k hk => absurd hk (Nat.not_lt_zero k),
      reasons, hreasons, fun _ => rfl, ?_⟩
    intro k hk
    cases hk
  · intro entry hentry hnone k hk
    obtain rfl : k = 0 := by omega
    rw [hget entry hentry] at hnone
    exact Option.map_eq_none_iff.1 hnone
  · -- the keys and the activated entries are both in id order
    have hkeys : activated.keys = (pass.activatedAt activated 0).map (·.id) := by
      refine OrdMap.keys_eq_of_mem ?_ fun id => ?_
      · exact hsorted.sublist ((List.filter_sublist).map _)
      · rw [List.mem_map, OrdMap.contains, Option.isSome_iff_exists]
        constructor
        · rintro ⟨entry, hentry, rfl⟩
          obtain ⟨-, candidate, hcandidate, -⟩ := mem_activatedAt.1 hentry
          exact ⟨candidate, hcandidate⟩
        · rintro ⟨candidate, hid⟩
          obtain ⟨entry, hentry, rfl, hcandidate⟩ := hof id candidate hid
          obtain ⟨reasons, -, rfl⟩ := Option.map_eq_some_iff.1 hcandidate
          exact ⟨entry, mem_activatedAt.2 ⟨hentry, _, hid, rfl⟩, rfl⟩
    rw [← hkeys]
    exact sortIds_of_sorted activated.keys_pairwise

variable {frontier : List KnowledgeEntryId} {fallback : KnowledgeEntryId}

/-- What a pass finds: an entry that was activated before keeps its candidate. -/
theorem passed_get? (h : Extended activated
    (pass.recursiveCandidate scan (k + 1) frontier fallback activated) pass.entries activated')
    {entry : KnowledgeEntry} (hentry : entry ∈ pass.entries) :
    activated'.get? entry.id = (activated.get? entry.id).or
      (pass.recursiveCandidate scan (k + 1) frontier fallback activated entry) := by
  rw [h.get?_mem (entries_nodup hsorted) hentry]
  unfold Pass.recursiveCandidate OrdMap.contains
  cases activated.get? entry.id with
  | none => simp
  | some candidate => simp

/-- Rounds up to `k` activated the same entries. -/
theorem passed_activatedAt (h : Extended activated
    (pass.recursiveCandidate scan (k + 1) frontier fallback activated) pass.entries activated')
    {j : Nat} (hj : j ≤ k) : pass.activatedAt activated j = pass.activatedAt activated' j := by
  refine List.filter_congr fun entry hentry => ?_
  rw [passed_get? hsorted h hentry]
  cases hold : activated.get? entry.id with
  | some candidate => rfl
  | none =>
    cases hnew : pass.recursiveCandidate scan (k + 1) frontier fallback activated entry with
    | none => rfl
    | some candidate =>
      unfold Pass.recursiveCandidate at hnew
      rw [OrdMap.contains, hold] at hnew
      obtain ⟨reasons, -, rfl⟩ := Option.map_eq_some_iff.1 hnew
      have hne : k + 1 ≠ j := by omega
      simp [hne]

/-- Round `k + 1` activated the entries of the next frontier. -/
theorem passed_frontier (hrounds : Activation pass k first activated) (h : Extended activated
    (pass.recursiveCandidate scan (k + 1) frontier fallback activated) pass.entries activated') :
    pass.entries.filter (fun entry =>
      (pass.recursiveCandidate scan (k + 1) frontier fallback activated entry).isSome) =
        pass.activatedAt activated' (k + 1) := by
  refine List.filter_congr fun entry hentry => ?_
  rw [passed_get? hsorted h hentry]
  cases hold : activated.get? entry.id with
  | some candidate =>
    obtain ⟨-, -, -, hdepth, -⟩ := hrounds.of_some entry.id candidate hold
    have hne : candidate.recursionDepth ≠ k + 1 := by omega
    simp [Pass.recursiveCandidate, OrdMap.contains, hold, hne]
  | none =>
    cases hnew : pass.recursiveCandidate scan (k + 1) frontier fallback activated entry with
    | none => rfl
    | some candidate =>
      unfold Pass.recursiveCandidate at hnew
      rw [OrdMap.contains, hold] at hnew
      obtain ⟨reasons, -, rfl⟩ := Option.map_eq_some_iff.1 hnew
      simp

/-- **One round.** -/
theorem rounds_step (hrounds : Rounds pass k first scan activated frontier)
    (hfallback : fallback ∈ sortIds frontier) {state : Activated × List KnowledgeEntryId}
    (hpassed : pass.Passed (pass.roundScan first activated (k + 1)) (k + 1) (sortIds frontier)
      fallback activated pass.entries state) :
    Rounds pass (k + 1) first (pass.roundScan first activated (k + 1)) state.1 state.2 := by
  obtain ⟨activated', next⟩ := state
  obtain ⟨hext, hnext⟩ := hpassed
  have hat : ∀ j ≤ k, pass.activatedAt activated j = pass.activatedAt activated' j :=
    fun j hj => passed_activatedAt hsorted hext hj
  have htext : ∀ j ≤ k + 1, pass.roundScan first activated j = pass.roundScan first activated' j :=
    fun j hj => roundScan_congr fun i hi => hat i (by omega)
  refine ⟨⟨?_, ?_⟩, htext _ (Nat.le_refl _), ?_⟩
  · intro id candidate hget
    rw [hext id] at hget
    rcases Option.or_eq_some_iff.1 hget with hnew | ⟨-, hold⟩
    · -- a candidate of this round
      obtain ⟨entry, hfind, hcandidate⟩ := Option.bind_eq_some_iff.1 hnew
      have hentry := List.mem_of_find?_eq_some hfind
      unfold Pass.recursiveCandidate at hcandidate
      split at hcandidate
      · cases hcandidate
      · rename_i hcontains
        have hnone : activated.get? entry.id = none := by
          simpa [OrdMap.contains] using hcontains
        obtain ⟨reasons, hreasons, rfl⟩ := Option.map_eq_some_iff.1 hcandidate
        refine ⟨entry, hentry, by simpa using List.find?_some hfind, Nat.le_refl _, rfl, ?_,
          reasons, ?_, ?_, ?_⟩
        · intro j hj
          have hj : j ≤ k := Nat.lt_succ_iff.1 hj
          rw [← htext j (by omega)]
          exact hrounds.activation.of_none entry hentry hnone j hj
        · rw [← htext _ (Nat.le_refl _)]
          exact hreasons
        · intro hzero
          cases hzero
        · intro j hj
          obtain rfl : k = j := by simpa using hj
          have htrigger := triggerOf_mem (sortIds frontier) fallback entry hfallback
          rw [hrounds.frontier_eq] at htrigger
          obtain ⟨parent, hparent, hid⟩ := List.mem_map.1 htrigger
          rw [← hrounds.frontier_eq] at hid
          exact ⟨parent, hat k (Nat.le_refl _) ▸ hparent, by rw [hid]⟩
    · -- a candidate of an earlier round
      obtain ⟨entry, hentry, hid, hdepth, htokens, hearlier, reasons, hreasons, hzero, hsucc⟩ :=
        hrounds.activation.of_some id candidate hold
      refine ⟨entry, hentry, hid, by omega, htokens, ?_, reasons, ?_, hzero, ?_⟩
      · intro j hj
        rw [← htext j (by omega)]
        exact hearlier j hj
      · rw [← htext _ (by omega)]
        exact hreasons
      · intro j hj
        rw [← hat j (by omega)]
        exact hsucc j hj
  · intro entry hentry hnone j hj
    rw [passed_get? hsorted hext hentry, Option.or_eq_none_iff] at hnone
    rw [← htext j hj]
    by_cases hjk : j ≤ k
    · exact hrounds.activation.of_none entry hentry hnone.1 j hjk
    · obtain rfl : j = k + 1 := by omega
      have hcandidate := hnone.2
      unfold Pass.recursiveCandidate at hcandidate
      rw [OrdMap.contains, hnone.1] at hcandidate
      exact Option.map_eq_none_iff.1 hcandidate
  · rw [hnext, passed_frontier hsorted hrounds.activation hext]
    exact sortIds_of_sorted (hsorted.sublist ((List.filter_sublist).map _))

omit hsorted in
/-- **A round that activates nothing is the last**: its text and its activations stay. -/
theorem Rounds.finish (h : Rounds pass k first scan activated frontier)
    (hempty : sortIds frontier = []) {n : Nat} (hn : k ≤ n) :
    Activation pass n first activated ∧ scan = pass.roundScan first activated n := by
  have hnone : ∀ j, k ≤ j → pass.activatedAt activated j = [] := by
    intro j hj
    by_cases hjk : j = k
    · have := h.frontier_eq
      rw [hempty] at this
      rw [hjk]
      exact List.map_eq_nil_iff.1 this.symm
    · rw [List.eq_nil_iff_forall_not_mem]
      intro entry hentry
      obtain ⟨-, candidate, hget, hdepth⟩ := mem_activatedAt.1 hentry
      obtain ⟨-, -, -, hle, -⟩ := h.activation.of_some entry.id candidate hget
      omega
  have hstable : ∀ j, k ≤ j →
      pass.roundScan first activated j = pass.roundScan first activated k :=
    fun j hj => roundScan_stable hnone j hj
  refine ⟨⟨?_, ?_⟩, ?_⟩
  · intro id candidate hget
    obtain ⟨entry, hentry, hid, hdepth, hrest⟩ := h.activation.of_some id candidate hget
    exact ⟨entry, hentry, hid, hdepth.trans hn, hrest⟩
  · intro entry hentry hget j hj
    by_cases hjk : j ≤ k
    · exact h.activation.of_none entry hentry hget j hjk
    · rw [hstable j (by omega)]
      exact h.activation.of_none entry hentry hget k (Nat.le_refl k)
  · rw [hstable n hn]
    exact h.scan_eq

/-- **The rounds.** -/
theorem recursionRounds_returns (n : Nat) (h : Rounds pass k first scan activated frontier) :
    Returns (pass.recursionRounds n (k + 1) scan activated frontier) fun result =>
      Activation pass (k + n) first result.2 ∧
        result.1 = pass.roundScan first result.2 (k + n) := by
  induction n generalizing k scan activated frontier with
  | zero =>
    unfold Pass.recursionRounds
    exact returns_pure ⟨h.activation, h.scan_eq⟩
  | succ n ih =>
    unfold Pass.recursionRounds
    cases hids : sortIds frontier with
    | nil => exact returns_pure (h.finish hids (by omega))
    | cons fallback others =>
      have hfrontier : fallback :: others = (pass.activatedAt activated k).map (·.id) := by
        rw [← hids, h.frontier_eq]
      have hmem : ∀ entry ∈ pass.activatedAt activated k, entry ∈ pass.entries :=
        fun entry hentry => (mem_activatedAt.1 hentry).1
      have happend := appendFrontier_returns (entries_nodup hsorted) scan hmem
      rw [← hfrontier] at happend
      refine happend.bind fun text htext => ?_
      have htext : text = pass.roundScan first activated (k + 1) := by
        rw [htext, h.scan_eq]
        rfl
      subst htext
      refine (recursivePass_returns (entries_nodup hsorted) _ _ _ _ _).bind fun state hpassed => ?_
      rw [← hids] at hpassed
      have hnext := rounds_step hsorted h (by rw [hids]; exact List.mem_cons_self) hpassed
      rw [show k + (n + 1) = k + 1 + n by omega]
      exact ih hnext

/-- **Activation**: the first pass and the rounds. -/
theorem activate_returns (book : KnowledgeBook) (first : ActivationScan)
    (hdepth : book.recursive = false → book.maxRecursionDepth = 0) :
    Returns (pass.activate book first) fun result =>
      Activation pass book.maxRecursionDepth.toNat first result.2 ∧
        result.1 = pass.roundScan first result.2 book.maxRecursionDepth.toNat := by
  refine (initialPass_returns (entries_nodup hsorted) first).bind fun activated hactivated => ?_
  have hinitial := rounds_initial hsorted hactivated
  refine returns_ite (fun hrecursive => ?_) fun hrecursive => ?_
  · simpa only [Nat.zero_add] using
      recursionRounds_returns hsorted book.maxRecursionDepth.toNat hinitial
  · have hzero : book.maxRecursionDepth = 0 := by
      by_cases hrec : book.recursive = true
      · by_contra hne
        refine hrecursive ?_
        have hpos : 0 < book.maxRecursionDepth := UInt32.pos_iff_ne_zero.2 hne
        simp [hrec, hpos]
      · exact hdepth (by simpa using hrec)
    rw [hzero]
    exact returns_pure ⟨hinitial.activation, hinitial.scan_eq⟩

end Rounds

end LorePia
