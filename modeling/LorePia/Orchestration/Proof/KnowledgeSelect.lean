import LorePia.Orchestration.Proof.KnowledgeOrder
import LorePia.Orchestration.Proof.KnowledgeRounds

/-!
# What a selection reports

The exclusion pass gives every entry its evidence (`Explained`), and the budget loop spends the token
budget on the activated entries in order (`Spent`): a candidate is selected or left out with a reason,
and the evidence of the other entries is not touched. `selectWithBudget_justified` assembles both with
the activation rounds.
-/

namespace LorePia

open Base Metered

/-! ## The exclusion pass -/

section Explained

variable (pass : Pass) (scan : ActivationScan) (activated : Activated)

/-- Why an enabled entry that is not activated is left out. -/
def Pass.unactivatedReason (entry : KnowledgeEntry) : String :=
  if (matchRule pass.lib pass.evaluation scan entry.id entry.activation).isSome &&
    !pass.gate entry then gatedReason else unmatchedReason

/-- The evidence of an entry after the exclusion pass. -/
def Pass.explanation (entry : KnowledgeEntry) : KnowledgeSelectionEvidence :=
  if !entry.enabled then entryEvidence pass.estimates entry
  else match activated.get? entry.id with
    | some candidate => { entryEvidence pass.estimates entry with reasons := candidate.reasons }
    | none => { entryEvidence pass.estimates entry with
        exclusionReason := some (pass.unactivatedReason scan entry) }

theorem explanation_fields (entry : KnowledgeEntry) :
    (pass.explanation scan activated entry).entryId = entry.id ∧
      (pass.explanation scan activated entry).selected = false := by
  unfold Pass.explanation
  split
  · exact ⟨rfl, rfl⟩
  · cases activated.get? entry.id with
    | none => exact ⟨rfl, rfl⟩
    | some candidate => exact ⟨rfl, rfl⟩

/-- The evidence after the entries `done` of the exclusion pass. -/
def Pass.Explained (done : List KnowledgeEntry) (evidence : EvidenceMap) : Prop :=
  ∀ id, evidence.get? id = (pass.entries.find? fun entry => entry.id = id).map fun entry =>
    if id ∈ done.map (·.id) then pass.explanation scan activated entry
    else entryEvidence pass.estimates entry

variable {pass scan activated}

theorem exclusionStep_returns {entry : KnowledgeEntry} {evidence : EvidenceMap}
    (hentry : evidence.get? entry.id = some (entryEvidence pass.estimates entry)) :
    Returns (pass.exclusionStep scan activated evidence entry) fun evidence' => ∀ id,
      evidence'.get? id = if entry.id = id then some (pass.explanation scan activated entry)
        else evidence.get? id := by
  unfold Pass.exclusionStep Pass.explanation
  refine returns_ite (fun hdisabled => returns_pure fun id => ?_) fun henabled => ?_
  · by_cases hid : entry.id = id
    · simp only [hid, if_true, hdisabled]
      rw [← hid, hentry]
    · rw [if_neg hid]
  · simp only [henabled, Bool.false_eq_true, if_false]
    cases activated.get? entry.id with
    | some candidate =>
      refine returns_pure fun id => ?_
      by_cases hid : entry.id = id
      · rw [OrdMap.get?_modify, if_pos hid, if_pos hid, ← hid, hentry]
        rfl
      · rw [OrdMap.get?_modify, if_neg hid, if_neg hid]
    | none =>
      refine (evaluateRule_returns _ _ _ _).bind fun reasons hreasons => returns_pure fun id => ?_
      by_cases hid : entry.id = id
      · rw [OrdMap.get?_modify, if_pos hid, if_pos hid, ← hid, hentry, hreasons]
        rfl
      · rw [OrdMap.get?_modify, if_neg hid, if_neg hid]

theorem initialEvidence_explained (hnd : (pass.entries.map (·.id)).Nodup) :
    pass.Explained scan activated [] (initialEvidence pass.entries pass.estimates) := by
  intro id
  unfold initialEvidence
  rw [OrdMap.get?_ofList, OrdMap.find_map]
  · simp
  · rw [List.map_map]
    exact hnd

theorem applyActivationExclusions_returns (hnd : (pass.entries.map (·.id)).Nodup) :
    Returns (pass.applyActivationExclusions scan activated
        (initialEvidence pass.entries pass.estimates))
      (pass.Explained scan activated pass.entries) := by
  refine Returns.foldlM (initialEvidence_explained hnd) ?_
  intro done entry rest evidence hsplit hdone
  have hnew := id_notMem_of_split hnd hsplit
  have hentry : entry ∈ pass.entries := by rw [hsplit]; simp
  have hget : evidence.get? entry.id = some (entryEvidence pass.estimates entry) := by
    rw [hdone entry.id, find?_key hnd hentry, Option.map_some, if_neg hnew]
  intro b evidence' d hrun id
  rw [exclusionStep_returns hget b evidence' d hrun id]
  by_cases hid : entry.id = id
  · subst hid
    rw [if_pos rfl, find?_key hnd hentry]
    simp
  · rw [if_neg hid, hdone id]
    have hmem : id ∈ (done ++ [entry]).map (·.id) ↔ id ∈ done.map (·.id) := by
      simp [Ne.symm hid]
    simp only [hmem]

end Explained

/-! ## The token budget -/

/-- What the budget loop selects of a candidate. -/
def selectedOf (item : KnowledgeEntry × ActivatedCandidate) : SelectedKnowledgeEntry where
  entryId := item.1.id
  content := item.1.content
  placement := item.1.placement
  estimatedTokens := item.2.estimatedTokens
  recursionDepth := item.2.recursionDepth
  reasons := item.2.reasons

/-- The budget loop after the candidates `done`; `base` is the evidence it starts from. -/
structure Spent (maxTokens : UInt32) (base : EvidenceMap)
    (done : List (KnowledgeEntry × ActivatedCandidate)) (state : Spending) : Prop where
  chosen : ∃ chosen : List (KnowledgeEntry × ActivatedCandidate), chosen.Sublist done ∧
    state.selected = chosen.map selectedOf
  tokens : state.usedTokens.toNat = (state.selected.map (·.estimatedTokens.toNat)).sum
  fits : state.usedTokens ≤ maxTokens
  untouched : ∀ id, id ∉ done.map (·.1.id) → state.evidence.get? id = base.get? id
  selected : ∀ id ∈ state.selected.map (·.entryId), state.evidence.get? id =
    (base.get? id).map fun item => { item with selected := true, exclusionReason := none }
  excluded : ∀ id ∈ done.map (·.1.id), id ∉ state.selected.map (·.entryId) → ∃ why,
    state.evidence.get? id = (base.get? id).map fun item => { item with exclusionReason := some why }

section Spent

variable {maxTokens : UInt32} {base : EvidenceMap}
  {done : List (KnowledgeEntry × ActivatedCandidate)} {state : Spending}
  {item : KnowledgeEntry × ActivatedCandidate}

/-- Only candidates are selected. -/
theorem Spent.selected_subset (h : Spent maxTokens base done state) {id : KnowledgeEntryId}
    (hid : id ∈ state.selected.map (·.entryId)) : id ∈ done.map (·.1.id) := by
  obtain ⟨chosen, hsub, hselected⟩ := h.chosen
  rw [hselected, List.map_map] at hid
  exact (hsub.map fun item => item.1.id).subset hid

theorem Spent.exclude (h : Spent maxTokens base done state) (hnew : item.1.id ∉ done.map (·.1.id))
    (why : String) : Spent maxTokens base (done ++ [item]) (state.exclude item.1.id why) := by
  have hout : item.1.id ∉ state.selected.map (·.entryId) := fun hid => hnew (h.selected_subset hid)
  obtain ⟨chosen, hsub, hselected⟩ := h.chosen
  refine ⟨⟨chosen, hsub.trans (List.sublist_append_left _ _), hselected⟩, h.tokens, h.fits,
    ?_, ?_, ?_⟩
  · intro id hid
    rw [List.map_append, List.mem_append, not_or] at hid
    have hne : item.1.id ≠ id := by simpa [eq_comm] using hid.2
    simp only [Spending.exclude, OrdMap.get?_modify, if_neg hne]
    exact h.untouched id hid.1
  · intro id hid
    have hne : item.1.id ≠ id := fun he => hout (he ▸ hid)
    simp only [Spending.exclude, OrdMap.get?_modify, if_neg hne]
    exact h.selected id hid
  · intro id hid hnot
    by_cases hne : item.1.id = id
    · subst hne
      refine ⟨why, ?_⟩
      simp only [Spending.exclude, OrdMap.get?_modify, if_true]
      rw [h.untouched _ hnew]
    · rw [List.map_append, List.mem_append] at hid
      have hid : id ∈ done.map (·.1.id) := by
        rcases hid with hid | hid
        · exact hid
        · exact absurd (by simpa [eq_comm] using hid) hne
      simp only [Spending.exclude, OrdMap.get?_modify, if_neg hne]
      exact h.excluded id hid hnot

theorem Spent.select (h : Spent maxTokens base done state) (hnew : item.1.id ∉ done.map (·.1.id))
    {nextTokens : UInt32} (hnext : nextTokens.toNat = state.usedTokens.toNat +
      item.2.estimatedTokens.toNat) (hfits : nextTokens ≤ maxTokens) :
    Spent maxTokens base (done ++ [item]) (state.select item.1 item.2 nextTokens) := by
  have hselect : (state.select item.1 item.2 nextTokens).selected =
      state.selected ++ [selectedOf item] := rfl
  have hids : (state.select item.1 item.2 nextTokens).selected.map (·.entryId) =
      state.selected.map (·.entryId) ++ [item.1.id] := by
    rw [hselect, List.map_append]
    rfl
  obtain ⟨chosen, hsub, hselected⟩ := h.chosen
  refine ⟨⟨chosen ++ [item], hsub.append (List.Sublist.refl _), ?_⟩, ?_, hfits, ?_, ?_, ?_⟩
  · rw [hselect, hselected, List.map_append]
    rfl
  · rw [hselect, List.map_append, List.sum_append, ← h.tokens]
    show nextTokens.toNat = _
    simpa [selectedOf] using hnext
  · intro id hid
    rw [List.map_append, List.mem_append, not_or] at hid
    have hne : item.1.id ≠ id := by simpa [eq_comm] using hid.2
    simp only [Spending.select, OrdMap.get?_modify, if_neg hne]
    exact h.untouched id hid.1
  · intro id hid
    rw [hids, List.mem_append, List.mem_singleton] at hid
    by_cases hne : item.1.id = id
    · subst hne
      simp only [Spending.select, OrdMap.get?_modify, if_true]
      rw [h.untouched _ hnew]
    · simp only [Spending.select, OrdMap.get?_modify, if_neg hne]
      exact h.selected id (hid.resolve_right (Ne.symm hne))
  · intro id hid hnot
    rw [hids, List.mem_append, not_or, List.mem_singleton] at hnot
    rw [List.map_append, List.mem_append] at hid
    have hid : id ∈ done.map (·.1.id) := by
      rcases hid with hid | hid
      · exact hid
      · exact absurd (by simpa using hid) hnot.2
    simp only [Spending.select, OrdMap.get?_modify, if_neg (Ne.symm hnot.2)]
    exact h.excluded id hid hnot.1

/-- **One candidate.** -/
theorem spendStep_spent (h : Spent maxTokens base done state)
    (hnew : item.1.id ∉ done.map (·.1.id)) :
    Spent maxTokens base (done ++ [item]) (spendStep maxTokens state item) := by
  unfold spendStep
  split
  · exact h.exclude hnew _
  · cases hnext : checkedAddTokens state.usedTokens item.2.estimatedTokens with
    | none => exact h.exclude hnew _
    | some nextTokens =>
      have hsum := u32TryFrom_eq_some.1 hnext
      by_cases hfits : nextTokens > maxTokens
      · simp only [hfits, if_true]
        exact h.exclude hnew _
      · simp only [hfits, if_false]
        exact h.select hnew hsum (UInt32.not_lt.1 hfits)

end Spent

/-- The candidates are the activated entries. -/
theorem mem_budgetOrder {entries : List KnowledgeEntry} (hnd : (entries.map (·.id)).Nodup)
    {activated : Activated} {item : KnowledgeEntry × ActivatedCandidate} :
    item ∈ budgetOrder entries activated ↔
      item.1 ∈ entries ∧ activated.get? item.1.id = some item.2 := by
  unfold budgetOrder
  rw [mem_stableSort, List.mem_filterMap]
  constructor
  · rintro ⟨⟨id, candidate⟩, hmem, hitem⟩
    obtain ⟨entry, hfind, rfl⟩ := Option.map_eq_some_iff.1 hitem
    have hid : entry.id = id := by simpa using List.find?_some hfind
    refine ⟨List.mem_of_find?_eq_some hfind, ?_⟩
    rw [← OrdMap.mem_entries, hid]
    exact hmem
  · rintro ⟨hentry, hget⟩
    refine ⟨(item.1.id, item.2), OrdMap.mem_entries.2 hget, ?_⟩
    rw [find?_key hnd hentry]
    rfl

theorem budgetOrder_nodup (entries : List KnowledgeEntry) (activated : Activated) :
    ((budgetOrder entries activated).map (·.1.id)).Nodup := by
  unfold budgetOrder
  rw [((stableSort_perm _ _).map _).nodup_iff]
  refine List.Pairwise.map _ (fun _ _ h => ne_of_lt h) (List.Pairwise.filterMap _ ?_ activated.sorted)
  intro a a' hlt item hitem item' hitem'
  obtain ⟨entry, hfind, rfl⟩ := Option.map_eq_some_iff.1 hitem
  obtain ⟨entry', hfind', rfl⟩ := Option.map_eq_some_iff.1 hitem'
  have hid : entry.id = a.1 := by simpa using List.find?_some hfind
  have hid' : entry'.id = a'.1 := by simpa using List.find?_some hfind'
  show entry.id < entry'.id
  rw [hid, hid']
  exact hlt

/-- **The budget loop.** -/
theorem applyBudget_spent (maxTokens : UInt32) (entries : List KnowledgeEntry)
    (activated : Activated) (base : EvidenceMap) :
    Spent maxTokens base (budgetOrder entries activated)
      (applyBudget maxTokens entries activated base) := by
  unfold applyBudget
  refine foldl_inv ?_ fun done item rest state hsplit hdone => ?_
  · exact ⟨⟨[], List.Sublist.refl _, rfl⟩, rfl, UInt32.zero_le, fun _ _ => rfl, by simp, by simp⟩
  · have hnd := budgetOrder_nodup entries activated
    rw [hsplit, List.map_append, List.map_cons, List.nodup_append] at hnd
    exact spendStep_spent hdone fun hmem => hnd.2.2 _ hmem _ List.mem_cons_self rfl

/-! ## Selections -/

/-- The rule of an entry matches a scan. -/
def Pass.Matches (pass : Pass) (scan : ActivationScan) (entry : KnowledgeEntry) : Bool :=
  (matchRule pass.lib pass.evaluation scan entry.id entry.activation).isSome

/-- What a selection says about the activation rounds it comes from. -/
structure Justified (pass : Pass) (book : KnowledgeBook) (first : ActivationScan)
    (activated : Activated) (selection : KnowledgeSelection) : Prop where
  /-- One item of evidence for each entry, in id order. -/
  evidence_ids : selection.evidence.map (·.entryId) = pass.entries.map (·.id)
  selected_iff : ∀ item ∈ selection.evidence,
    item.selected = true ↔ item.entryId ∈ selection.selected.map (·.entryId)
  selected_entries : ∀ item ∈ selection.selected, item.entryId ∈ pass.entries.map (·.id)
  selected_nodup : (selection.selected.map (·.entryId)).Nodup
  excluded : ∀ item ∈ selection.evidence, item.selected = false → item.exclusionReason.isSome
  used_tokens : selection.usedTokens.toNat =
    (selection.selected.map (·.estimatedTokens.toNat)).sum
  budget : selection.usedTokens ≤ book.tokenBudget.maxTokens
  depth : ∀ item ∈ selection.selected, item.recursionDepth ≤ book.maxRecursionDepth.toNat ∧
    (book.recursive = false → item.recursionDepth = 0)
  /-- An entry of round `k + 1` matched its text and no earlier one, and names an entry that round
  `k` activated. -/
  recursive : ∀ item ∈ selection.selected, ∀ k, item.recursionDepth = k + 1 →
    ∃ entry ∈ pass.entries, entry.id = item.entryId ∧
      pass.Matches (pass.roundScan first activated (k + 1)) entry = true ∧
      (∀ j ≤ k, pass.Matches (pass.roundScan first activated j) entry = false) ∧
      ∃ parent ∈ pass.activatedAt activated k, .recursive parent.id ∈ item.reasons
  /-- An enabled entry that is not activated is gated exactly when it matches the last text. -/
  unactivated : ∀ entry ∈ pass.entries, entry.enabled = true → activated.get? entry.id = none →
    ∃ item ∈ selection.evidence, item.entryId = entry.id ∧ item.exclusionReason =
      some (if pass.Matches
        (pass.roundScan first activated book.maxRecursionDepth.toNat) entry then gatedReason
          else unmatchedReason)

theorem mem_pushReason (reasons : List KnowledgeActivationReason)
    (reason : KnowledgeActivationReason) : reason ∈ pushReason reasons reason := by
  unfold pushReason
  by_cases h : reason ∈ reasons
  · rw [if_pos h]
    exact h
  · rw [if_neg h]
    simp

theorem activates_eq_some {pass : Pass} {scan : ActivationScan} {entry : KnowledgeEntry}
    {reasons : List KnowledgeActivationReason} (h : pass.activates scan entry = some reasons) :
    entry.enabled = true ∧ pass.gate entry = true ∧ pass.Matches scan entry = true := by
  unfold Pass.activates at h
  split at h
  · rename_i hopen
    rw [Bool.and_eq_true] at hopen
    unfold Pass.Matches
    rw [h]
    exact ⟨hopen.1, hopen.2, rfl⟩
  · cases h

/-- An entry that is not activated on a scan, though it is enabled and its gate is open. -/
theorem activates_eq_none {pass : Pass} {scan : ActivationScan} {entry : KnowledgeEntry}
    (h : pass.activates scan entry = none) (henabled : entry.enabled = true)
    (hgate : pass.gate entry = true) : pass.Matches scan entry = false := by
  unfold Pass.activates at h
  rw [henabled, hgate] at h
  unfold Pass.Matches
  rw [show matchRule pass.lib pass.evaluation scan entry.id entry.activation = none from h]
  rfl

section Reported

variable {pass : Pass} {scan : ActivationScan} {activated : Activated} {base : EvidenceMap}
  {maxTokens : UInt32} {state : Spending}

/-- **The evidence of an entry after the budget loop.** -/
theorem reported (hnd : (pass.entries.map (·.id)).Nodup)
    (hbase : pass.Explained scan activated pass.entries base)
    (hspent : Spent maxTokens base (budgetOrder pass.entries activated) state)
    {entry : KnowledgeEntry} (hentry : entry ∈ pass.entries) :
    ∃ item, state.evidence.get? entry.id = some item ∧ item.entryId = entry.id ∧
      (item.selected = true ↔ entry.id ∈ state.selected.map (·.entryId)) ∧
        (item.selected = false → item.exclusionReason.isSome) ∧
          (activated.get? entry.id = none → item = pass.explanation scan activated entry) := by
  have hget : base.get? entry.id = some (pass.explanation scan activated entry) := by
    rw [hbase entry.id, find?_key hnd hentry, Option.map_some, if_pos (List.mem_map_of_mem hentry)]
  obtain ⟨hid, hunselected⟩ := explanation_fields pass scan activated entry
  have hcandidate : entry.id ∈ (budgetOrder pass.entries activated).map (·.1.id) ↔
      activated.get? entry.id ≠ none := by
    rw [List.mem_map, Option.ne_none_iff_exists']
    constructor
    · rintro ⟨item, hitem, hid⟩
      rw [← hid]
      exact ⟨item.2, ((mem_budgetOrder hnd).1 hitem).2⟩
    · rintro ⟨candidate, hget⟩
      exact ⟨(entry, candidate), (mem_budgetOrder hnd).2 ⟨hentry, hget⟩, rfl⟩
  by_cases hselected : entry.id ∈ state.selected.map (·.entryId)
  · have hitem := hspent.selected _ hselected
    rw [hget, Option.map_some] at hitem
    refine ⟨_, hitem, hid, ?_, ?_, ?_⟩
    · simp [hselected]
    · intro hfalse
      cases hfalse
    · intro hnone
      exact absurd hnone (hcandidate.1 (hspent.selected_subset hselected))
  · by_cases hactivated : activated.get? entry.id = none
    · have hout := hspent.untouched _ (mt hcandidate.1 (not_not.2 hactivated))
      refine ⟨_, hout.trans hget, hid, ?_, ?_, fun _ => rfl⟩
      · simp [hselected, hunselected]
      · intro _
        unfold Pass.explanation
        rw [hactivated]
        cases henabled : entry.enabled with
        | false => simp [entryEvidence, henabled]
        | true => rfl
    · obtain ⟨why, hwhy⟩ := hspent.excluded _ (hcandidate.2 hactivated) hselected
      rw [hget, Option.map_some] at hwhy
      refine ⟨_, hwhy, hid, ?_, fun _ => rfl, ?_⟩
      · simp [hselected, hunselected]
      · intro hnone
        exact absurd hnone hactivated

/-- Only entries have evidence. -/
theorem reported_of (hbase : pass.Explained scan activated pass.entries base)
    (hspent : Spent maxTokens base (budgetOrder pass.entries activated) state)
    {id : KnowledgeEntryId} {item : KnowledgeSelectionEvidence}
    (h : state.evidence.get? id = some item) : ∃ entry ∈ pass.entries, entry.id = id := by
  have hsome : (base.get? id).isSome := by
    by_cases hselected : id ∈ state.selected.map (·.entryId)
    · rw [hspent.selected id hselected] at h
      simpa using congrArg Option.isSome h
    · by_cases hdone : id ∈ (budgetOrder pass.entries activated).map (·.1.id)
      · obtain ⟨why, hwhy⟩ := hspent.excluded id hdone hselected
        rw [hwhy] at h
        simpa using congrArg Option.isSome h
      · rw [← hspent.untouched id hdone, h]
        rfl
  rw [hbase id, Option.isSome_map] at hsome
  obtain ⟨entry, hfind⟩ := Option.isSome_iff_exists.1 hsome
  exact ⟨entry, List.mem_of_find?_eq_some hfind, by simpa using List.find?_some hfind⟩

/-- The selected entries are activated ones. -/
theorem selected_activated (hnd : (pass.entries.map (·.id)).Nodup)
    (hspent : Spent maxTokens base (budgetOrder pass.entries activated) state)
    {item : SelectedKnowledgeEntry} (hitem : item ∈ state.selected) :
    ∃ entry ∈ pass.entries, ∃ candidate, activated.get? entry.id = some candidate ∧
      item = selectedOf (entry, candidate) := by
  obtain ⟨chosen, hsub, hselected⟩ := hspent.chosen
  rw [hselected] at hitem
  obtain ⟨⟨entry, candidate⟩, hmem, rfl⟩ := List.mem_map.1 hitem
  obtain ⟨hentry, hget⟩ := (mem_budgetOrder hnd).1 (hsub.subset hmem)
  exact ⟨entry, hentry, candidate, hget, rfl⟩

end Reported

/-- The selection that ends the passes. -/
theorem justified_of {pass : Pass} {book : KnowledgeBook} {first : ActivationScan}
    {activated : Activated} {base : EvidenceMap}
    (hsorted : (pass.entries.map (·.id)).Pairwise (· < ·))
    (hdepth : book.recursive = false → book.maxRecursionDepth = 0)
    (hactivation : Activation pass book.maxRecursionDepth.toNat first activated)
    (hbase : pass.Explained (pass.roundScan first activated book.maxRecursionDepth.toNat) activated
      pass.entries base) :
    let spent := applyBudget book.tokenBudget.maxTokens pass.entries activated base
    Justified pass book first activated
      { selected := spent.selected
        evidence := sortedEvidence spent.evidence
        usedTokens := spent.usedTokens
        tokenBudget := book.tokenBudget.maxTokens } := by
  intro spent
  have hnd := entries_nodup hsorted
  have hspent : Spent book.tokenBudget.maxTokens base (budgetOrder pass.entries activated) spent :=
    applyBudget_spent _ _ _ _
  have hkey : ∀ id item, spent.evidence.get? id = some item → item.entryId = id := by
    intro id item hget
    obtain ⟨entry, hentry, rfl⟩ := reported_of hbase hspent hget
    obtain ⟨item', hget', hid, -⟩ := reported hnd hbase hspent hentry
    rw [hget] at hget'
    cases hget'
    exact hid
  obtain ⟨hvalues, hids⟩ := OrdMap.stableSort_values hkey
  have hvalues : sortedEvidence spent.evidence = spent.evidence.values := hvalues
  have hkeys : spent.evidence.keys = pass.entries.map (·.id) := by
    refine OrdMap.keys_eq_of_mem hsorted fun id => ?_
    rw [List.mem_map, OrdMap.contains, Option.isSome_iff_exists]
    constructor
    · rintro ⟨entry, hentry, rfl⟩
      obtain ⟨item, hget, -⟩ := reported hnd hbase hspent hentry
      exact ⟨item, hget⟩
    · rintro ⟨item, hget⟩
      exact reported_of hbase hspent hget
  -- an item of the evidence is the report of an entry
  have hitem : ∀ item ∈ sortedEvidence spent.evidence, ∃ entry ∈ pass.entries,
      item.entryId = entry.id ∧
        (item.selected = true ↔ entry.id ∈ spent.selected.map (·.entryId)) ∧
          (item.selected = false → item.exclusionReason.isSome) := by
    intro item hmem
    rw [hvalues, OrdMap.mem_values] at hmem
    obtain ⟨id, hget⟩ := hmem
    obtain ⟨entry, hentry, rfl⟩ := reported_of hbase hspent hget
    obtain ⟨item', hget', hid, hselected, hexcluded, -⟩ := reported hnd hbase hspent hentry
    rw [hget] at hget'
    cases hget'
    exact ⟨entry, hentry, hid, hselected, hexcluded⟩
  refine ⟨?_, ?_, ?_, ?_, ?_, hspent.tokens, hspent.fits, ?_, ?_, ?_⟩
  · show (sortedEvidence spent.evidence).map (·.entryId) = _
    rw [hvalues, hids, hkeys]
  · intro item hmem
    obtain ⟨entry, -, hid, hselected, -⟩ := hitem item hmem
    rw [hid]
    exact hselected
  · intro item hmem
    obtain ⟨entry, hentry, candidate, -, rfl⟩ := selected_activated hnd hspent hmem
    exact List.mem_map_of_mem hentry
  · obtain ⟨chosen, hsub, hselected⟩ := hspent.chosen
    show (spent.selected.map (·.entryId)).Nodup
    rw [hselected, List.map_map]
    exact (budgetOrder_nodup pass.entries activated).sublist (hsub.map fun item => item.1.id)
  · intro item hmem
    obtain ⟨entry, -, -, -, hexcluded⟩ := hitem item hmem
    exact hexcluded
  · intro item hmem
    obtain ⟨entry, -, candidate, hget, rfl⟩ := selected_activated hnd hspent hmem
    obtain ⟨-, -, -, hle, -⟩ := hactivation.of_some entry.id candidate hget
    refine ⟨hle, fun hflat => ?_⟩
    rw [hdepth hflat] at hle
    exact Nat.le_zero.1 hle
  · intro item hmem k hk
    obtain ⟨entry, hentry, candidate, hget, rfl⟩ := selected_activated hnd hspent hmem
    obtain ⟨entry', hentry', hid, -, -, hearlier, reasons, hreasons, -, hsucc⟩ :=
      hactivation.of_some entry.id candidate hget
    cases entry_unique hnd hentry' hentry hid
    have hk : candidate.recursionDepth = k + 1 := hk
    rw [hk] at hreasons hearlier
    obtain ⟨henabled, hgate, hmatches⟩ := activates_eq_some hreasons
    obtain ⟨parent, hparent, hpush⟩ := hsucc k hk
    refine ⟨entry, hentry, rfl, hmatches, fun j hj => ?_, parent, hparent, ?_⟩
    · exact activates_eq_none (hearlier j (Nat.lt_succ_of_le hj)) henabled hgate
    · show _ ∈ candidate.reasons
      rw [hpush]
      exact mem_pushReason _ _
  · intro entry hentry henabled hnone
    obtain ⟨item, hget, hid, -, -, hsame⟩ := reported hnd hbase hspent hentry
    refine ⟨item, ?_, hid, ?_⟩
    · show item ∈ sortedEvidence spent.evidence
      rw [hvalues, OrdMap.mem_values]
      exact ⟨entry.id, hget⟩
    · rw [hsame hnone]
      unfold Pass.explanation Pass.unactivatedReason Pass.Matches
      rw [hnone, henabled]
      -- an open gate would have activated the entry in the last round
      have hlast := hactivation.of_none entry hentry hnone _ (Nat.le_refl _)
      cases hgate : pass.gate entry with
      | true =>
        have := activates_eq_none hlast henabled hgate
        unfold Pass.Matches at this
        simp [this]
      | false => simp

/-- An accepted book that does not recurse has no rounds. -/
theorem validateBook_depth {book : KnowledgeBook} (h : validateBook book = .ok ())
    (hrecursive : book.recursive = false) : book.maxRecursionDepth = 0 := by
  unfold validateBook at h
  simp only [seq_eq_ok, mapErr_eq_ok] at h
  obtain ⟨-, -, hvalid, -⟩ := h
  unfold KnowledgeBook.validate at hvalid
  simp only [seq_eq_ok, rejectIf_eq_ok] at hvalid
  obtain ⟨-, -, -, -, hdepth, -⟩ := hvalid
  simpa [hrecursive] using hdepth

theorem sortEntries_sorted {entries : List KnowledgeEntry} (hnd : (entries.map (·.id)).Nodup) :
    ((sortEntries entries).map (·.id)).Pairwise (· < ·) := by
  have hle : (sortEntries entries).Pairwise fun a b => a.id ≤ b.id := by
    refine (stableSort_pairwise ?_ ?_ entries).imp fun {a b} hab => by simpa using hab
    · intro a b
      simpa using le_total a.id b.id
    · intro a b c
      simpa using le_trans
  have hnd' : ((sortEntries entries).map (·.id)).Nodup :=
    ((stableSort_perm _ entries).map _).nodup_iff.2 hnd
  rw [List.pairwise_map]
  exact hle.imp₂ (fun _ _ h hne => lt_of_le_of_ne h hne) (List.pairwise_map.1 hnd')

theorem passSelect_returns {pass : Pass} {book : KnowledgeBook} (scanTexts : List String)
    (hsorted : (pass.entries.map (·.id)).Pairwise (· < ·))
    (hdepth : book.recursive = false → book.maxRecursionDepth = 0) :
    Returns (pass.select book scanTexts) fun selection => ∃ activated,
      Activation pass book.maxRecursionDepth.toNat (.ofTexts pass.lib book.scanDepth scanTexts)
          activated ∧
        Justified pass book (.ofTexts pass.lib book.scanDepth scanTexts) activated selection := by
  refine (fromTexts_returns _ _ _).bind fun first hfirst => ?_
  subst hfirst
  refine (activate_returns hsorted book _ hdepth).bind fun result hresult => ?_
  obtain ⟨scan, activated⟩ := result
  obtain ⟨hactivation, hscan⟩ : Activation pass _ _ activated ∧
    scan = pass.roundScan _ activated book.maxRecursionDepth.toNat := hresult
  subst hscan
  refine (applyActivationExclusions_returns (entries_nodup hsorted)).bind fun evidence hevidence => ?_
  exact returns_pure ⟨activated, hactivation, justified_of hsorted hdepth hactivation hevidence⟩

/-- **What a selection reports is what happened.** The entries in id order, the compiled regexes and
the normalized scores determine the passes; `activated` is what the rounds activate. -/
theorem selectWithBudget_justified (lib : KnowledgeExternals) (book : KnowledgeBook)
    (context : KnowledgeSelectionContext) (budget after : KnowledgeWorkBudget)
    (selection : KnowledgeSelection)
    (h : selectWithBudget lib book context budget = (.ok selection, after)) :
    ∃ (entries : List KnowledgeEntry) (plan : RegexPlan) (regexes : CompiledRegexes)
      (scores : OrdMap KnowledgeEntryId UInt32 × OrdMap KnowledgeEntryId Nat) (activated : Activated),
      entries.Perm book.entries ∧ (entries.map (·.id)).Pairwise (· < ·) ∧
      planRegexes entries = .ok plan ∧ buildRegexes lib plan = .ok regexes ∧
      normalizeSemanticScores entries context.semanticScores = .ok scores ∧
      Activation (passOf lib book context entries regexes scores) book.maxRecursionDepth.toNat
        (.ofTexts lib book.scanDepth context.scanTexts) activated ∧
      Justified (passOf lib book context entries regexes scores) book
        (.ofTexts lib book.scanDepth context.scanTexts) activated selection := by
  obtain ⟨⟨⟩, _, hvalid, h⟩ := bind_run_eq_ok.1 h
  have hvalid := (lift_run_eq_ok.1 hvalid).1
  obtain ⟨⟨⟩, _, -, h⟩ := bind_run_eq_ok.1 h
  obtain ⟨entries, _, hentries, h⟩ := bind_run_eq_ok.1 h
  obtain ⟨regexes, _, hregexes, h⟩ := bind_run_eq_ok.1 h
  obtain ⟨scores, _, hscores, h⟩ := bind_run_eq_ok.1 h
  obtain ⟨plan, _, hplan, hregexes⟩ := bind_run_eq_ok.1 hregexes
  obtain ⟨⟨⟩, _, -, hregexes⟩ := bind_run_eq_ok.1 hregexes
  have hentries : entries = sortEntries book.entries := by
    have hnormalized := (lift_run_eq_ok.1 hentries).1
    unfold normalizedEntries at hnormalized
    simp only [seq_eq_ok] at hnormalized
    cases hnormalized.2.2
    rfl
  have hsorted : (entries.map (·.id)).Pairwise (· < ·) := by
    rw [hentries]
    exact sortEntries_sorted (validateBook_nodup hvalid)
  obtain ⟨activated, hactivation, hjustified⟩ :=
    passSelect_returns context.scanTexts hsorted (validateBook_depth hvalid) _ _ _ h
  refine ⟨entries, plan, regexes, scores, activated, ?_, hsorted, (lift_run_eq_ok.1 hplan).1,
    (lift_run_eq_ok.1 hregexes).1, (lift_run_eq_ok.1 hscores).1, hactivation, hjustified⟩
  rw [hentries]
  exact stableSort_perm _ _

/-- The ids and rounds of what a run selected. -/
def selectedRounds (run : Selection KnowledgeSelection × KnowledgeWorkBudget) :
    Option (List (KnowledgeEntryId × Nat)) :=
  match run.1 with
  | .ok selection => some (selection.selected.map fun item => (item.entryId, item.recursionDepth))
  | .error _ => none

theorem selectWithBudget_justified_sampleBook : ∃ selection after entries plan regexes scores activated,
    selectWithBudget asciiExternals sampleBook sampleSelectionContext defaultWorkBudget =
        (.ok selection, after) ∧
      selection.selected.map (fun item => (item.entryId, item.recursionDepth)) =
        [("tide", 0), ("harbor", 1)] ∧
      planRegexes entries = .ok plan ∧ buildRegexes asciiExternals plan = .ok regexes ∧
      Justified (passOf asciiExternals sampleBook sampleSelectionContext entries regexes scores)
        sampleBook (.ofTexts asciiExternals 1 ["Hello."]) activated selection := by
  have hrounds : selectedRounds (selectWithBudget asciiExternals sampleBook sampleSelectionContext
    defaultWorkBudget) = some [("tide", 0), ("harbor", 1)] := by decide +kernel
  obtain ⟨selection, after, h, -⟩ := sampleBook_select
  rw [h] at hrounds
  obtain ⟨entries, plan, regexes, scores, activated, -, -, hplan, hregexes, -, -, hjustified⟩ :=
    selectWithBudget_justified _ _ _ _ _ _ h
  exact ⟨selection, after, entries, plan, regexes, scores, activated, h, Option.some.inj hrounds,
    hplan, hregexes, hjustified⟩

end LorePia
