import LorePia.Orchestration.Proof.MemorySelect

/-!
# Memory selection as a whole

`MemoryReport` says what a selection contains, given its candidates in rank order: who was eligible,
what the lanes hold, what every record's evidence says, and why a candidate was left out.
The selection does not depend on the order of the records or of the scores.
-/

namespace LorePia

open Base

/-- An item of evidence agrees with the selection from the candidates `order`. -/
def Consistent (order : List RankedMemory) (selected : List SelectedMemoryRecord)
    (item : MemorySelectionEvidence) : Prop :=
  (∃ memory ∈ selected, memory.recordId = item.recordId ∧ item.selected = true ∧
    item.lane = some memory.lane ∧ item.rankMillionths = some memory.rankMillionths ∧
      item.estimatedTokens = memory.estimatedTokens ∧ item.reasons = memory.reasons ∧
        item.exclusionReason = none) ∨
  (item.recordId ∉ selected.map (·.recordId) ∧ item.selected = false ∧ item.lane = none ∧
    item.exclusionReason.isSome ∧ item.rankMillionths =
      (order.find? fun candidate => candidate.record.id = item.recordId).map (·.rankMillionths))

/-- Why a record is left out: a limit, or what the eligibility test says. -/
def ExclusionReason (context : MemorySelectionContext) (records : List MemoryRecord)
    (recordId : MemoryRecordId) (why : String) : Prop :=
  why = countLimitReason ∨ why = memoryBudgetReason ∨
    ∃ lineage, normalizedLineage context.visibleMessageIds = .ok lineage ∧
      ∃ record ∈ records, record.id = recordId ∧ eligibleRange record context lineage = .error why

/-- What a selection reports about `records`; `order` are its candidates in rank order. -/
structure MemoryReport (records : List MemoryRecord) (profile : MemoryProfile)
    (context : MemorySelectionContext) (order : List RankedMemory) (selection : MemorySelection) :
    Prop where
  ordered : order.Pairwise fun left right => rankedLe left right
  candidates : (order.map (·.record.id)).Nodup ∧
    ∀ record, record ∈ order.map (·.record) ↔ record ∈ records ∧ Eligible context record
  chosen : ∃ chosen : List (RankedMemory × MemorySelectionLane), (chosen.map (·.1)).Sublist order ∧
    selection.selected = chosen.map fun item => selectedMemory item.1 item.2
  eligible : ∀ item ∈ selection.selected, ∃ record ∈ records, record.id = item.recordId ∧
    Eligible context record ∧ (item.lane = .pinned ↔ record.isPinned = true)
  episodic : selection.usedEpisodicTokens.toNat = tokensIn isEpisodic selection.selected
  semantic : selection.usedSemanticTokens.toNat = tokensIn isSemantic selection.selected
  episodic_le : selection.usedEpisodicTokens ≤ profile.episodicBudget.maxTokens
  semantic_le : selection.usedSemanticTokens ≤ profile.semanticBudget.maxTokens
  count_le : unpinnedCount selection.selected ≤ profile.retrievalCount.toNat
  evidence_ids : (selection.evidence.map (·.recordId)).Pairwise (· < ·) ∧
    (selection.evidence.map (·.recordId)).Perm (records.map (·.id))
  consistent : ∀ item ∈ selection.evidence, Consistent order selection.selected item
  reasons : ∀ item ∈ selection.evidence, ∀ why, item.exclusionReason = some why →
    ExclusionReason context records item.recordId why
  leftOut : ∀ before candidate after, order = before ++ candidate :: after →
    candidate.record.id ∉ selection.selected.map (·.recordId) →
      Blocked profile (selectedFrom before selection.selected) candidate

/-- The evidence the ranking loop starts with. -/
def initialMemoryEvidence (context : MemorySelectionContext) (records : List MemoryRecord) :
    MemoryEvidenceMap :=
  .ofList (records.map fun record => (record.id, recordEvidence context.tokenEstimates record))

section Report

variable {profile : MemoryProfile} {context : MemorySelectionContext}
  {lineage : OrdMap MessageId Nat} {scores : OrdMap MemoryRecordId UInt32}
  {records : List MemoryRecord}

theorem initialMemoryEvidence_ranked (hnd : (records.map (·.id)).Nodup) :
    Ranked profile context lineage scores records [] (initialMemoryEvidence context records, []) := by
  refine ⟨rfl, by simp, fun id => ?_⟩
  show (OrdMap.ofList _).get? id = _
  rw [OrdMap.get?_ofList, OrdMap.find_map]
  · simp
  · rw [List.map_map]
    exact hnd

/-- The ranking loop over all records. -/
theorem rank_ranked (hnd : (records.map (·.id)).Nodup)
    {state : MemoryEvidenceMap × List RankedMemory}
    (h : records.foldlM (rankRecordStep profile context lineage scores)
      (initialMemoryEvidence context records, []) = .ok state) :
    Ranked profile context lineage scores records records state :=
  foldlM_ok_inv h (initialMemoryEvidence_ranked hnd) fun _ _ _ _ _ hsplit hs hstep =>
    rankRecordStep_ranked hnd hsplit hs hstep

/-- The candidates in rank order: exactly the eligible records. -/
theorem mem_rankedOrder (hlineage : normalizedLineage context.visibleMessageIds = .ok lineage)
    {state : MemoryEvidenceMap × List RankedMemory}
    (h : Ranked profile context lineage scores records records state) (record : MemoryRecord) :
    record ∈ (stableSort rankedLe state.2).map (·.record) ↔
      record ∈ records ∧ Eligible context record := by
  rw [((stableSort_perm rankedLe state.2).map _).mem_iff, h.candidates, List.mem_filter,
    ← eligibleRange_iff hlineage]
  refine and_congr_right fun _ => ?_
  cases eligibleRange record context lineage with
  | error why => simp [Except.isOk, Except.toBool]
  | ok range => simp [Except.isOk, Except.toBool]

theorem rankedOrder_nodup (hnd : (records.map (·.id)).Nodup)
    {state : MemoryEvidenceMap × List RankedMemory}
    (h : Ranked profile context lineage scores records records state) :
    ((stableSort rankedLe state.2).map (·.record.id)).Nodup := by
  have hperm := (stableSort_perm rankedLe state.2).map (·.record.id)
  have hids : state.2.map (·.record.id) = (state.2.map (·.record)).map (·.id) := by
    rw [List.map_map]
    rfl
  rw [hperm.nodup_iff, hids, h.candidates]
  exact (List.filter_sublist.map _).nodup hnd

/-- Every candidate has evidence. -/
theorem rankedOrder_contains (hnd : (records.map (·.id)).Nodup)
    {state : MemoryEvidenceMap × List RankedMemory}
    (h : Ranked profile context lineage scores records records state) (candidate : RankedMemory)
    (hcandidate : candidate ∈ stableSort rankedLe state.2) :
    state.1.contains candidate.record.id = true := by
  rw [mem_stableSort] at hcandidate
  have hmem : candidate.record ∈ state.2.map (·.record) := List.mem_map_of_mem hcandidate
  rw [h.candidates, List.mem_filter] at hmem
  rw [OrdMap.contains, h.evidence, find?_key hnd hmem.1]
  rfl

theorem rankedEvidence_recordId (record : MemoryRecord) :
    (rankedEvidence context lineage record).recordId = record.id := by
  unfold rankedEvidence
  split <;> rfl

/-- **The evidence after both loops**: under its own id, and consistent. -/
theorem retrieved_consistent (hlineage : normalizedLineage context.visibleMessageIds = .ok lineage)
    (hnd : (records.map (·.id)).Nodup)
    {state : MemoryEvidenceMap × List RankedMemory} {final : Retrieval}
    (hranked : Ranked profile context lineage scores records records state)
    (hfinal : Retrieved profile state.1 (stableSort rankedLe state.2) final)
    {record : MemoryRecord} (hrecord : record ∈ records) :
    ∃ item, final.evidence.get? record.id = some item ∧ item.recordId = record.id ∧
      Consistent (stableSort rankedLe state.2) final.selected item ∧
        ∀ why, item.exclusionReason = some why → ExclusionReason context records record.id why := by
  have hbase : state.1.get? record.id = some (rankedEvidence context lineage record) := by
    rw [hranked.evidence, find?_key hnd hrecord, Option.map_some,
      if_pos (List.mem_map_of_mem hrecord)]
  have horder := rankedOrder_nodup hnd hranked
  have hranks : ∀ candidate ∈ stableSort rankedLe state.2, candidate.record ∈ records ∧
      RankedBy profile context lineage scores candidate := by
    intro candidate hcandidate
    rw [mem_stableSort] at hcandidate
    refine ⟨?_, hranked.ranks candidate hcandidate⟩
    have hmem : candidate.record ∈ state.2.map (·.record) := List.mem_map_of_mem hcandidate
    rw [hranked.candidates, List.mem_filter] at hmem
    exact hmem.1
  by_cases hsel : record.id ∈ final.selected.map (·.recordId)
  · -- a selected record
    obtain ⟨memory, hmemory, hid⟩ := List.mem_map.1 hsel
    refine ⟨selectedEvidence memory (rankedEvidence context lineage record), ?_,
      rankedEvidence_recordId record, .inl ⟨memory, hmemory, ?_, rfl, rfl, rfl, ?_, rfl, rfl⟩,
      fun why hwhy => by cases hwhy⟩
    · rw [← hid, hfinal.selected memory hmemory, hid, hbase]
      rfl
    · exact hid.trans (rankedEvidence_recordId record).symm
    · obtain ⟨chosen, hsub, -, hselected⟩ := hfinal.chosen
      rw [hselected] at hmemory
      obtain ⟨⟨candidate, lane⟩, hitem, rfl⟩ := List.mem_map.1 hmemory
      obtain ⟨hcandidate, range, hrange, hrank⟩ :=
        hranks candidate (hsub.subset (List.mem_map_of_mem hitem))
      have hsame : candidate.record = record := List.inj_on_of_nodup_map hnd hcandidate hrecord hid
      show (rankedEvidence context lineage record).estimatedTokens = candidate.estimatedTokens
      rw [(rankRecord_eq_ok hrank).2.2, hsame]
      unfold rankedEvidence
      split <;> rfl
  · by_cases hin : record.id ∈ (stableSort rankedLe state.2).map (·.record.id)
    · -- a candidate left out
      obtain ⟨candidate, hcandidate, hid⟩ := List.mem_map.1 hin
      obtain ⟨why, hlimit, hwhy⟩ := hfinal.excluded candidate hcandidate (by rw [hid]; exact hsel)
      rw [hid, hbase] at hwhy
      refine ⟨_, hwhy, rankedEvidence_recordId record, .inr ⟨?_, ?_, ?_, rfl, ?_⟩, ?_⟩
      · show (rankedEvidence context lineage record).recordId ∉ _
        rw [rankedEvidence_recordId]
        exact hsel
      · show (rankedEvidence context lineage record).selected = false
        unfold rankedEvidence
        split <;> rfl
      · show (rankedEvidence context lineage record).lane = none
        unfold rankedEvidence
        split <;> rfl
      · have hfind : (stableSort rankedLe state.2).find?
            (fun item => item.record.id = record.id) = some candidate := by
          rw [← hid]
          exact find?_key horder hcandidate
        show some candidate.rankMillionths = Option.map _ (List.find? (fun item : RankedMemory =>
          item.record.id = (rankedEvidence context lineage record).recordId) _)
        rw [rankedEvidence_recordId, hfind]
        rfl
      · intro why' hwhy'
        cases hwhy'
        rcases hlimit with rfl | rfl
        · exact .inl rfl
        · exact .inr (.inl rfl)
    · -- an ineligible record
      have hnone : ∃ why, eligibleRange record context lineage = .error why := by
        cases hrange : eligibleRange record context lineage with
        | error why => exact ⟨why, rfl⟩
        | ok range =>
          refine absurd ?_ hin
          have hmem : record ∈ state.2.map (·.record) := by
            rw [hranked.candidates, List.mem_filter, hrange]
            exact ⟨hrecord, rfl⟩
          obtain ⟨candidate, hcandidate, rfl⟩ := List.mem_map.1 hmem
          exact List.mem_map_of_mem (mem_stableSort.2 hcandidate)
      obtain ⟨why, hwhy⟩ := hnone
      have hitem : rankedEvidence context lineage record =
          { recordEvidence context.tokenEstimates record with exclusionReason := some why } := by
        unfold rankedEvidence
        rw [hwhy]
      refine ⟨rankedEvidence context lineage record, ?_, rankedEvidence_recordId record,
        .inr ⟨?_, ?_, ?_, ?_, ?_⟩, ?_⟩
      · rw [hfinal.untouched _ hin, hbase]
      · rw [rankedEvidence_recordId]
        exact hsel
      · rw [hitem]
        rfl
      · rw [hitem]
        rfl
      · rw [hitem]
        rfl
      · have hfind : (stableSort rankedLe state.2).find?
            (fun item => item.record.id = record.id) = none := by
          rw [List.find?_eq_none]
          intro candidate hcandidate hid
          exact hin (List.mem_map.2 ⟨candidate, hcandidate, by simpa using hid⟩)
        rw [rankedEvidence_recordId, hfind, hitem]
        rfl
      · intro why' hwhy'
        rw [hitem] at hwhy'
        cases hwhy'
        exact .inr (.inr ⟨lineage, hlineage, record, hrecord, rfl, hwhy⟩)

/-- **Both loops** report on the records. -/
theorem retrieved_report (hlineage : normalizedLineage context.visibleMessageIds = .ok lineage)
    (hsorted : (records.map (·.id)).Pairwise (· < ·))
    {state : MemoryEvidenceMap × List RankedMemory} {final : Retrieval}
    (hranked : Ranked profile context lineage scores records records state)
    (hfinal : Retrieved profile state.1 (stableSort rankedLe state.2) final) :
    MemoryReport records profile context (stableSort rankedLe state.2)
      { selected := final.selected
        evidence := sortedMemoryEvidence final.evidence
        usedEpisodicTokens := final.usedEpisodicTokens
        usedSemanticTokens := final.usedSemanticTokens } := by
  have hnd : (records.map (·.id)).Nodup := hsorted.imp ne_of_lt
  have hmember := mem_rankedOrder hlineage hranked
  have hget : ∀ id item, final.evidence.get? id = some item →
      ∃ record ∈ records, record.id = id ∧ item.recordId = id ∧
        Consistent (stableSort rankedLe state.2) final.selected item ∧
          ∀ why, item.exclusionReason = some why → ExclusionReason context records id why := by
    intro id item hitem
    have hin : id ∈ records.map (·.id) := by
      by_contra hout
      have horder : id ∉ (stableSort rankedLe state.2).map (·.record.id) := by
        intro hmem
        obtain ⟨candidate, hcandidate, rfl⟩ := List.mem_map.1 hmem
        exact hout (List.mem_map_of_mem ((hmember _).1 (List.mem_map_of_mem hcandidate)).1)
      rw [hfinal.untouched id horder, hranked.evidence, List.find?_eq_none.2] at hitem
      · cases hitem
      · intro record hrecord hid
        exact hout (List.mem_map.2 ⟨record, hrecord, by simpa using hid⟩)
    obtain ⟨record, hrecord, rfl⟩ := List.mem_map.1 hin
    obtain ⟨item', hitem', hid, hfacts⟩ :=
      retrieved_consistent hlineage hnd hranked hfinal hrecord
    rw [hitem] at hitem'
    cases hitem'
    exact ⟨record, hrecord, rfl, hid, hfacts⟩
  have hkey : ∀ id item, final.evidence.get? id = some item → item.recordId = id := by
    intro id item hitem
    obtain ⟨_, _, _, hid, _⟩ := hget id item hitem
    exact hid
  obtain ⟨hvalues, hids⟩ := OrdMap.stableSort_values hkey
  have hvalues : sortedMemoryEvidence final.evidence = final.evidence.values := hvalues
  have hkeys : final.evidence.keys = records.map (·.id) := by
    refine OrdMap.keys_eq_of_mem hsorted fun id => ?_
    rw [OrdMap.contains, Option.isSome_iff_exists]
    constructor
    · intro hid
      obtain ⟨record, hrecord, rfl⟩ := List.mem_map.1 hid
      obtain ⟨item, hitem, -⟩ := retrieved_consistent hlineage hnd hranked hfinal hrecord
      exact ⟨item, hitem⟩
    · rintro ⟨item, hitem⟩
      obtain ⟨record, hrecord, rfl, -⟩ := hget id item hitem
      exact List.mem_map_of_mem hrecord
  obtain ⟨chosen, hsub, hlanes, hselected⟩ := hfinal.chosen
  refine ⟨stableSort_pairwise rankedLe_total rankedLe_trans _,
    ⟨rankedOrder_nodup hnd hranked, hmember⟩, ⟨chosen, hsub, hselected⟩, ?_, hfinal.episodic,
    hfinal.semantic, UInt32.le_iff_toNat_le.2 hfinal.episodic_le,
    UInt32.le_iff_toNat_le.2 hfinal.semantic_le, ?_, ?_, ?_, ?_, hfinal.blocked⟩
  · intro item hitem
    have hitem : item ∈ final.selected := hitem
    rw [hselected] at hitem
    obtain ⟨⟨candidate, lane⟩, hchosen, rfl⟩ := List.mem_map.1 hitem
    have hcandidate : candidate ∈ stableSort rankedLe state.2 :=
      hsub.subset (List.mem_map_of_mem hchosen)
    obtain ⟨hrecord, heligible⟩ := (hmember _).1 (List.mem_map_of_mem hcandidate)
    obtain ⟨range, -, hrank⟩ := hranked.ranks candidate (mem_stableSort.1 hcandidate)
    refine ⟨candidate.record, hrecord, rfl, heligible, ?_⟩
    rw [← (rankRecord_eq_ok hrank).2.1]
    exact hlanes _ hchosen
  · show unpinnedCount final.selected ≤ _
    rw [← hfinal.ordinary]
    exact hfinal.ordinary_le
  · show ((sortedMemoryEvidence final.evidence).map (·.recordId)).Pairwise (· < ·) ∧
      ((sortedMemoryEvidence final.evidence).map (·.recordId)).Perm _
    rw [hvalues, hids, hkeys]
    exact ⟨hsorted, List.Perm.refl _⟩
  · intro item hitem
    have hitem : item ∈ sortedMemoryEvidence final.evidence := hitem
    rw [hvalues, OrdMap.mem_values] at hitem
    obtain ⟨id, hitem⟩ := hitem
    obtain ⟨_, _, _, _, hconsistent, _⟩ := hget id item hitem
    exact hconsistent
  · intro item hitem
    have hitem : item ∈ sortedMemoryEvidence final.evidence := hitem
    rw [hvalues, OrdMap.mem_values] at hitem
    obtain ⟨id, hitem⟩ := hitem
    obtain ⟨_, _, _, rfl, _, hreasons⟩ := hget id item hitem
    exact hreasons

/-- A report on the sorted records is one on the records. -/
theorem MemoryReport.of_perm {sorted : List MemoryRecord} {order : List RankedMemory}
    {selection : MemorySelection} (hperm : sorted.Perm records)
    (h : MemoryReport sorted profile context order selection) :
    MemoryReport records profile context order selection := by
  refine ⟨h.ordered, ⟨h.candidates.1, ?_⟩, h.chosen, ?_, h.episodic, h.semantic, h.episodic_le,
    h.semantic_le, h.count_le, ⟨h.evidence_ids.1, h.evidence_ids.2.trans (hperm.map _)⟩,
    h.consistent, ?_, h.leftOut⟩
  · intro record
    rw [h.candidates.2, hperm.mem_iff]
  · intro item hitem
    obtain ⟨record, hrecord, hfacts⟩ := h.eligible item hitem
    exact ⟨record, hperm.mem_iff.1 hrecord, hfacts⟩
  · intro item hitem why hwhy
    rcases h.reasons item hitem why hwhy with hlimit | hlimit | ⟨lineage, hlineage, record, hrecord, h⟩
    · exact .inl hlimit
    · exact .inr (.inl hlimit)
    · exact .inr (.inr ⟨lineage, hlineage, record, hperm.mem_iff.1 hrecord, h⟩)

end Report

/-! ## The stages -/

theorem validateProfile_finite {profile : MemoryProfile} (h : validateProfile profile = .ok ())
    (weight : F32) (hweight : weight ∈ profile.weights) : weight.isFinite = true := by
  obtain ⟨-, h⟩ := seq_eq_ok.1 h
  rw [rejectIf_eq_ok, List.any_eq_true, not_exists] at h
  have hvalid := h weight
  simp only [invalidWeight, not_and, Bool.or_eq_true, Bool.not_eq_true', not_or,
    Bool.not_eq_false] at hvalid
  exact (hvalid hweight).1

/-- The stages of a successful selection. -/
theorem selectMemory_eq_ok {records : List MemoryRecord} {profile : MemoryProfile}
    {context : MemorySelectionContext} {selection : MemorySelection}
    (h : selectMemory records profile context = .ok selection) :
    ∃ lineage scores state, (records.map (·.id)).Nodup ∧
      normalizedLineage context.visibleMessageIds = .ok lineage ∧
      normalizeMemoryScores (sortRecords records) context.semanticScores = .ok scores ∧
      Ranked profile context lineage scores (sortRecords records) (sortRecords records) state ∧
      MemoryReport records profile context (stableSort rankedLe state.2) selection := by
  unfold selectMemory at h
  obtain ⟨-, h⟩ := seq_eq_ok.1 h
  obtain ⟨-, h⟩ := seq_eq_ok.1 h
  obtain ⟨sorted, hsorted, h⟩ := bind_eq_ok.1 h
  obtain ⟨rfl, hnd⟩ := normalizedRecords_eq_ok.1 hsorted
  obtain ⟨lineage, hlineage, h⟩ := bind_eq_ok.1 h
  obtain ⟨scores, hscores, h⟩ := bind_eq_ok.1 h
  obtain ⟨state, hstate, h⟩ := bind_eq_ok.1 h
  obtain ⟨final, hfinal, h⟩ := bind_eq_ok.1 h
  cases h
  have hlt := sortRecords_sorted hnd
  have hranked := rank_ranked (hlt.imp ne_of_lt) hstate
  have hnd' := hlt.imp ne_of_lt
  obtain ⟨final', hfinal', hretrieved⟩ := retrieve_retrieved (rankedOrder_nodup hnd' hranked)
    (rankedOrder_contains hnd' hranked)
  rw [hfinal] at hfinal'
  cases hfinal'
  exact ⟨lineage, scores, state, hnd, hlineage, hscores, hranked,
    (retrieved_report hlineage hlt hranked hretrieved).of_perm (stableSort_perm _ _)⟩

/-- An error is neither the invariant error nor, with weights up to the bound, the overflow. -/
def Foreseen (profile : MemoryProfile) (error : MemorySelectionError) : Prop :=
  error ≠ .internalInvariant ∧ (error = .rankingScoreOverflow →
    ∃ weight ∈ profile.weights, weight.inRange 1000000 = false)

theorem normalizedRecords_eq_error {records : List MemoryRecord} {error : MemorySelectionError}
    (h : normalizedRecords records = .error error) : ∃ id, error = .duplicateRecordId id := by
  unfold normalizedRecords at h
  cases hdup : adjacentDuplicate ((sortRecords records).map (·.id)) with
  | none => simp [hdup] at h
  | some recordId =>
    rw [hdup] at h
    cases h
    exact ⟨recordId, rfl⟩

theorem normalizedLineage_eq_error {visible : List MessageId} {error : MemorySelectionError}
    (h : normalizedLineage visible = .error error) :
    error = .lineageTooLarge ∨ ∃ id, error = .duplicateLineageMessage id := by
  rcases bind_eq_error.1 h with h | ⟨⟨⟩, -, h⟩
  · rw [rejectIf_eq_error] at h
    exact .inl h.2.symm
  · right
    obtain ⟨done, item, rest, lineage, -, -, hstep⟩ :=
      foldlM_error_inv (I := fun _ _ => True) h trivial fun _ _ _ _ _ _ _ _ => trivial
    unfold lineageStep at hstep
    split at hstep
    · cases hstep
      exact ⟨_, rfl⟩
    · cases hstep

theorem normalizeMemoryScores_eq_error {records : List MemoryRecord}
    {supplied : List MemorySemanticScore} {error : MemorySelectionError}
    (h : normalizeMemoryScores records supplied = .error error) :
    ∃ id, error = .invalidSemanticScore id ∨ error = .duplicateSemanticScore id := by
  obtain ⟨done, item, rest, scores, -, -, hstep⟩ :=
    foldlM_error_inv (I := fun _ _ => True) h trivial fun _ _ _ _ _ _ _ _ => trivial
  unfold memoryScoreStep at hstep
  split at hstep
  · cases hstep
  · rcases bind_eq_error.1 hstep with hstep | ⟨⟨⟩, -, hstep⟩
    · exact ⟨_, .inl (rejectIf_eq_error.1 hstep).2.symm⟩
    · rcases bind_eq_error.1 hstep with hstep | ⟨⟨⟩, -, hstep⟩
      · exact ⟨_, .inr (rejectIf_eq_error.1 hstep).2.symm⟩
      · cases hstep

/-- **How a selection fails.** -/
theorem selectMemory_foreseen {records : List MemoryRecord} {profile : MemoryProfile}
    {context : MemorySelectionContext} {error : MemorySelectionError}
    (h : selectMemory records profile context = .error error) : Foreseen profile error := by
  rcases bind_eq_error.1 h with h | ⟨⟨⟩, hprofile, h⟩
  · unfold validateProfile at h
    rcases bind_eq_error.1 h with h | ⟨⟨⟩, -, h⟩
    · unfold mapErr at h
      split at h
      · cases h
      · cases h
        exact ⟨by simp, by simp⟩
    · rw [← (rejectIf_eq_error.1 h).2]
      exact ⟨by simp, by simp⟩
  rcases bind_eq_error.1 h with h | ⟨⟨⟩, -, h⟩
  · rw [← (rejectIf_eq_error.1 h).2]
    exact ⟨by simp, by simp⟩
  rcases bind_eq_error.1 h with h | ⟨sorted, hsorted, h⟩
  · obtain ⟨id, rfl⟩ := normalizedRecords_eq_error h
    exact ⟨by simp, by simp⟩
  obtain ⟨rfl, hnd⟩ := normalizedRecords_eq_ok.1 hsorted
  have hnd' := (sortRecords_sorted hnd).imp ne_of_lt
  rcases bind_eq_error.1 h with h | ⟨lineage, hlineage, h⟩
  · rcases normalizedLineage_eq_error h with rfl | ⟨id, rfl⟩
    · exact ⟨by simp, by simp⟩
    · exact ⟨by simp, by simp⟩
  rcases bind_eq_error.1 h with h | ⟨scores, hscores, h⟩
  · obtain ⟨id, rfl | rfl⟩ := normalizeMemoryScores_eq_error h
    · exact ⟨by simp, by simp⟩
    · exact ⟨by simp, by simp⟩
  rcases bind_eq_error.1 h with h | ⟨state, hstate, h⟩
  · -- the ranking loop
    obtain ⟨done, record, rest, state, hsplit, hstate, hstep⟩ := foldlM_error_inv h
      (initialMemoryEvidence_ranked hnd') fun _ _ _ _ _ hsplit hs hstep =>
        rankRecordStep_ranked hnd' hsplit hs hstep
    exact rankRecordStep_eq_error hlineage (normalizeMemoryScores_le hscores)
      (validateProfile_finite hprofile) hnd' hsplit hstate hstep
  · -- the selection loop
    have hranked := rank_ranked hnd' hstate
    obtain ⟨final, hfinal, -⟩ := retrieve_retrieved (rankedOrder_nodup hnd' hranked)
      (rankedOrder_contains hnd' hranked)
    rcases bind_eq_error.1 h with h | ⟨_, -, h⟩
    · rw [hfinal] at h
      cases h
    · cases h

/-- **Memory selection.** A selection reports on exactly the eligible records in rank order. It never
fails with the invariant error, and with the overflow error only for a weight above one million. -/
theorem selectMemory_reports (records : List MemoryRecord) (profile : MemoryProfile)
    (context : MemorySelectionContext) :
    (∀ selection, selectMemory records profile context = .ok selection →
      ∃ lineage scores order, normalizedLineage context.visibleMessageIds = .ok lineage ∧
        normalizeMemoryScores (sortRecords records) context.semanticScores = .ok scores ∧
        (∀ candidate ∈ order, RankedBy profile context lineage scores candidate) ∧
        MemoryReport records profile context order selection) ∧
    selectMemory records profile context ≠ .error .internalInvariant ∧
    ((∀ weight ∈ profile.weights, weight.inRange 1000000 = true) →
      selectMemory records profile context ≠ .error .rankingScoreOverflow) := by
  refine ⟨?_, fun h => (selectMemory_foreseen h).1 rfl, fun hrange h => ?_⟩
  · intro selection h
    obtain ⟨lineage, scores, state, -, hlineage, hscores, hranked, hreport⟩ := selectMemory_eq_ok h
    refine ⟨lineage, scores, _, hlineage, hscores, ?_, hreport⟩
    intro candidate hcandidate
    exact hranked.ranks candidate (mem_stableSort.1 hcandidate)
  · obtain ⟨weight, hweight, hout⟩ := (selectMemory_foreseen h).2 rfl
    rw [hrange weight hweight] at hout
    cases hout

def sampleMemory (id : MemoryRecordId) (kind : MemoryKind) (start stop : MessageId) : MemoryRecord where
  id := id
  conversationId := "harbor"
  branchId := "main"
  sourceStartMessageId := start
  sourceEndMessageId := stop
  kind := kind
  title := "A promise"
  summary := "The keeper promised to light the lamp."
  importance := 50
  pinned := false
  excludedFromConversation := false
  excludedFromCharacter := false
  invalidatedAt := none

/-- A profile that ranks by recency with the weight `weight` and keeps one ordinary record. -/
def sampleMemoryProfile (weight : F32) : MemoryProfile where
  id := "memory"
  name := "Memory"
  schemaVersion := 1
  summaryTask := "summarize"
  embeddingTask := none
  turnsPerSummary := 4
  recentRawBudget := ⟨1000⟩
  episodicBudget := ⟨30⟩
  semanticBudget := ⟨30⟩
  retrievalCount := 1
  recencyWeight := weight
  similarityWeight := .ofFields false 127 0
  importanceWeight := .ofFields false 127 0
  preserveInvalidatedRecords := true
  summarySchema := "summary.v1"
  summaryTemplate := none
  provenance := ⟨.userCreated, none, none, none, none, none⟩

/-- Two ordinary records with a score and a pinned one. -/
def sampleMemories : List MemoryRecord :=
  [sampleMemory "vow" .episodicEvent "m1" "m2", sampleMemory "lamp" .worldState "m2" "m3",
    sampleMemory "keeper" .creatorPinned "m1" "m1"]

def sampleMemoryContext : MemorySelectionContext where
  conversationId := "harbor"
  branchId := "main"
  visibleMessageIds := ["m1", "m2", "m3"]
  semanticScores := [⟨"vow", .ofFields false 126 0⟩, ⟨"lamp", .ofFields false 127 0⟩]
  tokenEstimates := .empty

/-- The ids and lanes of a selection. -/
def selectedLanes (result : Memory MemorySelection) :
    Option (List (MemoryRecordId × MemorySelectionLane)) :=
  match result with
  | .ok selection => some (selection.selected.map fun item => (item.recordId, item.lane))
  | .error _ => none

theorem selectedLanes_eq_some {result : Memory MemorySelection}
    {lanes : List (MemoryRecordId × MemorySelectionLane)} (h : selectedLanes result = some lanes) :
    ∃ selection, result = .ok selection ∧
      selection.selected.map (fun item => (item.recordId, item.lane)) = lanes := by
  cases result with
  | ok selection => exact ⟨selection, rfl, Option.some.inj h⟩
  | error error => cases h

/-- The pinned record comes first, and the count limit leaves one of the others out. -/
theorem selectMemory_reports_sampleMemories : ∃ selection order,
    selectMemory sampleMemories (sampleMemoryProfile ⟨false, 127, 0⟩) sampleMemoryContext =
        .ok selection ∧
      selection.selected.map (fun item => (item.recordId, item.lane)) =
        [("keeper", .pinned), ("lamp", .semantic)] ∧
      MemoryReport sampleMemories (sampleMemoryProfile ⟨false, 127, 0⟩) sampleMemoryContext order
        selection := by
  obtain ⟨selection, h, hlanes⟩ := selectedLanes_eq_some (show selectedLanes (selectMemory
    sampleMemories (sampleMemoryProfile ⟨false, 127, 0⟩) sampleMemoryContext) =
      some [("keeper", .pinned), ("lamp", .semantic)] by decide +kernel)
  obtain ⟨_, _, order, -, -, -, hreport⟩ :=
    (selectMemory_reports sampleMemories _ sampleMemoryContext).1 selection h
  exact ⟨selection, order, h, hlanes, hreport⟩

/-- An accepted profile with the recency weight 2,000,000 overflows. -/
theorem sampleMemories_overflow :
    validateProfile (sampleMemoryProfile ⟨false, 147, 7611392⟩) = .ok () ∧
      selectMemory sampleMemories (sampleMemoryProfile ⟨false, 147, 7611392⟩) sampleMemoryContext =
        .error .rankingScoreOverflow := by
  decide +kernel

/-! ## Order independence -/

theorem sortRecords_perm {records records' : List MemoryRecord} (hperm : records.Perm records')
    (hnd : (records.map (·.id)).Nodup) : sortRecords records = sortRecords records' := by
  refine stableSort_congr ?_ ?_ hperm ?_
  · intro a b
    simpa using le_total a.id b.id
  · intro a b c
    simpa using le_trans
  · intro a ha b hb hab hba
    simp only [decide_eq_true_eq] at hab hba
    exact List.inj_on_of_nodup_map hnd ha hb (le_antisymm hab hba)

theorem normalizedRecords_perm {records records' sorted : List MemoryRecord}
    (hperm : records.Perm records') (h : normalizedRecords records = .ok sorted) :
    normalizedRecords records' = .ok sorted := by
  rw [normalizedRecords_eq_ok] at h ⊢
  obtain ⟨rfl, hnd⟩ := h
  exact ⟨sortRecords_perm hperm hnd, (hperm.map _).nodup_iff.1 hnd⟩

/-- A memory score is normalized as a knowledge score is. -/
theorem memoryScoreStep_sameOk (ids : List MemoryRecordId) (scores : OrdMap MemoryRecordId UInt32)
    (score : MemorySemanticScore) :
    SameOk (memoryScoreStep ids scores score) (scoreStep ids scores ⟨score.recordId, score.score⟩) := by
  unfold memoryScoreStep scoreStep
  split
  · exact sameOk_ok _
  · exact (sameOk_rejectIf _ _ _).bind fun _ => (sameOk_rejectIf _ _ _).bind fun _ => sameOk_ok _

theorem normalizeMemoryScores_perm {records : List MemoryRecord}
    {supplied supplied' : List MemorySemanticScore} (hperm : supplied.Perm supplied')
    {scores : OrdMap MemoryRecordId UInt32}
    (h : normalizeMemoryScores records supplied = .ok scores) :
    normalizeMemoryScores records supplied' = .ok scores := by
  refine foldlM_ok_perm ?_ hperm h
  intro s s₁ s₂ a b ha hb
  rw [memoryScoreStep_sameOk] at ha hb
  obtain ⟨t, hb, ha⟩ := scoreStep_comm ha hb
  exact ⟨t, (memoryScoreStep_sameOk _ _ _ _).2 hb, (memoryScoreStep_sameOk _ _ _ _).2 ha⟩

/-- **Order independence.** A selection that succeeds succeeds over permuted records and permuted
semantic scores, with the same result. -/
theorem selectMemory_perm (records records' : List MemoryRecord) (profile : MemoryProfile)
    (context : MemorySelectionContext) (scores : List MemorySemanticScore)
    (hrecords : records.Perm records') (hscores : context.semanticScores.Perm scores)
    (selection : MemorySelection) (h : selectMemory records profile context = .ok selection) :
    selectMemory records' profile { context with semanticScores := scores } = .ok selection := by
  unfold selectMemory at h ⊢
  obtain ⟨hprofile, h⟩ := seq_eq_ok.1 h
  obtain ⟨hcount, h⟩ := seq_eq_ok.1 h
  obtain ⟨sorted, hsorted, h⟩ := bind_eq_ok.1 h
  obtain ⟨lineage, hlineage, h⟩ := bind_eq_ok.1 h
  obtain ⟨normalized, hnormalized, h⟩ := bind_eq_ok.1 h
  rw [hrecords.length_eq] at hcount
  refine seq_eq_ok.2 ⟨hprofile, seq_eq_ok.2 ⟨hcount, ?_⟩⟩
  refine bind_eq_ok.2 ⟨sorted, normalizedRecords_perm hrecords hsorted, ?_⟩
  refine bind_eq_ok.2 ⟨lineage, hlineage, ?_⟩
  -- what follows reads neither list again
  exact bind_eq_ok.2 ⟨normalized, normalizeMemoryScores_perm hscores hnormalized, h⟩

theorem selectMemory_perm_sampleMemories : ∃ selection,
    selectMemory sampleMemories (sampleMemoryProfile ⟨false, 127, 0⟩) sampleMemoryContext =
        .ok selection ∧
      selectMemory sampleMemories.reverse (sampleMemoryProfile ⟨false, 127, 0⟩)
          { sampleMemoryContext with semanticScores := sampleMemoryContext.semanticScores.reverse } =
        .ok selection ∧
      selection.selected.map (·.recordId) = ["keeper", "lamp"] := by
  obtain ⟨selection, h, hlanes⟩ := selectedLanes_eq_some (show selectedLanes (selectMemory
    sampleMemories (sampleMemoryProfile ⟨false, 127, 0⟩) sampleMemoryContext) =
      some [("keeper", .pinned), ("lamp", .semantic)] by decide +kernel)
  refine ⟨selection, h, selectMemory_perm _ _ _ _ _ (List.reverse_perm _).symm
    (List.reverse_perm _).symm selection h, ?_⟩
  have hids := congrArg (List.map Prod.fst) hlanes
  rw [List.map_map] at hids
  exact hids

end LorePia
