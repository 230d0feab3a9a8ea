import LorePia.Orchestration.Memory
import LorePia.Orchestration.Proof.KnowledgeSelect
import LorePia.Orchestration.Proof.Order

/-!
# What a memory selection reports

The ranking loop ranks exactly the eligible records (`Ranked`), the selection loop puts candidates
into lanes in rank order (`Retrieved`), and each leaves the evidence of the other records alone. A
candidate is left out only when the count limit is reached or no lane it may use has room
(`Blocked`), both counted over what was selected before its turn.

Neither loop meets a record without evidence, and a lane is chosen only when its sum fits, so the
invariant error is not reachable; the ranking arithmetic stays below `u64::MAX` for weights up to the
bound that `weight_to_millionths` checks.
-/

namespace LorePia

open Base

/-! ## The order of the candidates -/

/-- The comparison that `rankedLe` makes. -/
def rankedCmp : RankedMemory → RankedMemory → Ordering :=
  compareLex (compareOn fun candidate => !candidate.pinned)
    (compareLex (fun a b => compareOn (fun candidate : RankedMemory => candidate.rankMillionths) b a)
      (compareLex
        (fun a b => compareOn (fun candidate : RankedMemory => candidate.recencyMillionths.toNat) b a)
        (compareLex
          (fun a b => compareOn
            (fun candidate : RankedMemory => candidate.importanceMillionths.toNat) b a)
          (compareLex (compareOn fun candidate => candidate.estimatedTokens.toNat)
            (compareOn fun candidate => candidate.record.id)))))

instance : Std.TransCmp rankedCmp := by
  unfold rankedCmp
  infer_instance

theorem rankedLe_eq (left right : RankedMemory) : rankedLe left right = (rankedCmp left right).isLE := by
  unfold rankedLe rankedCmp
  simp only [lexLe_cons, compareLex, compareOn, isLE_then]
  cases compare left.record.id right.record.id <;> simp [lexLe]

theorem rankedLe_total (left right : RankedMemory) : rankedLe left right ∨ rankedLe right left := by
  rw [rankedLe_eq, rankedLe_eq]
  exact isLE_total rankedCmp left right

theorem rankedLe_trans (a b c : RankedMemory) (hab : rankedLe a b) (hbc : rankedLe b c) :
    rankedLe a c := by
  rw [rankedLe_eq] at hab hbc ⊢
  exact Std.TransCmp.isLE_trans hab hbc

/-! ## Records -/

theorem adjacentDuplicate_eq_none {ids : List String} (hsorted : ids.Pairwise (· ≤ ·)) :
    adjacentDuplicate ids = none ↔ ids.Nodup := by
  rw [← adjacentEq_of_sorted hsorted]
  induction ids with
  | nil => simp [adjacentDuplicate, adjacentEq]
  | cons a rest ih =>
    cases rest with
    | nil => simp [adjacentDuplicate, adjacentEq]
    | cons b rest =>
      rw [adjacentDuplicate, adjacentEq]
      by_cases hab : a = b
      · simp [hab]
      · simpa [hab] using ih hsorted.of_cons

theorem sortRecords_le (records : List MemoryRecord) :
    ((sortRecords records).map (·.id)).Pairwise (· ≤ ·) := by
  rw [List.pairwise_map]
  refine (stableSort_pairwise ?_ ?_ records).imp fun {a b} hab => by simpa using hab
  · intro a b
    simpa using le_total a.id b.id
  · intro a b c
    simpa using le_trans

theorem normalizedRecords_eq_ok {records sorted : List MemoryRecord} :
    normalizedRecords records = .ok sorted ↔
      sorted = sortRecords records ∧ (records.map (·.id)).Nodup := by
  have hperm : ((sortRecords records).map (·.id)).Nodup ↔ (records.map (·.id)).Nodup :=
    ((stableSort_perm _ records).map _).nodup_iff
  rw [← hperm, ← adjacentDuplicate_eq_none (sortRecords_le records)]
  unfold normalizedRecords
  cases adjacentDuplicate ((sortRecords records).map (·.id)) with
  | none => simp [eq_comm]
  | some recordId => simp

theorem sortRecords_sorted {records : List MemoryRecord} (hnd : (records.map (·.id)).Nodup) :
    ((sortRecords records).map (·.id)).Pairwise (· < ·) := by
  have hnd' : ((sortRecords records).map (·.id)).Nodup :=
    ((stableSort_perm _ records).map _).nodup_iff.2 hnd
  exact (sortRecords_le records).imp₂ (fun _ _ h hne => lt_of_le_of_ne h hne) hnd'

/-! ## The lineage -/

/-- The lineage after some of its messages. -/
def LineageOf (done : List (MessageId × Nat)) (lineage : OrdMap MessageId Nat) : Prop :=
  (done.map (·.1)).Nodup ∧ ∀ id index, lineage.get? id = some index ↔ (id, index) ∈ done

theorem lineageStep_lineageOf {done : List (MessageId × Nat)} {lineage lineage' : OrdMap MessageId Nat}
    {item : MessageId × Nat} (h : LineageOf done lineage)
    (hstep : lineageStep lineage item = .ok lineage') : LineageOf (done ++ [item]) lineage' := by
  unfold lineageStep at hstep
  cases hcontains : lineage.contains item.1 with
  | true => simp [hcontains] at hstep
  | false =>
    simp only [hcontains, Bool.false_eq_true, if_false, Except.ok.injEq] at hstep
    subst hstep
    have hnone : lineage.get? item.1 = none := by simpa [OrdMap.contains] using hcontains
    have hnew : item.1 ∉ done.map (·.1) := by
      intro hmem
      obtain ⟨⟨id, index⟩, hitem, hid⟩ := List.mem_map.1 hmem
      have hget := (h.2 id index).2 hitem
      rw [show id = item.1 from hid, hnone] at hget
      cases hget
    refine ⟨?_, fun id index => ?_⟩
    · rw [List.map_append, List.nodup_append]
      refine ⟨h.1, by simp, ?_⟩
      intro a ha b hb hab
      rw [List.map_singleton, List.mem_singleton] at hb
      exact hnew (hb ▸ hab ▸ ha)
    · rw [OrdMap.get?_insert, List.mem_append, List.mem_singleton]
      by_cases hid : item.1 = id
      · have hout : (id, index) ∉ done := fun hmem => hnew (hid ▸ List.mem_map_of_mem hmem)
        simp only [hid, if_true, Option.some.injEq, hout, false_or]
        constructor
        · rintro rfl
          exact Prod.ext hid.symm rfl
        · intro hitem
          rw [← hitem]
      · have hne : (id, index) ≠ item := fun hitem => hid (by rw [← hitem])
        simp [hid, hne, h.2]

/-- **The lineage** maps every visible message to its index. -/
theorem normalizedLineage_eq_ok {visible : List MessageId} {lineage : OrdMap MessageId Nat}
    (h : normalizedLineage visible = .ok lineage) :
    visible.Nodup ∧ (∀ id index, lineage.get? id = some index ↔ visible[index]? = some id) ∧
      lineage.entries.length = visible.length := by
  obtain ⟨-, h⟩ := seq_eq_ok.1 h
  have hof : LineageOf visible.zipIdx lineage := by
    refine foldlM_ok_inv h ⟨by simp, by simp⟩ ?_
    intro done item rest s s' _ hs hstep
    exact lineageStep_lineageOf hs hstep
  have hnd : visible.Nodup := by simpa using hof.1
  have hget : ∀ id index, lineage.get? id = some index ↔ visible[index]? = some id := by
    intro id index
    rw [hof.2, List.mem_zipIdx_iff_getElem?]
  refine ⟨hnd, hget, ?_⟩
  have hperm : lineage.keys.Perm visible := by
    rw [List.perm_ext_iff_of_nodup lineage.keys_nodup hnd]
    intro id
    rw [OrdMap.mem_keys, OrdMap.contains, Option.isSome_iff_exists, List.mem_iff_getElem?]
    simp only [hget]
  simpa [OrdMap.keys] using hperm.length_eq

/-! ## Eligibility -/

/-- A record the context may use: it belongs to the conversation, is neither invalidated nor
excluded, and its source range is on the visible lineage, in order. -/
structure Eligible (context : MemorySelectionContext) (record : MemoryRecord) : Prop where
  conversation : record.conversationId = context.conversationId
  live : record.invalidatedAt = none
  inConversation : record.excludedFromConversation = false
  inCharacter : record.excludedFromCharacter = false
  range : ∃ first last : Nat, first ≤ last ∧
    context.visibleMessageIds[first]? = some record.sourceStartMessageId ∧
      context.visibleMessageIds[last]? = some record.sourceEndMessageId

theorem eligibleRange_eq_ok {record : MemoryRecord} {context : MemorySelectionContext}
    {lineage : OrdMap MessageId Nat} {range : Nat × Nat} :
    eligibleRange record context lineage = .ok range ↔
      record.conversationId = context.conversationId ∧ record.invalidatedAt = none ∧
        record.excludedFromConversation = false ∧ record.excludedFromCharacter = false ∧
          lineage.get? record.sourceStartMessageId = some range.1 ∧
            lineage.get? record.sourceEndMessageId = some range.2 ∧ range.1 ≤ range.2 := by
  obtain ⟨first, last⟩ := range
  unfold eligibleRange
  constructor
  · intro h
    obtain ⟨h₁, h⟩ := seq_eq_ok.1 h
    obtain ⟨h₂, h⟩ := seq_eq_ok.1 h
    obtain ⟨h₃, h⟩ := seq_eq_ok.1 h
    obtain ⟨h₄, h⟩ := seq_eq_ok.1 h
    obtain ⟨start, hstart, h⟩ := bind_eq_ok.1 h
    obtain ⟨stop, hstop, h⟩ := bind_eq_ok.1 h
    obtain ⟨horder, h⟩ := seq_eq_ok.1 h
    cases h
    simp only [rejectIf_eq_ok, okOr_eq_ok, not_not, Bool.not_eq_true, Nat.not_lt,
      Option.isSome_eq_false_iff, Option.isNone_iff_eq_none] at h₁ h₂ h₃ h₄ hstart hstop horder
    exact ⟨h₁, h₂, h₃, h₄, hstart, hstop, horder⟩
  · intro h
    obtain ⟨h₁, h₂, h₃, h₄, hstart, hstop, horder⟩ := h
    have horder : ¬ first > last := Nat.not_lt.2 horder
    rw [hstart, hstop]
    simp only [rejectIf, okOr, ok_bind, h₁, h₂, h₃, h₄, horder, ne_eq, not_true_eq_false, if_false,
      Option.isSome_none, Bool.false_eq_true]
    rfl

section Ranking

variable {profile : MemoryProfile} {context : MemorySelectionContext}
  {lineage : OrdMap MessageId Nat} {scores : OrdMap MemoryRecordId UInt32}

/-- The eligibility test decides eligibility. -/
theorem eligibleRange_iff (hlineage : normalizedLineage context.visibleMessageIds = .ok lineage)
    {record : MemoryRecord} :
    (∃ range, eligibleRange record context lineage = .ok range) ↔ Eligible context record := by
  obtain ⟨-, hget, -⟩ := normalizedLineage_eq_ok hlineage
  constructor
  · rintro ⟨range, h⟩
    rw [eligibleRange_eq_ok, hget, hget] at h
    obtain ⟨h₁, h₂, h₃, h₄, hstart, hstop, horder⟩ := h
    exact ⟨h₁, h₂, h₃, h₄, range.1, range.2, horder, hstart, hstop⟩
  · rintro ⟨h₁, h₂, h₃, h₄, first, last, horder, hstart, hstop⟩
    refine ⟨(first, last), ?_⟩
    rw [eligibleRange_eq_ok, hget, hget]
    exact ⟨h₁, h₂, h₃, h₄, hstart, hstop, horder⟩

/-! ## Ranking arithmetic -/

theorem weightToMillionths_eq_ok {weight : F32} {millionths : Nat}
    (h : weightToMillionths weight = .ok millionths) : millionths ≤ 1000000 * 1000000 := by
  unfold weightToMillionths at h
  obtain ⟨hrange, h⟩ := seq_eq_ok.1 h
  cases h
  simp only [rejectIf_eq_ok, Bool.or_eq_true, Bool.not_eq_true', not_or, Bool.not_eq_false] at hrange
  exact Ieee.toMillionths_le hrange.2

theorem weightToMillionths_eq_error {weight : F32} {error : MemorySelectionError}
    (hfinite : weight.isFinite = true) (h : weightToMillionths weight = .error error) :
    weight.inRange 1000000 = false := by
  unfold weightToMillionths at h
  rcases bind_eq_error.1 h with h | ⟨⟨⟩, -, h⟩
  · rw [rejectIf_eq_error] at h
    simpa [hfinite] using h.1
  · cases h

/-- One component: it fails only for a weight above the bound. -/
theorem rankStep_spec {total : Nat} {component : UInt32} {weight : F32} (hitem : component.toNat ≤ 1000000)
    (htotal : total ≤ 2 * 1000000000000) (hfinite : weight.isFinite = true) :
    (∃ next, rankStep total (component, weight) = .ok next ∧ next ≤ total + 1000000000000) ∨
      (weight.inRange 1000000 = false ∧ rankStep total (component, weight) = .error .rankingScoreOverflow) := by
  unfold rankStep
  cases hweight : weightToMillionths weight with
  | error error =>
    right
    refine ⟨weightToMillionths_eq_error hfinite hweight, ?_⟩
    unfold weightToMillionths at hweight
    rcases bind_eq_error.1 hweight with h | ⟨⟨⟩, -, h⟩
    · rw [rejectIf_eq_error] at h
      rw [error_bind, h.2]
    · cases h
  | ok millionths =>
    left
    have hle := weightToMillionths_eq_ok hweight
    have hproduct : component.toNat * millionths ≤ 1000000 * (1000000 * 1000000) :=
      Nat.mul_le_mul hitem hle
    have hmul : checkedMul component.toNat millionths = some (component.toNat * millionths) := by
      rw [checkedMul_eq_some]
      unfold usizeMax
      omega
    have hdiv : component.toNat * millionths / 1000000 ≤ 1000000000000 := by omega
    have hadd : checkedAdd total (component.toNat * millionths / 1000000) =
        some (total + component.toNat * millionths / 1000000) := by
      rw [checkedAdd_eq_some]
      unfold usizeMax
      omega
    refine ⟨total + component.toNat * millionths / 1000000, ?_, by omega⟩
    rw [ok_bind, hmul, okOr, ok_bind, hadd, okOr]

/-- **The rank** of components up to one million fails only for a weight above the bound. -/
theorem weightedRank_eq_error {recency similarity importance : UInt32}
    {error : MemorySelectionError} (hrecency : recency.toNat ≤ 1000000)
    (hsimilarity : similarity.toNat ≤ 1000000) (himportance : importance.toNat ≤ 1000000)
    (hfinite : ∀ weight ∈ profile.weights, weight.isFinite = true)
    (h : weightedRank recency similarity importance profile = .error error) :
    error = .rankingScoreOverflow ∧ ∃ weight ∈ profile.weights, weight.inRange 1000000 = false := by
  simp only [MemoryProfile.weights, List.mem_cons, List.not_mem_nil, or_false, forall_eq_or_imp,
    forall_eq] at hfinite
  obtain ⟨hfirst, hsecond, hthird⟩ := hfinite
  unfold weightedRank at h
  simp only [List.foldlM_cons, List.foldlM_nil] at h
  rcases rankStep_spec hrecency (Nat.zero_le _) hfirst with ⟨one, hone, hle₁⟩ | ⟨hout, hone⟩
  · rw [hone, ok_bind] at h
    rcases rankStep_spec hsimilarity (by omega : one ≤ _) hsecond with ⟨two, htwo, hle₂⟩ | ⟨hout, htwo⟩
    · rw [htwo, ok_bind] at h
      rcases rankStep_spec himportance (by omega : two ≤ _) hthird with ⟨three, hthree, -⟩ | ⟨hout, hthree⟩
      · rw [hthree] at h
        cases h
      · rw [hthree] at h
        cases h
        exact ⟨rfl, _, by simp [MemoryProfile.weights], hout⟩
    · rw [htwo] at h
      cases h
      exact ⟨rfl, _, by simp [MemoryProfile.weights], hout⟩
  · rw [hone] at h
    cases h
    exact ⟨rfl, _, by simp [MemoryProfile.weights], hout⟩

theorem normalizedRecency_le {endIndex lineageLen : Nat} (h : endIndex < lineageLen) :
    (normalizedRecency endIndex lineageLen).toNat ≤ 1000000 := by
  unfold normalizedRecency
  split
  · decide
  · have hle : endIndex * 1000000 / (lineageLen - 1) ≤ 1000000 := by
      apply Nat.div_le_of_le_mul
      exact Nat.mul_le_mul (by omega) (Nat.le_refl _)
    have hfits : u32TryFrom (endIndex * 1000000 / (lineageLen - 1)) =
        some (UInt32.ofNat (endIndex * 1000000 / (lineageLen - 1))) := by
      unfold u32TryFrom u32Max
      rw [if_pos (by omega)]
    rw [hfits, Option.getD_some, toNat_ofNat_le (by unfold u32Max; omega)]
    exact hle

/-- Normalized scores are at most one million. -/
theorem normalizeMemoryScores_le {records : List MemoryRecord} {supplied : List MemorySemanticScore}
    (h : normalizeMemoryScores records supplied = .ok scores) (id : MemoryRecordId) (score : UInt32)
    (hscore : scores.get? id = some score) : score.toNat ≤ 1000000 := by
  have hall : ∀ id score, scores.get? id = some score → score.toNat ≤ 1000000 := by
    refine foldlM_ok_inv (I := fun _ scores => ∀ id score, OrdMap.get? scores id = some score →
      score.toNat ≤ 1000000) h (by simp) ?_
    intro done item rest s s' _ hs hstep id score hget
    unfold memoryScoreStep at hstep
    split at hstep
    · cases hstep
      exact hs id score hget
    · obtain ⟨hvalid, hstep⟩ := seq_eq_ok.1 hstep
      obtain ⟨-, hstep⟩ := seq_eq_ok.1 hstep
      cases hstep
      rw [OrdMap.get?_insert] at hget
      split at hget
      · cases hget
        simp only [rejectIf_eq_ok, invalidUnit, Bool.or_eq_true, Bool.not_eq_true', not_or,
          Bool.not_eq_false] at hvalid
        have hle : item.score.toMillionths ≤ 1 * 1000000 := Ieee.toMillionths_le hvalid.2
        unfold scoreToMillionths
        rw [toNat_ofNat_le (by unfold u32Max; omega)]
        omega
      · exact hs id score hget
  exact hall id score hscore

/-! ## The ranking loop -/

/-- The ranking of an eligible record. -/
def RankedBy (profile : MemoryProfile) (context : MemorySelectionContext)
    (lineage : OrdMap MessageId Nat) (scores : OrdMap MemoryRecordId UInt32)
    (candidate : RankedMemory) : Prop :=
  ∃ range, eligibleRange candidate.record context lineage = .ok range ∧
    rankRecord profile context lineage scores candidate.record range.2 = .ok candidate

/-- The evidence of a record after the ranking loop. -/
def rankedEvidence (context : MemorySelectionContext) (lineage : OrdMap MessageId Nat)
    (record : MemoryRecord) : MemorySelectionEvidence :=
  match eligibleRange record context lineage with
  | .error why => { recordEvidence context.tokenEstimates record with exclusionReason := some why }
  | .ok _ => recordEvidence context.tokenEstimates record

/-- The ranking loop after the records `done`. -/
structure Ranked (profile : MemoryProfile) (context : MemorySelectionContext)
    (lineage : OrdMap MessageId Nat) (scores : OrdMap MemoryRecordId UInt32)
    (records done : List MemoryRecord) (state : MemoryEvidenceMap × List RankedMemory) : Prop where
  candidates : state.2.map (·.record) =
    done.filter fun record => (eligibleRange record context lineage).isOk
  ranks : ∀ candidate ∈ state.2, RankedBy profile context lineage scores candidate
  evidence : ∀ id, state.1.get? id = (records.find? fun record => record.id = id).map fun record =>
    if id ∈ done.map (·.id) then rankedEvidence context lineage record
    else recordEvidence context.tokenEstimates record

theorem rankRecord_eq_ok {record : MemoryRecord} {endIndex : Nat} {candidate : RankedMemory}
    (h : rankRecord profile context lineage scores record endIndex = .ok candidate) :
    candidate.record = record ∧ candidate.pinned = record.isPinned ∧
      candidate.estimatedTokens = memoryTokens record context.tokenEstimates := by
  obtain ⟨-, h⟩ := seq_eq_ok.1 h
  obtain ⟨rank, -, h⟩ := bind_eq_ok.1 h
  cases h
  exact ⟨rfl, rfl, rfl⟩

theorem rankRecordStep_ranked {records done rest : List MemoryRecord} {record : MemoryRecord}
    {state state' : MemoryEvidenceMap × List RankedMemory} (hnd : (records.map (·.id)).Nodup)
    (hsplit : records = done ++ record :: rest)
    (h : Ranked profile context lineage scores records done state)
    (hstep : rankRecordStep profile context lineage scores state record = .ok state') :
    Ranked profile context lineage scores records (done ++ [record]) state' := by
  have hnew : record.id ∉ done.map (·.id) := by
    intro hmem
    rw [hsplit, List.map_append, List.map_cons, List.nodup_append] at hnd
    exact hnd.2.2 record.id hmem record.id List.mem_cons_self rfl
  have hfind := find?_key hnd (by rw [hsplit]; simp : record ∈ records)
  have hmem : ∀ id, record.id ≠ id →
      (id ∈ (done ++ [record]).map (·.id) ↔ id ∈ done.map (·.id)) := by
    intro id hne
    simp [Ne.symm hne]
  obtain ⟨-, hstep⟩ := seq_eq_ok.1 hstep
  cases hrange : eligibleRange record context lineage with
  | error why =>
    rw [hrange] at hstep
    cases hstep
    refine ⟨?_, h.ranks, fun id => ?_⟩
    · rw [h.candidates, List.filter_append]
      simp [hrange, Except.isOk, Except.toBool]
    · rw [OrdMap.get?_modify, h.evidence id]
      by_cases hid : record.id = id
      · subst hid
        simp only [if_true, hfind, Option.map_some, if_neg hnew]
        simp [rankedEvidence, hrange]
      · simp only [if_neg hid, hmem id hid]
  | ok range =>
    rw [hrange] at hstep
    obtain ⟨candidate, hrank, hstep⟩ := bind_eq_ok.1 hstep
    cases hstep
    have hrecord := (rankRecord_eq_ok hrank).1
    refine ⟨?_, ?_, fun id => ?_⟩
    · rw [List.map_append, h.candidates, List.filter_append]
      simp [hrange, hrecord, Except.isOk, Except.toBool]
    · intro item hitem
      rcases List.mem_append.1 hitem with hitem | hitem
      · exact h.ranks item hitem
      · rw [List.mem_singleton.1 hitem]
        refine ⟨range, ?_, ?_⟩
        · rw [hrecord]
          exact hrange
        · rw [hrecord]
          exact hrank
    · show state.1.get? id = _
      rw [h.evidence id]
      by_cases hid : record.id = id
      · subst hid
        simp only [hfind, Option.map_some, if_neg hnew]
        simp [rankedEvidence, hrange]
      · simp only [hmem id hid]

/-- **How the ranking loop fails**: never for want of evidence, and for a rank that overflows only
with a weight above the bound. -/
theorem rankRecordStep_eq_error {records done rest : List MemoryRecord} {record : MemoryRecord}
    {state : MemoryEvidenceMap × List RankedMemory} {error : MemorySelectionError}
    (hlineage : normalizedLineage context.visibleMessageIds = .ok lineage)
    (hscores : ∀ id score, scores.get? id = some score → score.toNat ≤ 1000000)
    (hfinite : ∀ weight ∈ profile.weights, weight.isFinite = true)
    (hnd : (records.map (·.id)).Nodup) (hsplit : records = done ++ record :: rest)
    (h : Ranked profile context lineage scores records done state)
    (hstep : rankRecordStep profile context lineage scores state record = .error error) :
    error ≠ .internalInvariant ∧ (error = .rankingScoreOverflow →
      ∃ weight ∈ profile.weights, weight.inRange 1000000 = false) := by
  have hfind := find?_key hnd (by rw [hsplit]; simp : record ∈ records)
  have hcontains : state.1.contains record.id = true := by
    rw [OrdMap.contains, h.evidence, hfind]
    rfl
  unfold rankRecordStep at hstep
  rw [hcontains, rejectIf, if_neg (by simp), ok_bind] at hstep
  cases hrange : eligibleRange record context lineage with
  | error why =>
    rw [hrange] at hstep
    cases hstep
  | ok range =>
    rw [hrange] at hstep
    rcases bind_eq_error.1 hstep with hrank | ⟨_, -, hstep⟩
    · rcases bind_eq_error.1 hrank with himportance | ⟨⟨⟩, himportance, hrank⟩
      · rw [rejectIf_eq_error] at himportance
        rw [← himportance.2]
        exact ⟨by simp, by simp⟩
      · rcases bind_eq_error.1 hrank with hrank | ⟨_, -, hrank⟩
        · obtain ⟨-, hget, hlength⟩ := normalizedLineage_eq_ok hlineage
          have hlast : range.2 < lineage.entries.length := by
            rw [hlength]
            have hend := (eligibleRange_eq_ok.1 hrange).2.2.2.2.2.1
            rw [hget] at hend
            exact (List.getElem?_eq_some_iff.1 hend).1
          have hhundred : record.importance.toNat ≤ 100 := by
            rw [rejectIf_eq_ok] at himportance
            exact UInt8.le_iff_toNat_le.1 (UInt8.not_lt.1 himportance)
          have hsimilarity : ((scores.get? record.id).getD 0).toNat ≤ 1000000 := by
            cases hscore : scores.get? record.id with
            | none => decide
            | some score => exact hscores record.id score hscore
          obtain ⟨rfl, hweight⟩ := weightedRank_eq_error (normalizedRecency_le hlast) hsimilarity
            (by rw [toNat_ofNat_le (by unfold u32Max; omega)]; omega) hfinite hrank
          exact ⟨by simp, fun _ => hweight⟩
        · cases hrank
    · cases hstep

end Ranking

/-! ## Lanes -/

/-- The tokens of the selected records in the lanes `lanes`. -/
def tokensIn (lanes : MemorySelectionLane → Bool) (selected : List SelectedMemoryRecord) : Nat :=
  ((selected.filter fun item => lanes item.lane).map (·.estimatedTokens.toNat)).sum

/-- The lanes that share the episodic budget. -/
def isEpisodic : MemorySelectionLane → Bool
  | .pinned | .episodic => true
  | .semantic => false

/-- The lane of the semantic budget. -/
def isSemantic (lane : MemorySelectionLane) : Bool := !isEpisodic lane

/-- The number of selected records that count against the retrieval limit. -/
def unpinnedCount (selected : List SelectedMemoryRecord) : Nat :=
  selected.countP fun item => item.lane ≠ .pinned

/-- A candidate has no room after `selected`: the count limit is reached, or no lane that it may use
fits it. -/
def Blocked (profile : MemoryProfile) (selected : List SelectedMemoryRecord)
    (candidate : RankedMemory) : Prop :=
  (candidate.pinned = false ∧ profile.retrievalCount.toNat ≤ unpinnedCount selected) ∨
    (profile.episodicBudget.maxTokens.toNat <
        tokensIn isEpisodic selected + candidate.estimatedTokens.toNat ∧
      (candidate.pinned = false → candidate.similarityMillionths.isSome →
        profile.semanticBudget.maxTokens.toNat <
          tokensIn isSemantic selected + candidate.estimatedTokens.toNat))

theorem tokensIn_append (lanes : MemorySelectionLane → Bool) (selected : List SelectedMemoryRecord)
    (item : SelectedMemoryRecord) : tokensIn lanes (selected ++ [item]) =
      tokensIn lanes selected + if lanes item.lane then item.estimatedTokens.toNat else 0 := by
  unfold tokensIn
  rw [List.filter_append, List.map_append, List.sum_append]
  cases h : lanes item.lane with
  | true => simp [h]
  | false => simp [h]

theorem fitsBudget_eq_true {used cost budget : UInt32} :
    fitsBudget used cost budget = true ↔ used.toNat + cost.toNat ≤ budget.toNat := by
  unfold fitsBudget checkedAddTokens
  cases h : u32TryFrom (used.toNat + cost.toNat) with
  | some next =>
    rw [← u32TryFrom_eq_some.1 h]
    simp [UInt32.le_iff_toNat_le]
  | none =>
    have hlt : u32Max < used.toNat + cost.toNat := by
      by_contra hle
      unfold u32TryFrom at h
      rw [if_pos (Nat.le_of_not_lt hle)] at h
      cases h
    have := toNat_le_u32Max budget
    simp
    omega

section Lanes

variable {profile : MemoryProfile} {candidate : RankedMemory} {episodic semantic : UInt32}

/-- A chosen lane fits, and is the pinned one exactly for pinned candidates. -/
theorem chooseLane_eq_some {lane : MemorySelectionLane}
    (h : chooseLane candidate profile episodic semantic = some lane) :
    (lane = .pinned ↔ candidate.pinned = true) ∧
      (isEpisodic lane = true → episodic.toNat + candidate.estimatedTokens.toNat ≤
        profile.episodicBudget.maxTokens.toNat) ∧
        (isEpisodic lane = false → semantic.toNat + candidate.estimatedTokens.toNat ≤
          profile.semanticBudget.maxTokens.toNat) := by
  unfold chooseLane at h
  cases hpinned : candidate.pinned with
  | true =>
    rw [if_pos hpinned] at h
    split at h
    · cases h
      rename_i hfits
      exact ⟨by simp, fun _ => fitsBudget_eq_true.1 hfits, by simp [isEpisodic]⟩
    · cases h
  | false =>
    rw [if_neg (by simp [hpinned])] at h
    split at h
    · cases h
      rename_i hfits
      rw [Bool.and_eq_true] at hfits
      exact ⟨by simp, by simp [isEpisodic], fun _ => fitsBudget_eq_true.1 hfits.2⟩
    · split at h
      · cases h
        rename_i hfits
        exact ⟨by simp, fun _ => fitsBudget_eq_true.1 hfits, by simp [isEpisodic]⟩
      · cases h

/-- No lane fits. -/
theorem chooseLane_eq_none (h : chooseLane candidate profile episodic semantic = none) :
    profile.episodicBudget.maxTokens.toNat < episodic.toNat + candidate.estimatedTokens.toNat ∧
      (candidate.pinned = false → candidate.similarityMillionths.isSome →
        profile.semanticBudget.maxTokens.toNat <
          semantic.toNat + candidate.estimatedTokens.toNat) := by
  unfold chooseLane at h
  cases hpinned : candidate.pinned with
  | true =>
    rw [if_pos hpinned] at h
    split at h
    · cases h
    · rename_i hfits
      rw [fitsBudget_eq_true] at hfits
      exact ⟨Nat.lt_of_not_le hfits, by simp⟩
  | false =>
    rw [if_neg (by simp [hpinned])] at h
    split at h
    · cases h
    · split at h
      · cases h
      · rename_i hsemantic hepisodic
        rw [fitsBudget_eq_true] at hepisodic
        refine ⟨Nat.lt_of_not_le hepisodic, fun _ hsome => ?_⟩
        rw [hsome, Bool.true_and, fitsBudget_eq_true] at hsemantic
        exact Nat.lt_of_not_le hsemantic

/-- The tokens of a lane that fits. -/
theorem laneTokens_spec {state : Retrieval} {lane : MemorySelectionLane}
    (h : chooseLane candidate profile state.usedEpisodicTokens state.usedSemanticTokens = some lane) :
    ∃ used, laneTokens state candidate lane = .ok used ∧
      used.1.toNat = state.usedEpisodicTokens.toNat +
        (if isEpisodic lane then candidate.estimatedTokens.toNat else 0) ∧
      used.2.toNat = state.usedSemanticTokens.toNat +
        (if isSemantic lane then candidate.estimatedTokens.toNat else 0) := by
  obtain ⟨-, hepisodic, hsemantic⟩ := chooseLane_eq_some h
  have hadd : ∀ {used budget : UInt32}, used.toNat + candidate.estimatedTokens.toNat ≤ budget.toNat →
      ∃ next, checkedAddTokens used candidate.estimatedTokens = some next ∧
        next.toNat = used.toNat + candidate.estimatedTokens.toNat := by
    intro used budget hle
    have hmax := toNat_le_u32Max budget
    refine ⟨UInt32.ofNat (used.toNat + candidate.estimatedTokens.toNat), ?_, ?_⟩
    · exact u32TryFrom_eq_some.2 (toNat_ofNat_le (by omega))
    · exact toNat_ofNat_le (by omega)
  cases lane with
  | pinned =>
    obtain ⟨next, hnext, hsum⟩ := hadd (hepisodic rfl)
    exact ⟨(next, _), by simp only [laneTokens, hnext]; rfl, hsum, rfl⟩
  | episodic =>
    obtain ⟨next, hnext, hsum⟩ := hadd (hepisodic rfl)
    exact ⟨(next, _), by simp only [laneTokens, hnext]; rfl, hsum, rfl⟩
  | semantic =>
    obtain ⟨next, hnext, hsum⟩ := hadd (hsemantic rfl)
    exact ⟨(_, next), by simp only [laneTokens, hnext]; rfl, rfl, hsum⟩

end Lanes

/-! ## The selection loop -/

/-- The selected records among the candidates `before`. -/
def selectedFrom (before : List RankedMemory) (selected : List SelectedMemoryRecord) :
    List SelectedMemoryRecord :=
  selected.filter fun item => item.recordId ∈ before.map (·.record.id)

/-- The evidence of a selected record. -/
def selectedEvidence (item : SelectedMemoryRecord) (evidence : MemorySelectionEvidence) :
    MemorySelectionEvidence :=
  { evidence with
    selected := true
    lane := some item.lane
    rankMillionths := some item.rankMillionths
    reasons := item.reasons
    exclusionReason := none }

/-- The evidence of a candidate left out for the reason `why`. -/
def leftOutEvidence (candidate : RankedMemory) (why : String) (evidence : MemorySelectionEvidence) :
    MemorySelectionEvidence :=
  { evidence with
    rankMillionths := some candidate.rankMillionths
    reasons := rankingReasons candidate
    exclusionReason := some why }

/-- The selection loop after the candidates `done`; `base` is the evidence it starts from. -/
structure Retrieved (profile : MemoryProfile) (base : MemoryEvidenceMap) (done : List RankedMemory)
    (state : Retrieval) : Prop where
  chosen : ∃ chosen : List (RankedMemory × MemorySelectionLane), (chosen.map (·.1)).Sublist done ∧
    (∀ item ∈ chosen, item.2 = .pinned ↔ item.1.pinned = true) ∧
      state.selected = chosen.map fun item => selectedMemory item.1 item.2
  episodic : state.usedEpisodicTokens.toNat = tokensIn isEpisodic state.selected
  semantic : state.usedSemanticTokens.toNat = tokensIn isSemantic state.selected
  episodic_le : state.usedEpisodicTokens.toNat ≤ profile.episodicBudget.maxTokens.toNat
  semantic_le : state.usedSemanticTokens.toNat ≤ profile.semanticBudget.maxTokens.toNat
  ordinary : state.ordinarySelected.toNat = unpinnedCount state.selected
  ordinary_le : state.ordinarySelected.toNat ≤ profile.retrievalCount.toNat
  untouched : ∀ id, id ∉ done.map (·.record.id) → state.evidence.get? id = base.get? id
  selected : ∀ item ∈ state.selected,
    state.evidence.get? item.recordId = (base.get? item.recordId).map (selectedEvidence item)
  excluded : ∀ candidate ∈ done, candidate.record.id ∉ state.selected.map (·.recordId) →
    ∃ why, (why = countLimitReason ∨ why = memoryBudgetReason) ∧
      state.evidence.get? candidate.record.id =
        (base.get? candidate.record.id).map (leftOutEvidence candidate why)
  blocked : ∀ before candidate after, done = before ++ candidate :: after →
    candidate.record.id ∉ state.selected.map (·.recordId) →
      Blocked profile (selectedFrom before state.selected) candidate

section Retrieved

variable {profile : MemoryProfile} {base : MemoryEvidenceMap} {done : List RankedMemory}
  {state : Retrieval} {candidate : RankedMemory}

/-- Only candidates are selected. -/
theorem Retrieved.selected_subset (h : Retrieved profile base done state) {id : MemoryRecordId}
    (hid : id ∈ state.selected.map (·.recordId)) : id ∈ done.map (·.record.id) := by
  obtain ⟨chosen, hsub, -, hselected⟩ := h.chosen
  rw [hselected, List.map_map] at hid
  obtain ⟨item, hitem, rfl⟩ := List.mem_map.1 hid
  exact List.mem_map_of_mem (hsub.subset (List.mem_map_of_mem hitem))

/-- What is selected is selected from the candidates so far. -/
theorem Retrieved.selectedFrom_done (h : Retrieved profile base done state) :
    selectedFrom done state.selected = state.selected := by
  refine List.filter_eq_self.2 fun item hitem => ?_
  simpa using h.selected_subset (List.mem_map_of_mem hitem)

/-- Where a candidate of the loop stands: it is the last one, or was there before. -/
theorem split_append_singleton {before after : List RankedMemory} {item : RankedMemory}
    (h : done ++ [candidate] = before ++ item :: after) :
    (before = done ∧ item = candidate ∧ after = []) ∨
      ∃ after', after = after' ++ [candidate] ∧ done = before ++ item :: after' := by
  rcases List.eq_nil_or_concat after with rfl | ⟨after', last, rfl⟩
  · obtain ⟨h₁, h₂⟩ := List.append_inj' h rfl
    cases h₂
    exact .inl ⟨h₁.symm, rfl, rfl⟩
  · right
    rw [List.concat_eq_append, ← List.cons_append, ← List.append_assoc] at h
    obtain ⟨h₁, h₂⟩ := List.append_inj' h rfl
    cases h₂
    exact ⟨after', by simp, h₁⟩

/-- A candidate left out. -/
theorem Retrieved.exclude (h : Retrieved profile base done state)
    (hnew : candidate.record.id ∉ done.map (·.record.id))
    (hblocked : Blocked profile state.selected candidate) {why : String}
    (hwhy : why = countLimitReason ∨ why = memoryBudgetReason) :
    Retrieved profile base (done ++ [candidate]) { state with
      evidence := state.report candidate fun item => { item with exclusionReason := some why } } := by
  have hout : candidate.record.id ∉ state.selected.map (·.recordId) :=
    fun hid => hnew (h.selected_subset hid)
  have hreport : ∀ id, candidate.record.id ≠ id → (state.report candidate fun item =>
      { item with exclusionReason := some why }).get? id = state.evidence.get? id := by
    intro id hne
    rw [Retrieval.report, OrdMap.get?_modify, if_neg hne]
  obtain ⟨chosen, hsub, hlanes, hselected⟩ := h.chosen
  refine ⟨⟨chosen, hsub.trans (List.sublist_append_left _ _), hlanes, hselected⟩, h.episodic,
    h.semantic, h.episodic_le, h.semantic_le, h.ordinary, h.ordinary_le, ?_, ?_, ?_, ?_⟩
  · intro id hid
    rw [List.map_append, List.mem_append, not_or] at hid
    rw [hreport id (by simpa [eq_comm] using hid.2)]
    exact h.untouched id hid.1
  · intro item hitem
    rw [hreport _ fun he => hout (he ▸ List.mem_map_of_mem hitem)]
    exact h.selected item hitem
  · intro item hitem hnot
    rcases List.mem_append.1 hitem with hitem | hitem
    · obtain ⟨reason, hwhy, hreason⟩ := h.excluded item hitem hnot
      refine ⟨reason, hwhy, ?_⟩
      rw [hreport _ fun he => hnew (he ▸ List.mem_map_of_mem hitem)]
      exact hreason
    · rw [List.mem_singleton.1 hitem]
      refine ⟨why, hwhy, ?_⟩
      show (state.evidence.modify _ _).get? _ = _
      rw [OrdMap.get?_modify, if_pos rfl, h.untouched _ hnew]
      rfl
  · intro before item after hsplit hnot
    rcases split_append_singleton hsplit with ⟨rfl, rfl, -⟩ | ⟨after', -, hdone⟩
    · show Blocked profile (selectedFrom before state.selected) item
      rw [h.selectedFrom_done]
      exact hblocked
    · exact h.blocked before item after' hdone hnot

/-- A candidate put into a lane. -/
theorem Retrieved.select (h : Retrieved profile base done state)
    (hnew : candidate.record.id ∉ done.map (·.record.id)) {lane : MemorySelectionLane}
    {used : UInt32 × UInt32}
    (hcount : candidate.pinned = false → state.ordinarySelected < profile.retrievalCount)
    (hlane : chooseLane candidate profile state.usedEpisodicTokens state.usedSemanticTokens =
      some lane)
    (hepisodic : used.1.toNat = state.usedEpisodicTokens.toNat +
      if isEpisodic lane then candidate.estimatedTokens.toNat else 0)
    (hsemantic : used.2.toNat = state.usedSemanticTokens.toNat +
      if isSemantic lane then candidate.estimatedTokens.toNat else 0) :
    Retrieved profile base (done ++ [candidate])
      { selected := state.selected ++ [selectedMemory candidate lane]
        usedEpisodicTokens := used.1
        usedSemanticTokens := used.2
        ordinarySelected :=
          if candidate.pinned then state.ordinarySelected else satAdd state.ordinarySelected 1
        evidence := state.report candidate fun item =>
          { item with selected := true, lane := some lane, exclusionReason := none } } := by
  obtain ⟨hpinned, hfitsEpisodic, hfitsSemantic⟩ := chooseLane_eq_some hlane
  have hout : candidate.record.id ∉ state.selected.map (·.recordId) :=
    fun hid => hnew (h.selected_subset hid)
  have hreport : ∀ id, candidate.record.id ≠ id → (state.report candidate fun item =>
      { item with selected := true, lane := some lane, exclusionReason := none }).get? id =
        state.evidence.get? id := by
    intro id hne
    rw [Retrieval.report, OrdMap.get?_modify, if_neg hne]
  have hids : (state.selected ++ [selectedMemory candidate lane]).map (·.recordId) =
      state.selected.map (·.recordId) ++ [candidate.record.id] := by
    rw [List.map_append]
    rfl
  have hordinary : (if candidate.pinned then state.ordinarySelected else
      satAdd state.ordinarySelected 1).toNat =
        state.ordinarySelected.toNat + if candidate.pinned then 0 else 1 := by
    cases hp : candidate.pinned with
    | true => rfl
    | false =>
      have hlt := UInt32.lt_iff_toNat_lt.1 (hcount hp)
      have hmax := toNat_le_u32Max profile.retrievalCount
      simp only [Bool.false_eq_true, if_false, toNat_satAdd]
      show min (state.ordinarySelected.toNat + 1) u32Max = _
      omega
  obtain ⟨chosen, hsub, hlanes, hselected⟩ := h.chosen
  refine ⟨⟨chosen ++ [(candidate, lane)], ?_, ?_, ?_⟩, ?_, ?_, ?_, ?_, ?_, ?_, ?_, ?_, ?_, ?_⟩
  · rw [List.map_append]
    exact hsub.append (List.Sublist.refl _)
  · intro item hitem
    rcases List.mem_append.1 hitem with hitem | hitem
    · exact hlanes item hitem
    · rw [List.mem_singleton.1 hitem]
      exact hpinned
  · rw [List.map_append, ← hselected]
    rfl
  · rw [tokensIn_append, ← h.episodic]
    exact hepisodic
  · rw [tokensIn_append, ← h.semantic]
    exact hsemantic
  · show used.1.toNat ≤ _
    rw [hepisodic]
    cases hkind : isEpisodic lane with
    | true => simpa using hfitsEpisodic hkind
    | false => simpa using h.episodic_le
  · show used.2.toNat ≤ _
    rw [hsemantic]
    cases hkind : isEpisodic lane with
    | true => simpa [isSemantic, hkind] using h.semantic_le
    | false => simpa [isSemantic, hkind] using hfitsSemantic hkind
  · show (ite _ _ _ : UInt32).toNat = unpinnedCount (_ ++ [_])
    rw [hordinary, h.ordinary, unpinnedCount, unpinnedCount, List.countP_append]
    cases hp : candidate.pinned with
    | true =>
      have : lane = .pinned := hpinned.2 hp
      simp [selectedMemory, this]
    | false =>
      have : lane ≠ .pinned := fun he => by simp [hp] at hpinned; exact hpinned he
      simp [selectedMemory, this]
  · show (ite _ _ _ : UInt32).toNat ≤ _
    rw [hordinary]
    cases hp : candidate.pinned with
    | true => simpa using h.ordinary_le
    | false =>
      have := UInt32.lt_iff_toNat_lt.1 (hcount hp)
      simp
      omega
  · intro id hid
    rw [List.map_append, List.mem_append, not_or] at hid
    rw [hreport id (by simpa [eq_comm] using hid.2)]
    exact h.untouched id hid.1
  · intro item hitem
    rcases List.mem_append.1 hitem with hitem | hitem
    · rw [hreport _ fun he => hout (he ▸ List.mem_map_of_mem hitem)]
      exact h.selected item hitem
    · rw [List.mem_singleton.1 hitem]
      show (state.evidence.modify _ _).get? candidate.record.id =
        (base.get? candidate.record.id).map _
      rw [OrdMap.get?_modify, if_pos rfl, h.untouched _ hnew]
      rfl
  · intro item hitem hnot
    rw [hids, List.mem_append, not_or] at hnot
    rcases List.mem_append.1 hitem with hitem | hitem
    · obtain ⟨reason, hwhy, hreason⟩ := h.excluded item hitem hnot.1
      refine ⟨reason, hwhy, ?_⟩
      rw [hreport _ fun he => hnew (he ▸ List.mem_map_of_mem hitem)]
      exact hreason
    · exact absurd (by rw [List.mem_singleton.1 hitem]; simp) hnot.2
  · intro before item after hsplit hnot
    rw [hids, List.mem_append, not_or] at hnot
    rcases split_append_singleton hsplit with ⟨-, rfl, -⟩ | ⟨after', -, hdone⟩
    · exact absurd (by simp) hnot.2
    · have hfrom : selectedFrom before (state.selected ++ [selectedMemory candidate lane]) =
          selectedFrom before state.selected := by
        unfold selectedFrom
        rw [List.filter_append]
        have hbefore : candidate.record.id ∉ before.map (·.record.id) := by
          intro hmem
          refine hnew ?_
          rw [hdone, List.map_append]
          exact List.mem_append_left _ hmem
        simpa [selectedMemory] using hbefore
      show Blocked profile (selectedFrom before (state.selected ++ _)) item
      rw [hfrom]
      exact h.blocked before item after' hdone hnot.1

/-- **One candidate**: with evidence for it, the loop goes on. -/
theorem retrieveStep_retrieved (h : Retrieved profile base done state)
    (hnew : candidate.record.id ∉ done.map (·.record.id))
    (hbase : base.contains candidate.record.id = true) :
    ∃ state', retrieveStep profile state candidate = .ok state' ∧
      Retrieved profile base (done ++ [candidate]) state' := by
  have hcontains : state.evidence.contains candidate.record.id = true := by
    rw [OrdMap.contains, h.untouched _ hnew]
    exact hbase
  unfold retrieveStep
  rw [hcontains, rejectIf, if_neg (by simp), ok_bind]
  by_cases hlimit : (!candidate.pinned && state.ordinarySelected ≥ profile.retrievalCount) = true
  · rw [if_pos hlimit]
    simp only [Bool.and_eq_true, Bool.not_eq_true', decide_eq_true_eq] at hlimit
    refine ⟨_, rfl, h.exclude hnew (.inl ⟨hlimit.1, ?_⟩) (.inl rfl)⟩
    rw [← h.ordinary]
    exact UInt32.le_iff_toNat_le.1 hlimit.2
  · rw [if_neg hlimit]
    cases hlane : chooseLane candidate profile state.usedEpisodicTokens state.usedSemanticTokens with
    | none =>
      refine ⟨_, rfl, h.exclude hnew (.inr ?_) (.inr rfl)⟩
      rw [← h.episodic, ← h.semantic]
      exact chooseLane_eq_none hlane
    | some lane =>
      obtain ⟨used, hused, hepisodic, hsemantic⟩ := laneTokens_spec hlane
      refine ⟨_, by simp only [hused, ok_bind]; rfl, h.select hnew ?_ hlane hepisodic hsemantic⟩
      intro hp
      simp only [hp, Bool.not_false, Bool.true_and, decide_eq_true_eq, ge_iff_le,
        UInt32.not_le] at hlimit
      exact hlimit

/-- **The selection loop** does not fail. -/
theorem retrieve_retrieved {order : List RankedMemory} (hnd : (order.map (·.record.id)).Nodup)
    (hbase : ∀ candidate ∈ order, base.contains candidate.record.id = true) :
    ∃ final, order.foldlM (retrieveStep profile) ⟨[], 0, 0, 0, base⟩ = .ok final ∧
      Retrieved profile base order final := by
  have hinit : Retrieved profile base [] ⟨[], 0, 0, 0, base⟩ :=
    ⟨⟨[], List.Sublist.refl _, by simp, rfl⟩, rfl, rfl, Nat.zero_le _, Nat.zero_le _, rfl,
      Nat.zero_le _, fun _ _ => rfl, by simp, by simp, by simp⟩
  have hone : ∀ done candidate rest (state : Retrieval), order = done ++ candidate :: rest →
      Retrieved profile base done state → ∃ state', retrieveStep profile state candidate = .ok state' ∧
        Retrieved profile base (done ++ [candidate]) state' := by
    intro done candidate rest state hsplit hstate
    refine retrieveStep_retrieved hstate ?_ (hbase candidate (by rw [hsplit]; simp))
    intro hmem
    rw [hsplit, List.map_append, List.map_cons, List.nodup_append] at hnd
    exact hnd.2.2 _ hmem _ List.mem_cons_self rfl
  have hstep : ∀ done candidate rest (state state' : Retrieval),
      order = done ++ candidate :: rest → Retrieved profile base done state →
        retrieveStep profile state candidate = .ok state' →
          Retrieved profile base (done ++ [candidate]) state' := by
    intro done candidate rest state state' hsplit hstate hrun
    obtain ⟨next, hnext, hretrieved⟩ := hone done candidate rest state hsplit hstate
    rw [hrun] at hnext
    cases hnext
    exact hretrieved
  cases hrun : order.foldlM (retrieveStep profile) ⟨[], 0, 0, 0, base⟩ with
  | ok final => exact ⟨final, rfl, foldlM_ok_inv hrun hinit hstep⟩
  | error error =>
    obtain ⟨done, candidate, rest, state, hsplit, hstate, herror⟩ :=
      foldlM_error_inv hrun hinit hstep
    obtain ⟨next, hnext, -⟩ := hone done candidate rest state hsplit hstate
    rw [herror] at hnext
    cases hnext

end Retrieved

end LorePia
