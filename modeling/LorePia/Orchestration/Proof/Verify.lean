import LorePia.Orchestration.Reseal
import LorePia.Orchestration.Proof.BudgetMono
import LorePia.Orchestration.Proof.Evidence

/-!
# When a resolved plan verifies

`resolve` never calls the verifier its plans must satisfy. Section by section, the checks of
`ResolvedPromptPlan::validate` hold of every resolved plan but for three: a message's provenance,
which the request validator does not check on knowledge and memory, the number of reasons of a
memory record, and the token total, which is summed with wrapping where the verifier saturates.
`resolve_verify_iff` states that these three decide.
-/

namespace LorePia

open Base

variable {est : TokenEstimator} {lib : Externals} {request : PromptResolveRequest}

/-! ## Digests -/

theorem canonicalPlanHash_sha256Ok {plan : ResolvedPromptPlan} {hash : String}
    (h : canonicalPlanHash lib plan = .ok hash) : Sha256Ok hash := by
  simp only [canonicalPlanHash, bind_eq_ok] at h
  obtain ⟨bytes, -, h⟩ := h
  cases h
  exact sha256Ok_hexEncode _

/-- The hash does not cover itself. -/
theorem canonicalPlanHash_congr {plan plan' : ResolvedPromptPlan}
    (h : plan.material = plan'.material) : canonicalPlanHash lib plan = canonicalPlanHash lib plan' := by
  rw [canonicalPlanHash, canonicalPlanHash, h]

theorem verify_eq_ok {plan : ResolvedPromptPlan} :
    verifyResolvedPromptPlan lib plan = .ok () ↔
      plan.validate lib = .ok () ∧ canonicalPlanHash lib plan = .ok plan.planHash := by
  unfold verifyResolvedPromptPlan
  rw [seq_eq_ok, mapErr_eq_ok, bind_eq_ok]
  refine and_congr_right fun _ => ⟨?_, ?_⟩
  · rintro ⟨hash, hh, h⟩
    rw [rejectIf_eq_ok, not_not] at h
    rw [hh, h]
  · intro hh
    exact ⟨plan.planHash, hh, by rw [rejectIf_eq_ok]; simp⟩

/-! ## Final blocks -/

/-- What holds of every block that reaches emission. -/
structure FinalBlock (est : TokenEstimator) (lib : Externals) (request : PromptResolveRequest)
    (b : MaterializedBlock) : Prop where
  accepted : AcceptedBlock b.block
  nonempty : ∀ m ∈ b.messages, m.content ≠ ""
  memoryIds : ∀ m ∈ b.messages, ∀ id ∈ m.sourceMemoryRecordIds,
    id ∈ b.memoryEvidence.map (·.recordId)
  memoryEvidence : b.memoryEvidence = [] ∨ b.memoryEvidence =
    (stableSort memoryLe request.context.selectedMemory).map (memoryEvidenceOf est lib)
  length : b.messages.length ≤ maxHistoryMessages

theorem finalBlock_of_mem {blocks : List MaterializedBlock} (hreq : AcceptedRequest lib request)
    (h : resolveBlocks est lib request = .ok blocks) {b : MaterializedBlock} (hb : b ∈ blocks) :
    FinalBlock est lib request b := by
  obtain ⟨i, block, target, b₀, b₁, hblock, run⟩ := resolveBlocks_mem hreq h hb
  have hmat := materializeBlock_materialized hreq run.materialize
  have hframe := run.frame
  exact {
    accepted := by
      rw [run.sameBlock hreq]
      exact hreq.blocks block (List.mem_of_getElem? hblock)
    nonempty := run.forall_messages (fun m m' hm hs => hs.2 hm)
      (fun c s _ hs => hreq.summary s hs) hmat.nonempty
    memoryIds := by
      rw [hframe.memoryEvidence]
      refine run.forall_messages ?_ ?_ ?_
      · rintro m _ hm ⟨⟨_, rfl⟩, -⟩
        exact hm
      · intro c s _ _ id hid
        cases hid
      · intro m hm id hid
        exact hmat.memoryIds.subset (List.mem_flatMap.2 ⟨m, hm, hid⟩)
    memoryEvidence := by rw [hframe.memoryEvidence]; exact hmat.memoryEvidence
    length := run.length_le.trans hmat.length }

/-! ## Block traces -/

/-- The messages of a block are its drafts. -/
theorem emissionOrder_filter_id {blocks : List MaterializedBlock}
    (hnd : (blocks.map (·.block.id)).Nodup) {b : MaterializedBlock} (hb : b ∈ blocks) :
    (emissionOrder blocks).filter (fun item => item.1.id = b.block.id) =
      b.messages.map fun draft => (b.block, draft) := by
  induction blocks with
  | nil => cases hb
  | cons c blocks ih =>
    rw [List.map_cons, List.nodup_cons] at hnd
    have hcons : emissionOrder (c :: blocks) =
        (c.messages.map fun draft => (c.block, draft)) ++ emissionOrder blocks := rfl
    rw [hcons, List.filter_append]
    rcases List.mem_cons.1 hb with rfl | hb
    · have hrest : (emissionOrder blocks).filter (fun item => item.1.id = b.block.id) = [] := by
        rw [List.filter_eq_nil_iff]
        rintro item hitem hid
        obtain ⟨d, hd, hblock, -⟩ := mem_emissionOrder.1 hitem
        rw [decide_eq_true_eq, ← hblock] at hid
        exact hnd.1 (List.mem_map.2 ⟨d, hd, hid⟩)
      rw [hrest, List.append_nil, List.filter_eq_self]
      intro item hitem
      obtain ⟨_, -, rfl⟩ := List.mem_map.1 hitem
      simp
    · have hne : c.block.id ≠ b.block.id := fun he => hnd.1 (List.mem_map.2 ⟨b, hb, he.symm⟩)
      rw [ih hnd.2 hb, List.filter_eq_nil_iff.2, List.nil_append]
      intro item hitem
      obtain ⟨_, -, rfl⟩ := List.mem_map.1 hitem
      simp [hne]

theorem forall₂_emitted_tokens {provider : ProviderPromptContract}
    {items : List (PromptBlock × DraftMessage)} {messages : List ResolvedPromptMessage}
    (h : List.Forall₂ (fun item message => ∃ j, Emitted est provider j item message)
      items messages) :
    messageTokens messages = draftTokens est (items.map (·.2)) := by
  induction h with
  | nil => rfl
  | cons hem _ ih =>
    obtain ⟨_, hem⟩ := hem
    simp only [messageTokens, draftTokens, List.map_cons, hem.tokens] at ih ⊢
    rw [ih]

/-- The effective messages of a block, counted and summed, are its drafts. -/
theorem messagesOfBlock_emitted {provider : ProviderPromptContract}
    {blocks : List MaterializedBlock} {emitted : List (RoleMappingTrace × ResolvedPromptMessage)}
    (h : mapIdx (emitMessage est provider) (emissionOrder blocks) = .ok emitted)
    (hnd : (blocks.map (·.block.id)).Nodup) {b : MaterializedBlock} (hb : b ∈ blocks) :
    messageTokens (messagesOfBlock (emitted.map (·.2)) b.block.id) = draftTokens est b.messages ∧
      (messagesOfBlock (emitted.map (·.2)) b.block.id).length = b.messages.length := by
  have hrel : List.Forall₂ (fun item message => ∃ j, Emitted est provider j item message)
      (b.messages.map fun draft => (b.block, draft))
      (messagesOfBlock (emitted.map (·.2)) b.block.id) := by
    rw [← emissionOrder_filter_id hnd hb]
    refine List.rel_filter (fun {item message} ⟨j, hem⟩ => ?_) (emitted_forall₂ h)
    simp only [hem.blockId]
  refine ⟨?_, ?_⟩
  · rw [forall₂_emitted_tokens hrel, List.map_map]
    simp [Function.comp_def]
  · rw [← hrel.length_eq, List.length_map]

/-- A traced item of memory evidence: as materialized when its record is selected, else excluded. -/
theorem excludeUnselected_cases (est : TokenEstimator) (lib : Externals)
    (ids : List MemoryRecordId) (record : SelectedMemory) :
    (excludeUnselected ids (memoryEvidenceOf est lib record) = memoryEvidenceOf est lib record ∧
        record.recordId ∈ ids) ∨
      (excludeUnselected ids (memoryEvidenceOf est lib record) =
          { memoryEvidenceOf est lib record with
            selected := false, lane := none, exclusionReason := some removedByBudget } ∧
        record.recordId ∉ ids) := by
  unfold excludeUnselected
  by_cases hid : record.recordId ∈ ids
  · exact .inl ⟨if_pos (by simpa [memoryEvidenceOf] using hid), hid⟩
  · exact .inr ⟨if_neg (by simpa [memoryEvidenceOf] using hid), hid⟩

theorem excludeUnselected_recordId (ids : List MemoryRecordId)
    (evidence : PromptMemorySelectionEvidence) :
    (excludeUnselected ids evidence).recordId = evidence.recordId := by
  unfold excludeUnselected
  split <;> rfl

theorem excludeUnselected_reasons (ids : List MemoryRecordId)
    (evidence : PromptMemorySelectionEvidence) :
    (excludeUnselected ids evidence).reasons = evidence.reasons := by
  unfold excludeUnselected
  split <;> rfl

theorem removedByBudget_textOk : TextOk removedByBudget 1 1024 := by
  unfold TextOk
  decide

/-- An item of a trace's memory evidence passes exactly when it has at most sixteen reasons. -/
theorem validateMemoryEvidence_traced (ids : List MemoryRecordId) (record : SelectedMemory)
    (path : String) :
    validateMemoryEvidence (excludeUnselected ids (memoryEvidenceOf est lib record)) path = .ok () ↔
      (memoryEvidenceOf est lib record).reasons.length ≤ 16 := by
  have hreasons := excludeUnselected_reasons ids (memoryEvidenceOf est lib record)
  simp only [validateMemoryEvidence, seq_eq_ok, rejectIf_eq_ok, forSome_eq_ok, validateText_eq_ok,
    hreasons, gt_iff_lt, not_lt]
  refine ⟨fun h => h.2.1, fun h => ⟨?_, h, ?_⟩⟩
  · rcases excludeUnselected_cases est lib ids record with ⟨he, -⟩ | ⟨he, -⟩ <;>
      rw [he] <;> simp [memoryEvidenceOf]
  · intro reason hr
    rcases excludeUnselected_cases est lib ids record with ⟨he, -⟩ | ⟨he, -⟩ <;>
      rw [he] at hr
    · cases hr
    · cases hr
      exact removedByBudget_textOk

/-- The traced evidence of a block has the records of its evidence, each once. -/
theorem FinalBlock.tracedIds {b : MaterializedBlock} (hreq : AcceptedRequest lib request)
    (h : FinalBlock est lib request b) :
    (b.trace est).memoryEvidence.map (·.recordId) = b.memoryEvidence.map (·.recordId) ∧
      (b.memoryEvidence.map (·.recordId)).Nodup ∧ b.memoryEvidence.length ≤ maxMemoryRecords := by
  refine ⟨?_, ?_, ?_⟩
  · simp only [MaterializedBlock.trace, List.map_map]
    exact List.map_congr_left fun e _ => excludeUnselected_recordId _ e
  · rcases h.memoryEvidence with he | he <;> rw [he]
    · exact List.nodup_nil
    · rw [List.map_map]
      exact ((stableSort_perm memoryLe _).map (·.recordId)).nodup_iff.2 hreq.uniqueMemory
  · rcases h.memoryEvidence with he | he <;> rw [he]
    · exact Nat.zero_le _
    · rw [List.length_map, length_stableSort]
      exact hreq.memoryCount

/-- A block's evidence comes from memory records. -/
theorem FinalBlock.record_of_mem {b : MaterializedBlock} (h : FinalBlock est lib request b)
    {e : PromptMemorySelectionEvidence} (he : e ∈ b.memoryEvidence) :
    ∃ record, e = memoryEvidenceOf est lib record := by
  rcases h.memoryEvidence with hm | hm <;> rw [hm] at he
  · cases he
  · obtain ⟨record, -, rfl⟩ := List.mem_map.1 he
    exact ⟨record, rfl⟩

/-- The memory ids of a trace are those of its selected evidence. -/
theorem FinalBlock.memoryRecordIds {b : MaterializedBlock} (hreq : AcceptedRequest lib request)
    (h : FinalBlock est lib request b) :
    (b.trace est).memoryRecordIds.Perm (selectedMemoryIds (b.trace est).memoryEvidence) := by
  obtain ⟨hids, hnd, -⟩ := h.tracedIds hreq
  have hsel : (selectedMemoryIds (b.trace est).memoryEvidence).Nodup := by
    refine List.Nodup.sublist (List.filter_sublist.map _) ?_
    rw [hids]
    exact hnd
  refine (List.perm_ext_iff_of_nodup (sortedSet_nodup _) hsel).2 fun id => ?_
  show id ∈ sortedSet (b.messages.flatMap (·.sourceMemoryRecordIds)) ↔ _
  simp only [selectedMemoryIds, MaterializedBlock.trace, List.mem_map, List.mem_filter]
  constructor
  · intro hid
    obtain ⟨m, hm, hmem⟩ := List.mem_flatMap.1 (mem_sortedSet.1 hid)
    obtain ⟨e, he, rfl⟩ := List.mem_map.1 (h.memoryIds m hm id hmem)
    obtain ⟨record, rfl⟩ := h.record_of_mem he
    refine ⟨_, ⟨⟨_, he, rfl⟩, ?_⟩, excludeUnselected_recordId _ _⟩
    rw [excludeUnselected, if_pos (by simpa using hid)]
    rfl
  · rintro ⟨_, ⟨⟨e, he, rfl⟩, hselected⟩, rfl⟩
    obtain ⟨record, rfl⟩ := h.record_of_mem he
    rcases excludeUnselected_cases est lib
      (sortedSet (b.messages.flatMap (·.sourceMemoryRecordIds))) record with ⟨-, hid⟩ | ⟨hx, -⟩
    · rw [excludeUnselected_recordId]
      exact hid
    · rw [hx] at hselected
      cases hselected

/-- **A block trace passes exactly when its memory evidence has at most sixteen reasons an item.** -/
theorem validateBlockTrace_iff {provider : ProviderPromptContract} {blocks : List MaterializedBlock}
    {emitted : List (RoleMappingTrace × ResolvedPromptMessage)} (hreq : AcceptedRequest lib request)
    (hemit : mapIdx (emitMessage est provider) (emissionOrder blocks) = .ok emitted)
    (hnd : (blocks.map (·.block.id)).Nodup) {b : MaterializedBlock} (hb : b ∈ blocks)
    (h : FinalBlock est lib request b) (index : Nat) :
    validateBlockTrace (emitted.map (·.2)) index (b.trace est) = .ok () ↔
      ∀ e ∈ b.memoryEvidence, e.reasons.length ≤ 16 := by
  obtain ⟨htokens, hcount⟩ := messagesOfBlock_emitted hemit hnd hb
  obtain ⟨hids, hidnd, hlen⟩ := h.tracedIds hreq
  simp only [validateBlockTrace, seq_eq_ok, forIdx_eq_ok]
  have hsource : ∀ path, validateTraceSource (b.trace est).source path = .ok () := by
    obtain ⟨hid, hhash, -⟩ := h.accepted.provenance
    intro path
    refine validateTraceSource_eq_ok.2 ⟨hid, ?_, hhash⟩
    intro revision hrevision
    cases hrevision
  have hcounts : ¬ ((b.trace est).finalEstimatedTokens ≠ satSum (messageTokens
        (messagesOfBlock (emitted.map (·.2)) (b.trace est).blockId)) ∨
      (b.trace est).producedMessageCount.toNat ≠
        (messagesOfBlock (emitted.map (·.2)) (b.trace est).blockId).length) := by
    have hle := h.length
    show ¬ (b.estimatedTokensWith est ≠ satSum (messageTokens
        (messagesOfBlock (emitted.map (·.2)) b.block.id)) ∨
      (u32FromSat b.messages.length).toNat ≠
        (messagesOfBlock (emitted.map (·.2)) b.block.id).length)
    rw [htokens, hcount, toNat_u32FromSat, not_or, not_not, not_not]
    unfold maxHistoryMessages at hle
    unfold u32Max
    exact ⟨rfl, by omega⟩
  have hsize : (b.trace est).memoryEvidence.length ≤ maxMemoryRecords := by
    simpa [MaterializedBlock.trace] using hlen
  constructor
  · rintro ⟨-, -, -, hitems, -⟩ e he
    obtain ⟨record, rfl⟩ := h.record_of_mem he
    obtain ⟨j, hj⟩ := List.mem_iff_getElem?.1 he
    have hj' : (b.trace est).memoryEvidence[j]? = some (excludeUnselected
        (b.trace est).memoryRecordIds (memoryEvidenceOf est lib record)) := by
      simp only [MaterializedBlock.trace, List.getElem?_map, hj, Option.map_some]
    exact (validateMemoryEvidence_traced _ record _).1 (hitems j _ hj')
  · intro hreasons
    refine ⟨hsource _, rejectIf_eq_ok.2 hcounts, rejectIf_eq_ok.2 (Nat.not_lt.2 hsize), ?_, ?_, ?_⟩
    · intro j e hj
      simp only [MaterializedBlock.trace, List.getElem?_map, Option.map_eq_some_iff] at hj
      obtain ⟨e₀, he₀, rfl⟩ := hj
      have hmem := List.mem_of_getElem? he₀
      obtain ⟨record, rfl⟩ := h.record_of_mem hmem
      exact (validateMemoryEvidence_traced _ record _).2 (hreasons _ hmem)
    · rw [rejectIf_eq_ok, Bool.not_eq_true, hasDuplicate_eq_false, hids]
      exact hidnd
    · rw [rejectIf_eq_ok, not_not]
      exact insertionSort_eq_of_perm (h.memoryRecordIds hreq)

/-! ## Messages, totals and cache directives -/

/-- **An effective message passes exactly when its provenance does.** -/
theorem validateEffectiveMessage_iff {provider : ProviderPromptContract}
    {blocks : List MaterializedBlock} {j : Nat} {item : PromptBlock × DraftMessage}
    {message : ResolvedPromptMessage} (hitem : item ∈ emissionOrder blocks)
    (hne : item.2.content ≠ "") (hem : Emitted est provider j item message) :
    validateEffectiveMessage (blocks.map (·.trace est)) j message = .ok () ↔
      ProvenanceOk item.2.provenance := by
  have htokens : message.estimatedTokens ≠ 0 := by
    intro h0
    have h4 := four_le_estimateMessage est item.2.content
    rw [← hem.tokens, h0] at h4
    exact absurd h4 (by decide)
  have hfirst : ¬ (message.sequence.toNat ≠ j ∨ message.content.isEmpty = true ∨
      message.estimatedTokens = 0) := by
    rw [hem.content]
    simp [hem.sequence, hne, htokens]
  have hblock : (blocks.map (·.trace est)).any (fun trace => trace.blockId = message.blockId) =
      true := by
    obtain ⟨b, hb, hblock, -⟩ := mem_emissionOrder.1 hitem
    rw [List.any_eq_true]
    exact ⟨b.trace est, List.mem_map.2 ⟨b, hb, rfl⟩, by
      rw [decide_eq_true_eq, hem.blockId, ← hblock]; rfl⟩
  simp only [validateEffectiveMessage, seq_eq_ok, rejectIf_eq_ok, validateProvenance_eq_ok]
  rw [hem.provenance]
  exact ⟨fun h => h.2.1, fun h => ⟨hfirst, h, not_not.2 hblock⟩⟩

/-- Every cache sequence is the sequence of a message. -/
theorem cacheLoop_sequence {provider : ProviderPromptContract}
    {messages : List ResolvedPromptMessage} : ∀ {boundaries : List CacheBoundary} {n : UInt32}
      {directive : ResolvedCacheDirective}, directive ∈ (cacheLoop provider messages n boundaries).1 →
        ∀ sequence, directive.afterMessageSequence = some sequence →
          ∃ message ∈ messages, message.sequence = sequence
  | [], _, _, h => by cases h
  | boundary :: rest, n, directive, h => by
    simp only [cacheLoop, List.mem_cons] at h
    rcases h with rfl | h
    · intro sequence hs
      obtain ⟨message, hm, rfl⟩ := Option.map_eq_some_iff.1 hs
      exact ⟨message, List.mem_reverse.1 (List.mem_of_find?_eq_some hm), rfl⟩
    · exact cacheLoop_sequence h

/-- The wrapping sum is the saturating one and fits the budget exactly when the exact sum fits, or
when both end at `u32::MAX`. -/
theorem totals_iff (tokens : List UInt32) (available : UInt32) :
    (satSum tokens = wrapSum tokens ∧ satSum tokens ≤ available) ↔
      (exactSum tokens ≤ available.toNat ∨
        (available.toNat = u32Max ∧ exactSum tokens % 2 ^ 32 = u32Max)) := by
  have hle := toNat_le_u32Max available
  rw [← UInt32.toNat_inj, UInt32.le_iff_toNat_le, toNat_satSum, toNat_wrapSum]
  unfold u32Max at *
  omega

/-- A plan's messages have the tokens of the drafts. -/
theorem messageTokens_emitted {provider : ProviderPromptContract} {blocks : List MaterializedBlock}
    {emitted : List (RoleMappingTrace × ResolvedPromptMessage)}
    (h : mapIdx (emitMessage est provider) (emissionOrder blocks) = .ok emitted) :
    messageTokens (emitted.map (·.2)) = draftTokens est (blocks.flatMap (·.messages)) := by
  rw [forall₂_emitted_tokens (emitted_forall₂ h)]
  congr 1
  simp only [emissionOrder, List.map_flatMap, List.map_map, Function.comp_def, List.map_id']

/-- A snapshot accepted against its context is accepted alone. -/
theorem validatePromptContextSnapshot_none {snapshot : PromptContextSnapshotV1}
    {context : Option PromptResolutionContext}
    (h : validatePromptContextSnapshot lib snapshot context = .ok ()) :
    validatePromptContextSnapshot lib snapshot none = .ok () := by
  simp only [validatePromptContextSnapshot, seq_eq_ok] at h ⊢
  obtain ⟨hheader, hbinding, hpersona, hrest⟩ := h
  rw [bind_eq_ok] at hrest
  obtain ⟨ids, hids, hrest⟩ := hrest
  rw [seq_eq_ok] at hrest
  refine ⟨hheader, hbinding, hpersona, bind_eq_ok.2 ⟨ids, hids, ?_⟩⟩
  exact seq_eq_ok.2 ⟨hrest.1, rejectIf_eq_ok.2 (by simp)⟩

/-! ## Verification -/

/-- The drafts that reach emission carry provenances the verifier accepts, their blocks' memory
evidence has at most sixteen reasons an item, and their exact token sum fits the budget (or wraps
around to exactly `u32::MAX` when that is the budget). -/
structure Verifiable (est : TokenEstimator) (blocks : List MaterializedBlock)
    (available : UInt32) : Prop where
  provenance : ∀ b ∈ blocks, ∀ draft ∈ b.messages,
    validateProvenance draft.provenance "provenance" = .ok ()
  reasons : ∀ b ∈ blocks, ∀ e ∈ b.memoryEvidence, e.reasons.length ≤ 16
  total : exactSum (draftTokens est (blocks.flatMap (·.messages))) ≤ available.toNat ∨
    (available.toNat = u32Max ∧
      exactSum (draftTokens est (blocks.flatMap (·.messages))) % 2 ^ 32 = u32Max)

theorem validatePlanTotals_iff {plan : ResolvedPromptPlan} {blocks : List MaterializedBlock}
    {emitted : List (RoleMappingTrace × ResolvedPromptMessage)} {hash : String}
    (hemit : mapIdx (emitMessage est request.provider) (emissionOrder blocks) = .ok emitted)
    (hplan : plan = { draftPlan est request blocks emitted with planHash := hash })
    (hlatest : plan.effectiveMessages.countP isEffectiveLatestUser = 1) :
    validatePlanTotals plan = .ok () ↔
      (satSum (messageTokens plan.effectiveMessages) = wrapSum (messageTokens plan.effectiveMessages) ∧
        satSum (messageTokens plan.effectiveMessages) ≤ request.availableTokens) := by
  have hcache : ¬ (plan.cacheDirectives.any fun directive => directive.afterMessageSequence.any
      fun sequence => sequence.toNat ≥ plan.effectiveMessages.length) = true := by
    rw [Bool.not_eq_true, List.any_eq_false]
    intro directive hd hany
    obtain ⟨sequence, hseq, hge⟩ := (Option.any_eq_true _ _).1 hany
    rw [hplan] at hd
    obtain ⟨message, hm, rfl⟩ := cacheLoop_sequence hd sequence hseq
    obtain ⟨j, hj⟩ := List.mem_iff_getElem?.1 hm
    have hlt := (List.getElem?_eq_some_iff.1 hj).1
    obtain ⟨hlen, hall⟩ := emitted_get hemit
    have hem := hall j _ message (List.getElem?_eq_getElem (hlen ▸ hlt)) hj
    rw [decide_eq_true_eq, hem.sequence, hplan] at hge
    exact absurd hlt (Nat.not_lt.2 hge)
  simp only [validatePlanTotals, seq_eq_ok, rejectIf_eq_ok]
  constructor
  · rintro ⟨htotals, -⟩
    simp only [not_or, not_not, gt_iff_lt, UInt32.not_lt] at htotals
    subst hplan
    exact ⟨htotals.1, htotals.2.2.1⟩
  · rintro ⟨hsum, hfit⟩
    refine ⟨?_, not_not.2 hlatest, ?_, hcache⟩
    · subst hplan
      simp only [not_or, not_not, gt_iff_lt, UInt32.not_lt]
      exact ⟨hsum, hsum, hfit, rfl⟩
    · subst hplan
      exact fun hne => hne rfl

theorem resolve_latest_countP {plan : ResolvedPromptPlan}
    (h : resolve est lib request = .ok plan) :
    plan.effectiveMessages.countP isEffectiveLatestUser = 1 := by
  obtain ⟨-, -, -, message, -, hfilter, -, hrole⟩ := resolve_latest_emitted h
  have hsplit : plan.effectiveMessages.countP isEffectiveLatestUser =
      (plan.effectiveMessages.filter fun m => m.blockKind = .latestUserTurn).countP
        (fun m => m.effectiveRole = .user) := by
    rw [List.countP_filter]
    congr 1
    funext m
    exact Bool.and_comm _ _
  rw [hsplit, hfilter]
  simp [hrole]

/-- The verifier accepts a resolved plan exactly when its drafts are verifiable. -/
theorem verify_iff_verifiable {plan : ResolvedPromptPlan} {blocks : List MaterializedBlock}
    (h : resolve est lib request = .ok plan) (hblocks : resolveBlocks est lib request = .ok blocks) :
    verifyResolvedPromptPlan lib plan = .ok () ↔
      Verifiable est blocks request.availableTokens := by
  have hcount := resolve_latest_countP h
  obtain ⟨hvalid, final, hfinal, hseal⟩ := resolve_eq_ok.1 h
  rw [hblocks, Except.ok.injEq] at hfinal
  subst hfinal
  have hreq := validate_accepted hvalid
  obtain ⟨emitted, hash, hemit, -, hhash, hplan⟩ := sealPlan_eq_ok.1 hseal
  have hids : (blocks.map (·.block.id)).Nodup := by
    have := hreq.uniqueBlocks
    rw [← resolveBlocks_map_block hreq hblocks, List.map_map] at this
    exact this
  have hfinals : ∀ b ∈ blocks, FinalBlock est lib request b :=
    fun b hb => finalBlock_of_mem hreq hblocks hb
  have htotals := validatePlanTotals_iff hemit hplan hcount
  rw [totals_iff, show plan.effectiveMessages = emitted.map (·.2) by rw [hplan]; rfl,
    messageTokens_emitted hemit] at htotals
  obtain ⟨hlen, hall⟩ := emitted_get hemit
  rw [verify_eq_ok]
  subst hplan
  constructor
  · rintro ⟨hplan, -⟩
    simp only [ResolvedPromptPlan.validate, seq_eq_ok, forIdx_eq_ok] at hplan
    obtain ⟨-, -, -, -, -, htraces, -, hmessages, hplanTotals⟩ := hplan
    refine ⟨fun b hb draft hd => ?_, fun b hb => ?_, htotals.1 hplanTotals⟩
    · have hitem : (b.block, draft) ∈ emissionOrder blocks := mem_emissionOrder.2 ⟨b, hb, rfl, hd⟩
      obtain ⟨j, hj⟩ := List.mem_iff_getElem?.1 hitem
      have hlt : j < (emitted.map (·.2)).length := hlen ▸ (List.getElem?_eq_some_iff.1 hj).1
      have hem := hall j _ _ hj (List.getElem?_eq_getElem hlt)
      have hok := hmessages j _ (List.getElem?_eq_getElem hlt)
      rw [validateProvenance_eq_ok]
      exact (validateEffectiveMessage_iff hitem ((hfinals b hb).nonempty draft hd) hem).1 hok
    · obtain ⟨j, hj⟩ := List.mem_iff_getElem?.1 hb
      have hj' : (blocks.map (·.trace est))[j]? = some (b.trace est) := by
        rw [List.getElem?_map, hj, Option.map_some]
      exact (validateBlockTrace_iff hreq hemit hids hb (hfinals b hb) j).1 (htraces j _ hj')
  · intro hver
    refine ⟨?_, (canonicalPlanHash_congr rfl).trans hhash⟩
    simp only [ResolvedPromptPlan.validate, seq_eq_ok, forIdx_eq_ok]
    refine ⟨rejectIf_eq_ok.2 (fun hne => hne rfl),
      validateSha256_eq_ok.2 (canonicalPlanHash_sha256Ok hhash), ?_,
      rejectIf_eq_ok.2 (by rintro (hne | hne) <;> exact hne rfl), ?_, ?_, ?_, ?_,
      htotals.2 hver.total⟩
    · rw [forSome_eq_ok]
      exact fun snapshot hs => validatePromptContextSnapshot_none (hreq.snapshot snapshot hs)
    · rw [rejectIf_eq_ok, gt_iff_lt, not_lt]
      have := hreq.blockCount
      rw [← resolveBlocks_length hreq hblocks] at this
      simpa [draftPlan] using this
    · intro j trace hj
      have hj' : (blocks.map (·.trace est))[j]? = some trace := hj
      rw [List.getElem?_map, Option.map_eq_some_iff] at hj'
      obtain ⟨b, hb, rfl⟩ := hj'
      have hmem := List.mem_of_getElem? hb
      exact (validateBlockTrace_iff hreq hemit hids hmem (hfinals b hmem) j).2 (hver.reasons b hmem)
    · rw [rejectIf_eq_ok, Bool.not_eq_true, hasDuplicate_eq_false]
      simpa [draftPlan, List.map_map, Function.comp_def, MaterializedBlock.trace] using hids
    · intro j message hj
      have hlt : j < (emissionOrder blocks).length := hlen ▸ (List.getElem?_eq_some_iff.1 hj).1
      have hitem := List.getElem_mem hlt
      have hem := hall j _ message (List.getElem?_eq_getElem hlt) hj
      obtain ⟨b, hb, -, hd⟩ := mem_emissionOrder.1 hitem
      refine (validateEffectiveMessage_iff hitem ((hfinals b hb).nonempty _ hd) hem).2 ?_
      exact validateProvenance_eq_ok.1 (hver.provenance b hb _ hd)

/-! ## Requests whose plans verify -/

/-- No reduction adds tokens. -/
theorem Reduced.draftSum_le (law : est.Lawful) {t : UInt32} {b b' : MaterializedBlock}
    (h : Reduced est request t b b') : draftSum est b'.messages ≤ draftSum est b.messages := by
  cases h with
  | unchanged => exact Nat.le_refl _
  | cut messages _ _ above heq =>
    have hle := cutMessages_le law heq
    rw [UInt32.lt_iff_toNat_lt, estimatedTokensWith_toNat] at above
    show draftSum est messages ≤ _
    omega
  | summarized summary _ _ _ _ _ shorter =>
    rw [UInt32.lt_iff_toNat_lt, estimatedTokensWith_toNat] at shorter
    simp only [draftSum_cons, draftSum_nil, summaryDraft]
    omega
  | popped k => exact draftSum_take_le _ _

/-- The loop's running total is the sum of the blocks. -/
theorem budgetLoop_total (law : est.Lawful) {a : UInt32} : ∀ {idxs : List Nat}
    {blocks final : List MaterializedBlock} {total s : UInt32}, total.toNat = blockSum est blocks →
      budgetLoop est request a idxs blocks total = .ok (final, s) → s.toNat = blockSum est final
  | [], _, _, _, _, hsum, h => by cases h; exact hsum
  | index :: rest, blocks, final, total, s, hsum, h => by
    unfold budgetLoop at h
    split at h
    · cases h
      exact hsum
    · split at h
      · exact budgetLoop_total law hsum h
      · rename_i b hb
        rw [bind_eq_ok] at h
        obtain ⟨⟨c, t⟩, hstep, h⟩ := h
        have hle : b.estimatedTokensWith est ≤ total := by
          rw [UInt32.le_iff_toNat_le, hsum]
          exact tokens_le_blockSum hb
        have htotal := (budgetStep_total law hle hstep).2
        have hset := blockSum_set est c hb
        exact budgetLoop_total law (by omega) h

theorem draftSum_flatMap_cons (b : MaterializedBlock) (blocks : List MaterializedBlock) :
    draftSum est ((b :: blocks).flatMap (·.messages)) =
      draftSum est b.messages + draftSum est (blocks.flatMap (·.messages)) := by
  rw [List.flatMap_cons, draftSum_append]

/-- While nothing saturates, the blocks sum to their drafts. -/
theorem blockSum_eq_draftSum : ∀ {blocks : List MaterializedBlock},
    draftSum est (blocks.flatMap (·.messages)) ≤ u32Max →
      blockSum est blocks = draftSum est (blocks.flatMap (·.messages))
  | [], _ => rfl
  | b :: blocks, h => by
    rw [draftSum_flatMap_cons] at h ⊢
    have hrest : draftSum est (blocks.flatMap (·.messages)) ≤ u32Max := by omega
    have ih := blockSum_eq_draftSum hrest
    have hb : (b.estimatedTokensWith est).toNat = _ := estimatedTokensWith_toNat b
    simp only [blockSum, List.map_cons, exactSum_cons] at ih ⊢
    omega

theorem forall₂_draftSum_le : ∀ {blocks final : List MaterializedBlock},
    List.Forall₂ (fun b b' => draftSum est b'.messages ≤ draftSum est b.messages) blocks final →
      draftSum est (final.flatMap (·.messages)) ≤ draftSum est (blocks.flatMap (·.messages))
  | _, _, .nil => Nat.le_refl _
  | _, _, .cons h hs => by
    have ih := forall₂_draftSum_le hs
    rw [draftSum_flatMap_cons, draftSum_flatMap_cons]
    omega

/-- **Blocks whose exact sum fits a `u32` leave the budget loop within the budget.** -/
theorem enforceGlobalBudget_draftSum_le (law : est.Lawful) {a : UInt32}
    {blocks final : List MaterializedBlock}
    (hsum : draftSum est (blocks.flatMap (·.messages)) ≤ u32Max)
    (h : enforceGlobalBudget est request blocks a = .ok final) :
    draftSum est (final.flatMap (·.messages)) ≤ a.toNat := by
  have hshrinks : List.Forall₂ (fun b b' : MaterializedBlock =>
      draftSum est b'.messages ≤ draftSum est b.messages) blocks final := by
    refine List.forall₂_iff_get.2 ⟨(enforceGlobalBudget_length h).symm, fun i hi hi' => ?_⟩
    obtain ⟨b', hb', hbud⟩ := enforceGlobalBudget_get h (List.getElem?_eq_getElem hi)
    rw [List.getElem?_eq_getElem hi', Option.some.injEq] at hb'
    subst hb'
    rcases hbud.stage with hb
    cases htarget : globalTarget est request blocks a i with
    | none =>
      rw [htarget] at hb
      rw [List.get_eq_getElem, List.get_eq_getElem, show final[i] = blocks[i] from hb]
    | some t =>
      rw [htarget] at hb
      obtain ⟨r, hr, hm, -⟩ := hb
      rw [List.get_eq_getElem, List.get_eq_getElem, hm]
      exact hr.draftSum_le law
  have hle := forall₂_draftSum_le hshrinks
  obtain ⟨s, hloop, hfit⟩ := enforceGlobalBudget_eq_ok.1 h
  have htotal : (totalTokens est blocks).toNat = blockSum est blocks :=
    toNat_satSum_of_le (by
      show blockSum est blocks ≤ u32Max
      rw [blockSum_eq_draftSum hsum]
      exact hsum)
  have hs := budgetLoop_total law htotal hloop
  rw [blockSum_eq_draftSum (hle.trans hsum)] at hs
  rw [UInt32.le_iff_toNat_le] at hfit
  omega

/-- A request the verifier has nothing to object to: the provenances of its knowledge and memory
are well formed, no memory record has more than sixteen reasons, and its blocks fit a `u32` before
the global budget is applied. -/
structure VerifiableRequest (est : TokenEstimator) (lib : Externals)
    (request : PromptResolveRequest) : Prop where
  knowledge : ∀ entry ∈ request.context.selectedKnowledge,
    validateProvenance entry.provenance "provenance" = .ok ()
  memory : ∀ record ∈ request.context.selectedMemory,
    validateProvenance record.provenance "provenance" = .ok ()
  reasons : ∀ record ∈ request.context.selectedMemory,
    (memoryEvidenceOf est lib record).reasons.length ≤ 16
  total : ∀ mats bounded, materializeBlocks est lib request = .ok mats →
    boundBlocks est request mats = .ok bounded →
      exactSum (draftTokens est (bounded.flatMap (·.messages))) ≤ u32Max

theorem VerifiableRequest.verifiable (law : est.Lawful) {blocks : List MaterializedBlock}
    (hreq : AcceptedRequest lib request) (hver : VerifiableRequest est lib request)
    (h : resolveBlocks est lib request = .ok blocks) :
    Verifiable est blocks request.availableTokens := by
  refine ⟨fun b hb => ?_, fun b hb e he => ?_, .inl ?_⟩
  · obtain ⟨i, block, target, b₀, b₁, hblock, run⟩ := resolveBlocks_mem hreq h hb
    have hmat := materializeBlock_materialized hreq run.materialize
    have hown : validateProvenance block.provenance "provenance" = .ok () :=
      validateProvenance_eq_ok.2 (hreq.blocks block (List.mem_of_getElem? hblock)).provenance
    refine run.forall_messages ?_ ?_ ?_
    · rintro m _ hm ⟨⟨_, rfl⟩, -⟩
      exact hm
    · intro c s hc _
      show validateProvenance c.block.provenance "provenance" = .ok ()
      rw [hc, hmat.sameBlock]
      exact hown
    · intro m hm
      rcases hmat.provenance m hm with hp | ⟨entry, hentry, hp⟩ | ⟨record, hrecord, hp⟩ <;> rw [hp]
      · exact hown
      · exact hver.knowledge entry hentry
      · exact hver.memory record hrecord
  · rcases (finalBlock_of_mem hreq h hb).memoryEvidence with hm | hm <;> rw [hm] at he
    · cases he
    · obtain ⟨record, hrecord, rfl⟩ := List.mem_map.1 he
      exact hver.reasons record (mem_stableSort.1 hrecord)
  · obtain ⟨mats, bounded, hm, hb, hg⟩ := resolveBlocks_eq_ok.1 h
    exact enforceGlobalBudget_draftSum_le law (hver.total mats bounded hm hb) hg

/-- **Verification of resolved plans.** The verifier accepts a resolved plan exactly when the drafts
that enter emission are verifiable, and it accepts every plan of a verifiable request. -/
theorem resolve_verify_iff (lib : Externals) (request : PromptResolveRequest)
    (plan : ResolvedPromptPlan) (blocks : List MaterializedBlock)
    (h : resolve utf8TokenEstimator lib request = .ok plan)
    (hblocks : resolveBlocks utf8TokenEstimator lib request = .ok blocks) :
    (verifyResolvedPromptPlan lib plan = .ok () ↔
        Verifiable utf8TokenEstimator blocks request.availableTokens) ∧
      (VerifiableRequest utf8TokenEstimator lib request →
        verifyResolvedPromptPlan lib plan = .ok ()) := by
  have hiff := verify_iff_verifiable h hblocks
  have hreq := validate_accepted (resolve_eq_ok.1 h).1
  exact ⟨hiff, fun hver => hiff.2 (hver.verifiable utf8TokenEstimator_lawful hreq hblocks)⟩

/-- The request that shows a user's entry resolves. -/
theorem loreRequest_resolve : ∃ plan blocks,
    resolve utf8TokenEstimator sampleExternals (loreRequest (plainProvenance .userCreated) 100) =
        .ok plan ∧
      resolveBlocks utf8TokenEstimator sampleExternals
          (loreRequest (plainProvenance .userCreated) 100) = .ok blocks ∧
        ∀ trace ∈ plan.trace.blocks, trace.blockKind ≠ .retrievedMemory := by
  have hvalid : (loreRequest (plainProvenance .userCreated) 100).validate sampleExternals = .ok () :=
    sampleRequest_validate _ (by decide) (by decide) rfl (by decide) (by decide)
  obtain ⟨plan, blocks, hblocks, hseal, hkinds⟩ : ∃ plan blocks,
      resolveBlocks utf8TokenEstimator sampleExternals
          (loreRequest (plainProvenance .userCreated) 100) = .ok blocks ∧
        sealPlan utf8TokenEstimator sampleExternals
            (loreRequest (plainProvenance .userCreated) 100) blocks = .ok plan ∧
          plan.trace.blocks.map (·.blockKind) = [.worldKnowledge, .latestUserTurn] :=
    ⟨_, _, rfl, rfl, rfl⟩
  refine ⟨plan, blocks, resolve_eq_ok.2 ⟨hvalid, blocks, hblocks, hseal⟩, hblocks, fun trace ht => ?_⟩
  have hmem : trace.blockKind ∈ plan.trace.blocks.map (·.blockKind) := List.mem_map.2 ⟨trace, ht, rfl⟩
  rw [hkinds] at hmem
  rintro hk
  rw [hk] at hmem
  exact absurd hmem (by decide)

theorem loreRequest_verifiable : VerifiableRequest utf8TokenEstimator sampleExternals
    (loreRequest (plainProvenance .userCreated) 100) := by
  refine ⟨?_, nofun, nofun, ?_⟩
  · intro entry hentry
    cases List.mem_singleton.1 hentry
    rfl
  · intro mats bounded hm hb
    cases hm
    cases hb
    decide

theorem resolve_verify_iff_loreRequest :
    ∃ plan, resolve utf8TokenEstimator sampleExternals
        (loreRequest (plainProvenance .userCreated) 100) = .ok plan ∧
      verifyResolvedPromptPlan sampleExternals plan = .ok () := by
  obtain ⟨plan, blocks, hplan, hblocks, -⟩ := loreRequest_resolve
  exact ⟨plan, hplan, (resolve_verify_iff sampleExternals
    (loreRequest (plainProvenance .userCreated) 100) plan blocks hplan hblocks).2
      loreRequest_verifiable⟩

/-- A knowledge entry whose source id is blank. -/
def blankSource : Provenance := { plainProvenance .userCreated with sourceId := some "" }

/-- The request with the blank source id resolves, and its plan does not verify. -/
theorem loreRequest_unverified :
    ¬ ∀ plan, resolve utf8TokenEstimator sampleExternals (loreRequest blankSource 100) = .ok plan →
      verifyResolvedPromptPlan sampleExternals plan = .ok () := by
  intro hall
  have hvalid : (loreRequest blankSource 100).validate sampleExternals = .ok () :=
    sampleRequest_validate _ (by decide) (by decide) rfl (by decide) (by decide)
  obtain ⟨plan, blocks, hblocks, hseal, b, draft, hb, hdraft, hprov⟩ : ∃ plan blocks,
      resolveBlocks utf8TokenEstimator sampleExternals (loreRequest blankSource 100) = .ok blocks ∧
        sealPlan utf8TokenEstimator sampleExternals (loreRequest blankSource 100) blocks =
            .ok plan ∧
          ∃ b draft, b ∈ blocks ∧ draft ∈ b.messages ∧ draft.provenance = blankSource :=
    ⟨_, _, rfl, rfl, _, _, List.mem_cons_self, List.mem_cons_self, rfl⟩
  have hplan := resolve_eq_ok.2 ⟨hvalid, blocks, hblocks, hseal⟩
  have hok := ((verify_iff_verifiable hplan hblocks).1 (hall plan hplan)).provenance b hb draft hdraft
  rw [hprov] at hok
  exact absurd hok (by decide)

end LorePia
