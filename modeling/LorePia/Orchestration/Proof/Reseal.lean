import LorePia.Orchestration.Proof.Verify

/-!
# What a reseal keeps

A reseal changes what it may and nothing else: the content reseal the contents and the fields
derived from them (`ContentResealed`), the evidence reseal the source revisions and the memory
evidence of the traces (`EvidenceResealed`). Every derived field is recomputed the way `resolve`
derived it, so that a plan resealed with its own contents comes back (`reseal_self`).
-/

namespace LorePia

open Base

variable {est : TokenEstimator} {lib : Externals}

/-! ## Inversion -/

theorem sealVerified_eq_ok {plan sealedPlan : ResolvedPromptPlan} :
    sealVerified lib plan = .ok sealedPlan ↔
      ∃ hash, canonicalPlanHash lib plan = .ok hash ∧ sealedPlan = { plan with planHash := hash } ∧
        verifyResolvedPromptPlan lib sealedPlan = .ok () := by
  unfold sealVerified
  rw [bind_eq_ok]
  refine exists_congr fun hash => and_congr_right fun _ => ?_
  rw [seq_eq_ok]
  constructor
  · rintro ⟨hv, h⟩
    cases h
    exact ⟨rfl, hv⟩
  · rintro ⟨rfl, hv⟩
    exact ⟨hv, rfl⟩

/-- Everything the content reseal checks. -/
theorem reseal_eq_ok {original plan : ResolvedPromptPlan} {contents : List String} :
    resealResolvedPromptPlanWithEstimator est lib original contents = .ok plan ↔
      verifyResolvedPromptPlan lib original = .ok () ∧ original.trace.estimatorId = est.id ∧
        contents.length = original.effectiveMessages.length ∧
          (∀ item ∈ original.effectiveMessages.zip contents,
            fixedContent item.1 = true → item.2 = item.1.content) ∧
            ∃ messages, mapIdx (fun _ item => resealMessage est item)
                (original.effectiveMessages.zip contents) = .ok messages ∧
              satSum (messageTokens (messages.filter fun m => m.blockKind = .latestUserTurn)) ≤
                  original.trace.availableInputTokens ∧
                satSum (messageTokens messages) ≤ original.trace.availableInputTokens ∧
                  sealVerified lib (resealedPlan original messages) = .ok plan := by
  have hfixed : ¬ ((original.effectiveMessages.zip contents).any fun item =>
      item.2 ≠ item.1.content && fixedContent item.1) = true ↔
        ∀ item ∈ original.effectiveMessages.zip contents,
          fixedContent item.1 = true → item.2 = item.1.content := by
    rw [Bool.not_eq_true, List.any_eq_false]
    refine forall₂_congr fun item _ => ?_
    rw [Bool.and_eq_true, decide_eq_true_eq, not_and, not_imp_comm, not_not]
  simp only [resealResolvedPromptPlanWithEstimator, seq_eq_ok, rejectIf_eq_ok, hfixed, not_not,
    gt_iff_lt]
  rw [bind_eq_ok]
  simp only [seq_eq_ok, rejectIf_eq_ok, UInt32.not_lt]

/-! ## Frames -/

/-- A message with another content. -/
structure SameMessage (old new : ResolvedPromptMessage) : Prop where
  sequence : new.sequence = old.sequence
  blockId : new.blockId = old.blockId
  blockKind : new.blockKind = old.blockKind
  requestedRole : new.requestedRole = old.requestedRole
  effectiveRole : new.effectiveRole = old.effectiveRole
  authority : new.authority = old.authority
  sourceMessageIds : new.sourceMessageIds = old.sourceMessageIds
  provenance : new.provenance = old.provenance
  fixed : old.authority = .application ∨ old.blockKind = .latestUserTurn →
    new.content = old.content

/-- What a content reseal keeps: everything but the contents, the token estimates and the hash. -/
structure ContentResealed (original plan : ResolvedPromptPlan) : Prop where
  messages : List.Forall₂ SameMessage original.effectiveMessages plan.effectiveMessages
  schemaVersion : plan.schemaVersion = original.schemaVersion
  presetId : plan.presetId = original.presetId
  generationPresetId : plan.generationPresetId = original.generationPresetId
  cacheDirectives : plan.cacheDirectives = original.cacheDirectives
  trace : plan.trace = { original.trace with
    blocks := plan.trace.blocks, estimatedInputTokens := plan.trace.estimatedInputTokens }
  blocks : List.Forall₂ (fun old new =>
    new = { old with finalEstimatedTokens := new.finalEstimatedTokens })
      original.trace.blocks plan.trace.blocks
  preview : plan.preview.cacheDirectives = original.preview.cacheDirectives ∧
    plan.preview.availableInputTokens = original.preview.availableInputTokens

/-- A trace with another source revision and other memory evidence. -/
def SameTrace (old new : BlockResolutionTrace) : Prop :=
  new = { old with
    source := { old.source with sourceRevision := new.source.sourceRevision }
    memoryEvidence := new.memoryEvidence }

/-- What an evidence reseal keeps: everything but the source revisions, the memory evidence and the
hash. -/
structure EvidenceResealed (original plan : ResolvedPromptPlan) : Prop where
  frame : plan = { original with trace := plan.trace, planHash := plan.planHash }
  trace : plan.trace = { original.trace with blocks := plan.trace.blocks }
  blocks : List.Forall₂ SameTrace original.trace.blocks plan.trace.blocks

theorem resealMessage_eq_ok {item : ResolvedPromptMessage × String}
    {message : ResolvedPromptMessage} :
    resealMessage est item = .ok message ↔ item.2 ≠ "" ∧
      message = { item.1 with content := item.2, estimatedTokens := est.estimateMessage item.2 } := by
  unfold resealMessage
  rw [seq_eq_ok, rejectIf_eq_ok, String.isEmpty_iff]
  refine and_congr_right fun _ => ⟨?_, ?_⟩
  · intro h
    cases h
    rfl
  · rintro rfl
    rfl

/-- What a verified plan says about its preview. -/
theorem preview_of_verify {plan : ResolvedPromptPlan}
    (h : verifyResolvedPromptPlan lib plan = .ok ()) :
    plan.preview = ⟨plan.effectiveMessages, plan.cacheDirectives,
      satSum (messageTokens plan.effectiveMessages), plan.trace.availableInputTokens⟩ := by
  obtain ⟨hvalid, -⟩ := verify_eq_ok.1 h
  simp only [ResolvedPromptPlan.validate, seq_eq_ok, rejectIf_eq_ok, validatePlanTotals, not_or,
    not_not] at hvalid
  obtain ⟨-, -, -, ⟨hmessages, hcache⟩, -, -, -, -, ⟨-, hestimated, -, havailable⟩, -⟩ := hvalid
  rw [show plan.preview = ⟨plan.preview.effectiveMessages, plan.preview.cacheDirectives,
    plan.preview.estimatedInputTokens, plan.preview.availableInputTokens⟩ from rfl,
    ← hmessages, ← hcache, ← hestimated, ← havailable]

/-- **The content reseal.** -/
theorem reseal_contentResealed {original plan : ResolvedPromptPlan} {contents : List String}
    (h : resealResolvedPromptPlanWithEstimator est lib original contents = .ok plan) :
    verifyResolvedPromptPlan lib plan = .ok () ∧
      plan.effectiveMessages.map (·.content) = contents ∧ ContentResealed original plan := by
  obtain ⟨hverify, -, hlen, hfixed, messages, hmessages, -, -, hseal⟩ := reseal_eq_ok.1 h
  obtain ⟨hash, -, rfl, hv⟩ := sealVerified_eq_ok.1 hseal
  obtain ⟨hmlen, hall⟩ := mapIdx_eq_ok.1 hmessages
  have hzip : (original.effectiveMessages.zip contents).length =
      original.effectiveMessages.length := by
    rw [List.length_zip, hlen, Nat.min_self]
  have hget : ∀ (i : Nat) (hi : i < original.effectiveMessages.length) (hi' : i < contents.length)
      (hm : i < messages.length), messages[i] = { original.effectiveMessages[i] with
        content := contents[i], estimatedTokens := est.estimateMessage contents[i] } := by
    intro i hi hi' hm
    have hz : (original.effectiveMessages.zip contents)[i]? =
        some (original.effectiveMessages[i], contents[i]) := by
      rw [List.getElem?_eq_getElem (by rw [hzip]; exact hi), List.getElem_zip]
    exact (resealMessage_eq_ok.1 (hall i _ _ hz (List.getElem?_eq_getElem hm))).2
  refine ⟨hv, ?_, ?_⟩
  · show messages.map (·.content) = contents
    refine List.ext_getElem (by rw [List.length_map, hmlen, hzip, hlen]) fun i h1 h2 => ?_
    rw [List.length_map] at h1
    rw [List.getElem_map, hget i (by omega) h2 h1]
  · refine ⟨?_, rfl, rfl, rfl, rfl, rfl, ?_, ?_⟩
    · show List.Forall₂ SameMessage original.effectiveMessages messages
      refine List.forall₂_iff_get.2 ⟨(hmlen.trans hzip).symm, fun i h1 h2 => ?_⟩
      have hc : i < contents.length := hlen ▸ h1
      rw [List.get_eq_getElem, List.get_eq_getElem, hget i h1 hc h2]
      refine ⟨rfl, rfl, rfl, rfl, rfl, rfl, rfl, rfl, fun hfix => ?_⟩
      refine hfixed (original.effectiveMessages[i], contents[i]) ?_ ?_
      · rw [List.mem_iff_getElem?]
        exact ⟨i, by rw [List.getElem?_eq_getElem (by rw [hzip]; exact h1), List.getElem_zip]⟩
      · simpa [fixedContent] using hfix
    · refine List.forall₂_iff_get.2 ⟨by simp [resealedPlan], fun i h1 h2 => ?_⟩
      simp [resealedPlan]
    · rw [preview_of_verify hverify]
      exact ⟨rfl, rfl⟩

/-! ## Plans resealed with their own contents -/

theorem satAdd_zero_left (a : UInt32) : satAdd 0 a = a := by
  refine u32_ext ?_
  have := toNat_le_u32Max a
  rw [toNat_satAdd]
  simp only [UInt32.toNat_zero]
  omega

/-- The fold of the totals, from any totals on. -/
theorem foldl_blockTokens (blockId : PromptBlockId) : ∀ (messages : List ResolvedPromptMessage)
    (totals : OrdMap PromptBlockId UInt32),
    ((messages.foldl (fun totals message =>
        totals.insert message.blockId (match totals.get? message.blockId with
          | some total => satAdd total message.estimatedTokens
          | none => message.estimatedTokens)) totals).get? blockId).getD 0 =
      (messageTokens (messagesOfBlock messages blockId)).foldl satAdd
        ((totals.get? blockId).getD 0)
  | [], _ => rfl
  | message :: messages, totals => by
    rw [List.foldl_cons, foldl_blockTokens blockId messages, OrdMap.get?_insert]
    by_cases hid : message.blockId = blockId
    · subst hid
      have hcons : messageTokens (messagesOfBlock (message :: messages) message.blockId) =
          message.estimatedTokens :: messageTokens (messagesOfBlock messages message.blockId) := by
        simp [messagesOfBlock, messageTokens]
      rw [hcons, List.foldl_cons, if_pos rfl]
      cases totals.get? message.blockId with
      | none =>
        simp only [Option.getD_some, Option.getD_none, satAdd_zero_left]
      | some total => rfl
    · have hcons : messagesOfBlock (message :: messages) blockId =
          messagesOfBlock messages blockId := by simp [messagesOfBlock, hid]
      rw [hcons, if_neg hid]

/-- The fold gives every block the total that the verifier expects. -/
theorem get_blockTokens (messages : List ResolvedPromptMessage) (blockId : PromptBlockId) :
    ((blockTokens messages).get? blockId).getD 0 =
      satSum (messageTokens (messagesOfBlock messages blockId)) :=
  foldl_blockTokens blockId messages .empty

/-- Recomputing the derived fields of a verified plan changes nothing. -/
theorem resealedPlan_self {plan : ResolvedPromptPlan}
    (h : verifyResolvedPromptPlan lib plan = .ok ()) :
    resealedPlan plan plan.effectiveMessages = plan := by
  have hpreview := preview_of_verify h
  obtain ⟨hvalid, -⟩ := verify_eq_ok.1 h
  simp only [ResolvedPromptPlan.validate, seq_eq_ok, rejectIf_eq_ok, validatePlanTotals, not_or,
    not_not, forIdx_eq_ok] at hvalid
  obtain ⟨-, -, -, -, -, hblocks, -, -, ⟨hestimated, -⟩, -⟩ := hvalid
  have htraces : plan.trace.blocks.map (fun block => { block with
      finalEstimatedTokens := ((blockTokens plan.effectiveMessages).get? block.blockId).getD 0 }) =
        plan.trace.blocks := by
    conv => rhs; rw [← List.map_id plan.trace.blocks]
    refine List.map_congr_left fun block hblock => ?_
    obtain ⟨j, hj⟩ := List.mem_iff_getElem?.1 hblock
    have htrace := hblocks j block hj
    simp only [validateBlockTrace, seq_eq_ok, rejectIf_eq_ok, not_or, not_not] at htrace
    rw [get_blockTokens, ← htrace.2.1.1]
    rfl
  simp only [resealedPlan, htraces, hestimated]
  rw [hestimated] at hpreview
  rw [← hpreview]

theorem satSum_filter_le (p : ResolvedPromptMessage → Bool) (messages : List ResolvedPromptMessage) :
    satSum (messageTokens (messages.filter p)) ≤ satSum (messageTokens messages) := by
  have hle : exactSum (messageTokens (messages.filter p)) ≤ exactSum (messageTokens messages) :=
    List.Sublist.sum_le_sum ((List.filter_sublist.map _).map _) (fun _ _ => Nat.zero_le _)
  rw [UInt32.le_iff_toNat_le, toNat_satSum, toNat_satSum]
  omega

/-- **A verified plan whose messages carry the estimates of `est` is resealed to itself.** -/
theorem reseal_self {plan : ResolvedPromptPlan} (h : verifyResolvedPromptPlan lib plan = .ok ())
    (hid : plan.trace.estimatorId = est.id)
    (htokens : ∀ m ∈ plan.effectiveMessages, m.estimatedTokens = est.estimateMessage m.content) :
    resealResolvedPromptPlanWithEstimator est lib plan (plan.effectiveMessages.map (·.content)) =
      .ok plan := by
  have hzip : plan.effectiveMessages.zip (plan.effectiveMessages.map (·.content)) =
      plan.effectiveMessages.map fun m => (m, m.content) := by
    rw [← List.map_id plan.effectiveMessages, List.map_map, List.zip_map']
    simp
  obtain ⟨hvalid, hhash⟩ := verify_eq_ok.1 h
  simp only [ResolvedPromptPlan.validate, seq_eq_ok, rejectIf_eq_ok, validatePlanTotals, not_or,
    not_not, forIdx_eq_ok, gt_iff_lt, UInt32.not_lt] at hvalid
  obtain ⟨-, -, -, -, -, -, -, hmessages, ⟨-, -, hfit, -⟩, -⟩ := hvalid
  refine reseal_eq_ok.2 ⟨h, hid, by rw [List.length_map], ?_, plan.effectiveMessages, ?_,
    UInt32.le_trans (satSum_filter_le _ _) hfit, hfit, ?_⟩
  · rw [hzip]
    intro item hitem _
    obtain ⟨m, -, rfl⟩ := List.mem_map.1 hitem
    rfl
  · rw [hzip, mapIdx_eq_ok]
    refine ⟨by rw [List.length_map], fun j item m hitem hm => ?_⟩
    rw [List.getElem?_map, hm, Option.map_some, Option.some.injEq] at hitem
    subst hitem
    have hmem := List.mem_of_getElem? hm
    have hmessage := hmessages j m hm
    simp only [validateEffectiveMessage, seq_eq_ok, rejectIf_eq_ok, not_or, String.isEmpty_iff]
      at hmessage
    refine resealMessage_eq_ok.2 ⟨hmessage.1.2.1, ?_⟩
    rw [← htokens m hmem]
  · rw [resealedPlan_self h]
    exact sealVerified_eq_ok.2 ⟨plan.planHash, hhash, rfl, h⟩

/-! ## Evidence -/

theorem SameTrace.refl (trace : BlockResolutionTrace) : SameTrace trace trace := rfl

theorem SameTrace.trans {a b c : BlockResolutionTrace} (hab : SameTrace a b) (hbc : SameTrace b c) :
    SameTrace a c := by
  unfold SameTrace at *
  rw [hbc, hab]

theorem setSourceRevision_sameTrace {blockId : PromptBlockId} {revision : String} :
    ∀ {traces traces' : List BlockResolutionTrace},
      setSourceRevision blockId revision traces = some traces' →
        List.Forall₂ SameTrace traces traces'
  | [], _, h => by cases h
  | trace :: rest, traces', h => by
    unfold setSourceRevision at h
    split at h
    · cases h
      exact .cons rfl (List.forall₂_same.2 fun t _ => .refl t)
    · obtain ⟨rest', hrest, rfl⟩ := Option.map_eq_some_iff.1 h
      exact .cons (.refl trace) (setSourceRevision_sameTrace hrest)

/-- The frame of several passes over the traces. -/
theorem forall₂_sameTrace_trans {a b c : List BlockResolutionTrace}
    (hab : List.Forall₂ SameTrace a b) (hbc : List.Forall₂ SameTrace b c) :
    List.Forall₂ SameTrace a c := by
  induction hab generalizing c with
  | nil => exact hbc
  | cons h _ ih =>
    cases hbc with
    | cons h' hs' => exact .cons (h.trans h') (ih hs')

theorem setSourceRevisions_sameTrace : ∀ {revisions : List (PromptBlockId × String)}
    {traces traces' : List BlockResolutionTrace},
      setSourceRevisions revisions traces = .ok traces' → List.Forall₂ SameTrace traces traces'
  | [], _, _, h => by
    cases h
    exact List.forall₂_same.2 fun t _ => .refl t
  | (blockId, revision) :: rest, traces, traces', h => by
    simp only [setSourceRevisions, bind_eq_ok, okOr_eq_ok] at h
    obtain ⟨traces₁, hone, hrest⟩ := h
    exact forall₂_sameTrace_trans (setSourceRevision_sameTrace hone)
      (setSourceRevisions_sameTrace hrest)

theorem resealMemoryEvidence_sameTrace {memoryEvidence : List PromptMemorySelectionEvidence}
    {trace trace' : BlockResolutionTrace}
    (h : resealMemoryEvidence memoryEvidence trace = .ok trace') : SameTrace trace trace' := by
  unfold resealMemoryEvidence at h
  split at h
  · cases h
    exact .refl trace
  · rw [seq_eq_ok] at h
    cases h.2
    rfl

/-- **The evidence reseal.** -/
theorem resealPromptResolutionEvidence_evidenceResealed {original plan : ResolvedPromptPlan}
    {revisions : OrdMap PromptBlockId String}
    {memoryEvidence : List PromptMemorySelectionEvidence}
    (h : resealPromptResolutionEvidence lib original revisions memoryEvidence = .ok plan) :
    verifyResolvedPromptPlan lib plan = .ok () ∧ EvidenceResealed original plan := by
  unfold resealPromptResolutionEvidence at h
  rw [seq_eq_ok] at h
  simp only [bind_eq_ok] at h
  obtain ⟨-, traces, hrev, traces', hmem, hseal⟩ := h
  obtain ⟨hash, -, rfl, hv⟩ := sealVerified_eq_ok.1 hseal
  refine ⟨hv, rfl, rfl, ?_⟩
  refine forall₂_sameTrace_trans (setSourceRevisions_sameTrace hrev) ?_
  obtain ⟨hlen, hall⟩ := mapIdx_eq_ok.1 hmem
  refine List.forall₂_iff_get.2 ⟨hlen.symm, fun i h1 h2 => ?_⟩
  exact resealMemoryEvidence_sameTrace
    (hall i _ _ (List.getElem?_eq_getElem h1) (List.getElem?_eq_getElem h2))

/-- The messages of a resolved plan carry the estimates of its estimator. -/
theorem resolve_estimates {request : PromptResolveRequest} {plan : ResolvedPromptPlan}
    (h : resolve est lib request = .ok plan) :
    plan.trace.estimatorId = est.id ∧
      ∀ m ∈ plan.effectiveMessages, m.estimatedTokens = est.estimateMessage m.content := by
  obtain ⟨-, blocks, -, hseal⟩ := resolve_eq_ok.1 h
  obtain ⟨emitted, hash, hemit, -, -, rfl⟩ := sealPlan_eq_ok.1 hseal
  refine ⟨rfl, fun m hm => ?_⟩
  obtain ⟨j, item, -, hem⟩ := emitted_mem hemit hm
  rw [hem.tokens, hem.content]

/-- **Reseals.** What either reseal returns verifies and keeps its frame; and a plan of `resolve` is
resealed with its own contents to itself, exactly when it verifies. -/
theorem reseal_frame (est : TokenEstimator) (lib : Externals) :
    (∀ original contents plan,
      resealResolvedPromptPlanWithEstimator est lib original contents = .ok plan →
        verifyResolvedPromptPlan lib plan = .ok () ∧
          plan.effectiveMessages.map (·.content) = contents ∧ ContentResealed original plan) ∧
      (∀ request plan, resolve est lib request = .ok plan →
        (verifyResolvedPromptPlan lib plan = .ok () ↔
          resealResolvedPromptPlanWithEstimator est lib plan
            (plan.effectiveMessages.map (·.content)) = .ok plan)) ∧
        ∀ original revisions memoryEvidence plan,
          resealPromptResolutionEvidence lib original revisions memoryEvidence = .ok plan →
            verifyResolvedPromptPlan lib plan = .ok () ∧ EvidenceResealed original plan := by
  refine ⟨fun _ _ _ h => reseal_contentResealed h, fun request plan h => ⟨fun hv => ?_, fun hr => ?_⟩,
    fun _ _ _ _ h => resealPromptResolutionEvidence_evidenceResealed h⟩
  · obtain ⟨hid, htokens⟩ := resolve_estimates h
    exact reseal_self hv hid htokens
  · exact (reseal_eq_ok.1 hr).1

/-- A verified plan without memory blocks, under an evidence reseal that adds nothing. -/
theorem resealPromptResolutionEvidence_self {plan : ResolvedPromptPlan}
    (h : verifyResolvedPromptPlan lib plan = .ok ())
    (hkind : ∀ trace ∈ plan.trace.blocks, trace.blockKind ≠ .retrievedMemory) :
    resealPromptResolutionEvidence lib plan .empty [] = .ok plan := by
  have htraces : mapIdx (fun _ trace => resealMemoryEvidence [] trace) plan.trace.blocks =
      .ok plan.trace.blocks := by
    refine mapIdx_eq_ok.2 ⟨rfl, fun j trace trace' ht ht' => ?_⟩
    rw [ht, Option.some.injEq] at ht'
    subst ht'
    rw [resealMemoryEvidence, if_pos (hkind trace (List.mem_of_getElem? ht))]
  unfold resealPromptResolutionEvidence
  rw [seq_eq_ok]
  refine ⟨h, bind_eq_ok.2 ⟨plan.trace.blocks, rfl, bind_eq_ok.2 ⟨plan.trace.blocks, htraces, ?_⟩⟩⟩
  exact sealVerified_eq_ok.2 ⟨plan.planHash, (verify_eq_ok.1 h).2, rfl, h⟩

theorem reseal_frame_loreRequest :
    ∃ plan, resolve utf8TokenEstimator sampleExternals
        (loreRequest (plainProvenance .userCreated) 100) = .ok plan ∧
      resealResolvedPromptPlanWithEstimator utf8TokenEstimator sampleExternals plan
          (plan.effectiveMessages.map (·.content)) = .ok plan ∧
        ContentResealed plan plan ∧
          resealPromptResolutionEvidence sampleExternals plan .empty [] = .ok plan ∧
            EvidenceResealed plan plan := by
  obtain ⟨plan, blocks, hplan, hblocks, hkind⟩ := loreRequest_resolve
  have hreq := validate_accepted (resolve_eq_ok.1 hplan).1
  have hverify := (verify_iff_verifiable hplan hblocks).2
    (loreRequest_verifiable.verifiable utf8TokenEstimator_lawful hreq hblocks)
  obtain ⟨hcontent, hself, hevidence⟩ := reseal_frame utf8TokenEstimator sampleExternals
  have hsame := (hself _ plan hplan).1 hverify
  have hsame' := resealPromptResolutionEvidence_self hverify hkind
  exact ⟨plan, hplan, hsame, (hcontent _ _ _ hsame).2.2, hsame', (hevidence _ _ _ _ hsame').2⟩

end LorePia
