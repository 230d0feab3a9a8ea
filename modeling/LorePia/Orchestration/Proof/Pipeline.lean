import LorePia.Orchestration.Proof.Budget
import LorePia.Orchestration.Proof.Materialize

/-!
# The stages of resolution

The presets that validation accepts list their blocks in emission order, so sorting changes nothing
(`materializeBlocks_eq_ok`) and every stage of `resolve` works block by block: the block at position
`i` of the result is the preset's block `i`, materialized, bounded by its maximum and reduced to its
global target (`resolveBlocks_get`). A plan that `resolve` returns is the sealed emission of these
blocks (`resolve_eq_ok`, `sealPlan_eq_ok`).
-/

namespace LorePia

open Base

variable {est : TokenEstimator} {lib : Externals} {request : PromptResolveRequest}

/-! ## Materialization in order -/

theorem blockLe_of {left right : MaterializedBlock}
    (hz : left.block.placementZone.rank ≤ right.block.placementZone.rank)
    (hi : left.originalIndex < right.originalIndex) : blockLe left right = true := by
  unfold blockLe
  rcases Nat.lt_or_eq_of_le hz with h | h
  · simp [h]
  · simp [h, hi]

/-- **The blocks of an accepted preset are materialized in place.** -/
theorem materializeBlocks_eq_ok (hreq : AcceptedRequest lib request)
    {blocks : List MaterializedBlock} :
    materializeBlocks est lib request = .ok blocks ↔
      mapIdx (materializeBlock est lib request) request.preset.blocks = .ok blocks := by
  have sorted : ∀ {mats : List MaterializedBlock},
      mapIdx (materializeBlock est lib request) request.preset.blocks = .ok mats →
        stableSort blockLe mats = mats := by
    intro mats hm
    obtain ⟨hlen, hall⟩ := mapIdx_eq_ok.1 hm
    refine stableSort_of_pairwise (List.pairwise_iff_getElem.2 fun i j hi hj hij => ?_)
    have hi' : i < request.preset.blocks.length := hlen ▸ hi
    have hj' : j < request.preset.blocks.length := hlen ▸ hj
    have mi := materializeBlock_materialized hreq
      (hall i _ _ (List.getElem?_eq_getElem hi') (List.getElem?_eq_getElem hi))
    have mj := materializeBlock_materialized hreq
      (hall j _ _ (List.getElem?_eq_getElem hj') (List.getElem?_eq_getElem hj))
    refine blockLe_of ?_ (by rw [mi.originalIndex, mj.originalIndex]; exact hij)
    rw [mi.sameBlock, mj.sameBlock]
    exact List.pairwise_iff_getElem.1 hreq.ordered i j hi' hj' hij
  unfold materializeBlocks
  rw [bind_eq_ok]
  constructor
  · rintro ⟨mats, hm, h⟩
    cases h
    rw [sorted hm]
    exact hm
  · intro hm
    exact ⟨blocks, hm, by rw [sorted hm]; rfl⟩

/-! ## Inversion of the stages -/

theorem resolve_eq_ok {plan : ResolvedPromptPlan} :
    resolve est lib request = .ok plan ↔
      request.validate lib = .ok () ∧
        ∃ blocks, resolveBlocks est lib request = .ok blocks ∧
          sealPlan est lib request blocks = .ok plan := by
  unfold resolve
  rw [seq_eq_ok, mapErr_eq_ok, bind_eq_ok]

theorem boundBlocks_eq_ok {blocks bounded : List MaterializedBlock} :
    boundBlocks est request blocks = .ok bounded ↔
      mapIdx (fun _ b => enforceBlockMaximum est request b) blocks = .ok bounded ∧
        latestTokens est bounded ≤ request.availableTokens := by
  unfold boundBlocks
  rw [bind_eq_ok]
  constructor
  · rintro ⟨_, hm, h⟩
    rw [seq_eq_ok, rejectIf_eq_ok, gt_iff_lt, UInt32.not_lt] at h
    cases h.2
    exact ⟨hm, h.1⟩
  · rintro ⟨hm, hle⟩
    refine ⟨bounded, hm, seq_eq_ok.2 ⟨rejectIf_eq_ok.2 ?_, rfl⟩⟩
    rw [gt_iff_lt, UInt32.not_lt]
    exact hle

theorem resolveBlocks_eq_ok {final : List MaterializedBlock} :
    resolveBlocks est lib request = .ok final ↔
      ∃ mats bounded, materializeBlocks est lib request = .ok mats ∧
        boundBlocks est request mats = .ok bounded ∧
          enforceGlobalBudget est request bounded request.availableTokens = .ok final := by
  unfold resolveBlocks
  simp only [bind_eq_ok]
  constructor
  · rintro ⟨mats, hm, bounded, hb, h⟩
    exact ⟨mats, bounded, hm, hb, h⟩
  · rintro ⟨mats, bounded, hm, hb, h⟩
    exact ⟨mats, hm, bounded, hb, h⟩

/-- One block through the stages: `b₀` as materialized, `b₁` within its maximum, `b` at the end. -/
structure BlockRun (est : TokenEstimator) (lib : Externals) (request : PromptResolveRequest)
    (i : Nat) (block : PromptBlock) (target : Option UInt32) (b₀ b₁ b : MaterializedBlock) :
    Prop where
  materialize : materializeBlock est lib request i block = .ok b₀
  maximum : enforceBlockMaximum est request b₀ = .ok b₁
  budget : Budgeted est request target b₁ b

theorem resolveBlocks_length {final : List MaterializedBlock} (hreq : AcceptedRequest lib request)
    (h : resolveBlocks est lib request = .ok final) :
    final.length = request.preset.blocks.length := by
  obtain ⟨mats, bounded, hm, hb, hg⟩ := resolveBlocks_eq_ok.1 h
  rw [enforceGlobalBudget_length hg, (mapIdx_eq_ok.1 (boundBlocks_eq_ok.1 hb).1).1,
    (mapIdx_eq_ok.1 ((materializeBlocks_eq_ok hreq).1 hm)).1]

/-- **Every block's run.** -/
theorem stages_get {mats bounded final : List MaterializedBlock} (hreq : AcceptedRequest lib request)
    (hm : materializeBlocks est lib request = .ok mats)
    (hb : boundBlocks est request mats = .ok bounded)
    (hg : enforceGlobalBudget est request bounded request.availableTokens = .ok final)
    {i : Nat} {block : PromptBlock} {b : MaterializedBlock}
    (hblock : request.preset.blocks[i]? = some block) (hfinal : final[i]? = some b) :
    ∃ b₀ b₁, mats[i]? = some b₀ ∧ bounded[i]? = some b₁ ∧
      BlockRun est lib request i block
        (globalTarget est request bounded request.availableTokens i) b₀ b₁ b := by
  obtain ⟨hlen, hmats⟩ := mapIdx_eq_ok.1 ((materializeBlocks_eq_ok hreq).1 hm)
  obtain ⟨hlen', hbounds⟩ := mapIdx_eq_ok.1 (boundBlocks_eq_ok.1 hb).1
  have hi : i < request.preset.blocks.length := (List.getElem?_eq_some_iff.1 hblock).1
  have hi0 : i < mats.length := hlen ▸ hi
  have hi1 : i < bounded.length := hlen' ▸ hi0
  have h0 := List.getElem?_eq_getElem hi0
  have h1 := List.getElem?_eq_getElem hi1
  obtain ⟨b', hb', hbud⟩ := enforceGlobalBudget_get hg h1
  rw [hfinal, Option.some.injEq] at hb'
  subst hb'
  exact ⟨mats[i], bounded[i], h0, h1, hmats i _ _ hblock h0, hbounds i _ _ h0 h1, hbud⟩

theorem resolveBlocks_get {final : List MaterializedBlock} (hreq : AcceptedRequest lib request)
    (h : resolveBlocks est lib request = .ok final) {i : Nat} {block : PromptBlock}
    {b : MaterializedBlock} (hblock : request.preset.blocks[i]? = some block)
    (hfinal : final[i]? = some b) :
    ∃ bounded b₀ b₁, bounded[i]? = some b₁ ∧
      BlockRun est lib request i block
        (globalTarget est request bounded request.availableTokens i) b₀ b₁ b := by
  obtain ⟨mats, bounded, hm, hb, hg⟩ := resolveBlocks_eq_ok.1 h
  obtain ⟨b₀, b₁, -, h1, run⟩ := stages_get hreq hm hb hg hblock hfinal
  exact ⟨bounded, b₀, b₁, h1, run⟩

/-- A final block and its run. -/
theorem resolveBlocks_mem {final : List MaterializedBlock} (hreq : AcceptedRequest lib request)
    (h : resolveBlocks est lib request = .ok final) {b : MaterializedBlock} (hb : b ∈ final) :
    ∃ i block target b₀ b₁, request.preset.blocks[i]? = some block ∧
      BlockRun est lib request i block target b₀ b₁ b := by
  obtain ⟨i, hi⟩ := List.mem_iff_getElem?.1 hb
  have hlt : i < request.preset.blocks.length := by
    rw [← resolveBlocks_length hreq h]
    exact (List.getElem?_eq_some_iff.1 hi).1
  obtain ⟨_, b₀, b₁, -, run⟩ := resolveBlocks_get hreq h (List.getElem?_eq_getElem hlt) hi
  exact ⟨i, _, _, b₀, b₁, List.getElem?_eq_getElem hlt, run⟩

section Run

variable {i : Nat} {block : PromptBlock} {target : Option UInt32} {b₀ b₁ b : MaterializedBlock}

theorem BlockRun.bounded (run : BlockRun est lib request i block target b₀ b₁ b) :
    Bounded est request b₀ b₁ ∧ Bounded est request b₁ b :=
  ⟨enforceBlockMaximum_bounded run.maximum, run.budget.bounded⟩

theorem BlockRun.frame (run : BlockRun est lib request i block target b₀ b₁ b) :
    SameFrame b₀ b := run.bounded.1.frame.trans run.bounded.2.frame

/-- A property of drafts that cutting keeps and that summaries have, along a reduction. -/
theorem Bounded.forall_messages {P : DraftMessage → Prop} (h : Bounded est request b₀ b)
    (short : ∀ m m', P m → Shortened m m' → P m')
    (summary : ∀ s, request.context.conversationSummary = some s → P (summaryDraft b₀ s))
    (hb : ∀ m ∈ b₀.messages, P m) : ∀ m ∈ b.messages, P m := by
  intro m' hm'
  rcases h.mem_messages hm' with ⟨m, hm, hs⟩ | ⟨s, hs, rfl⟩
  · exact short m m' (hb m hm) hs
  · exact summary s hs

/-- **A property of drafts that cutting keeps and that summaries have**, along a run. -/
theorem BlockRun.forall_messages {P : DraftMessage → Prop}
    (run : BlockRun est lib request i block target b₀ b₁ b)
    (short : ∀ m m', P m → Shortened m m' → P m')
    (summary : ∀ c s, c.block = b₀.block → request.context.conversationSummary = some s →
      P (summaryDraft c s))
    (hb : ∀ m ∈ b₀.messages, P m) : ∀ m ∈ b.messages, P m := by
  obtain ⟨h1, h2⟩ := run.bounded
  refine h2.forall_messages short (fun s hs => summary b₁ s h1.frame.block hs) ?_
  exact h1.forall_messages short (fun s hs => summary b₀ s rfl hs) hb

theorem BlockRun.length_le (run : BlockRun est lib request i block target b₀ b₁ b) :
    b.messages.length ≤ b₀.messages.length :=
  run.bounded.2.length_le.trans run.bounded.1.length_le

theorem BlockRun.sameBlock (hreq : AcceptedRequest lib request)
    (run : BlockRun est lib request i block target b₀ b₁ b) : b.block = block :=
  run.frame.block.trans (materializeBlock_materialized hreq run.materialize).sameBlock

end Run

/-! ## Emission -/

theorem sealPlan_eq_ok {blocks : List MaterializedBlock} {plan : ResolvedPromptPlan} :
    sealPlan est lib request blocks = .ok plan ↔
      ∃ emitted hash, mapIdx (emitMessage est request.provider) (emissionOrder blocks) =
          .ok emitted ∧
        (emitted.map (·.2)).any carriesLatestUser = true ∧
          canonicalPlanHash lib (draftPlan est request blocks emitted) = .ok hash ∧
            plan = { draftPlan est request blocks emitted with planHash := hash } := by
  unfold sealPlan
  rw [bind_eq_ok]
  constructor
  · rintro ⟨emitted, hm, h⟩
    rw [seq_eq_ok, rejectIf_eq_ok, not_not] at h
    obtain ⟨hany, h⟩ := h
    rw [bind_eq_ok] at h
    obtain ⟨hash, hh, h⟩ := h
    cases h
    exact ⟨emitted, hash, hm, hany, hh, rfl⟩
  · rintro ⟨emitted, hash, hm, hany, hh, rfl⟩
    refine ⟨emitted, hm, seq_eq_ok.2 ⟨rejectIf_eq_ok.2 (not_not.2 hany), ?_⟩⟩
    rw [bind_eq_ok]
    exact ⟨hash, hh, rfl⟩

/-- What emission makes of one draft. -/
structure Emitted (est : TokenEstimator) (provider : ProviderPromptContract) (index : Nat)
    (item : PromptBlock × DraftMessage) (message : ResolvedPromptMessage) : Prop where
  sequence : message.sequence.toNat = index
  blockId : message.blockId = item.1.id
  blockKind : message.blockKind = item.1.kind
  role : ∃ why, mapRole item.2.requestedRole item.2.authority provider =
    .ok (message.effectiveRole, why)
  authority : message.authority = item.2.authority
  content : message.content = item.2.content
  tokens : message.estimatedTokens = est.estimateMessage item.2.content
  sources : message.sourceMessageIds = item.2.sourceMessageIds
  provenance : message.provenance = item.2.provenance

theorem emitMessage_emitted {provider : ProviderPromptContract} {index : Nat}
    {item : PromptBlock × DraftMessage} {out : RoleMappingTrace × ResolvedPromptMessage}
    (h : emitMessage est provider index item = .ok out) :
    Emitted est provider index item out.2 := by
  simp only [emitMessage, bind_eq_ok, mapErr_eq_ok, okOr_eq_ok] at h
  obtain ⟨⟨role, why⟩, hrole, sequence, hseq, h⟩ := h
  cases h
  exact ⟨u32TryFrom_eq_some.1 hseq, rfl, rfl, ⟨why, hrole⟩, rfl, rfl, rfl, rfl, rfl⟩

/-- **The effective messages are the drafts of the blocks, in order.** -/
theorem emitted_get {provider : ProviderPromptContract} {blocks : List MaterializedBlock}
    {emitted : List (RoleMappingTrace × ResolvedPromptMessage)}
    (h : mapIdx (emitMessage est provider) (emissionOrder blocks) = .ok emitted) :
    (emitted.map (·.2)).length = (emissionOrder blocks).length ∧
      ∀ j item message, (emissionOrder blocks)[j]? = some item →
        (emitted.map (·.2))[j]? = some message → Emitted est provider j item message := by
  obtain ⟨hlen, hall⟩ := mapIdx_eq_ok.1 h
  refine ⟨by simp [hlen], fun j item message hi hm => ?_⟩
  rw [List.getElem?_map, Option.map_eq_some_iff] at hm
  obtain ⟨out, hout, rfl⟩ := hm
  exact emitMessage_emitted (hall j item out hi hout)

theorem emitted_forall₂ {provider : ProviderPromptContract} {blocks : List MaterializedBlock}
    {emitted : List (RoleMappingTrace × ResolvedPromptMessage)}
    (h : mapIdx (emitMessage est provider) (emissionOrder blocks) = .ok emitted) :
    List.Forall₂ (fun item message => ∃ j, Emitted est provider j item message)
      (emissionOrder blocks) (emitted.map (·.2)) := by
  obtain ⟨hlen, hall⟩ := emitted_get h
  refine List.forall₂_iff_get.2 ⟨hlen.symm, fun j hi hj => ⟨j, ?_⟩⟩
  exact hall j _ _ (List.getElem?_eq_getElem hi) (List.getElem?_eq_getElem hj)

theorem mem_emissionOrder {blocks : List MaterializedBlock} {item : PromptBlock × DraftMessage} :
    item ∈ emissionOrder blocks ↔ ∃ b ∈ blocks, b.block = item.1 ∧ item.2 ∈ b.messages := by
  obtain ⟨block, draft⟩ := item
  simp only [emissionOrder, List.mem_flatMap, List.mem_map, Prod.mk.injEq]
  constructor
  · rintro ⟨b, hb, d, hd, rfl, rfl⟩
    exact ⟨b, hb, rfl, hd⟩
  · rintro ⟨b, hb, he, hd⟩
    exact ⟨b, hb, draft, hd, he, rfl⟩

theorem emitted_mem {provider : ProviderPromptContract} {blocks : List MaterializedBlock}
    {emitted : List (RoleMappingTrace × ResolvedPromptMessage)}
    (h : mapIdx (emitMessage est provider) (emissionOrder blocks) = .ok emitted)
    {message : ResolvedPromptMessage} (hm : message ∈ emitted.map (·.2)) :
    ∃ j item, item ∈ emissionOrder blocks ∧ Emitted est provider j item message := by
  obtain ⟨hlen, hall⟩ := emitted_get h
  obtain ⟨j, hj⟩ := List.mem_iff_getElem?.1 hm
  have hlt : j < (emissionOrder blocks).length := by
    rw [← hlen]
    exact (List.getElem?_eq_some_iff.1 hj).1
  exact ⟨j, _, List.getElem_mem hlt, hall j _ message (List.getElem?_eq_getElem hlt) hj⟩

/-- Every draft of the blocks is emitted. -/
theorem emitted_of_mem {provider : ProviderPromptContract} {blocks : List MaterializedBlock}
    {emitted : List (RoleMappingTrace × ResolvedPromptMessage)}
    (h : mapIdx (emitMessage est provider) (emissionOrder blocks) = .ok emitted)
    {item : PromptBlock × DraftMessage} (hi : item ∈ emissionOrder blocks) :
    ∃ j message, message ∈ emitted.map (·.2) ∧ Emitted est provider j item message := by
  obtain ⟨hlen, hall⟩ := emitted_get h
  obtain ⟨j, hj⟩ := List.mem_iff_getElem?.1 hi
  have hlt : j < (emitted.map (·.2)).length := by
    rw [hlen]
    exact (List.getElem?_eq_some_iff.1 hj).1
  exact ⟨j, _, List.getElem_mem hlt, hall j item _ hj (List.getElem?_eq_getElem hlt)⟩

end LorePia
