import LorePia.Domain.Proof.Validate
import LorePia.Orchestration.Materialize
import LorePia.Orchestration.Proof.Draft

/-!
# What materialization produces

A block's source gives its drafts and evidence (`Sourced`); everything behind it merges, rewrites
contents and drops empty drafts, so it keeps the evidence, keeps every property of drafts that
merging and rewriting keep (`finishBlock_forall`) and only loses list items
(`finishBlock_flatMap_sublist`). `Materialized` collects what holds of every materialized block.
-/

namespace LorePia

open Base

variable {est : TokenEstimator} {lib : Externals} {request : PromptResolveRequest}
  {block : PromptBlock}

/-! ## Behind the source -/

/-- The merge before the template. -/
def mergeBefore (block : PromptBlock) (messages : List DraftMessage) : List DraftMessage :=
  if isCompatBlock block && block.template.isSome then mergeSameRoleMessages messages else messages

/-- The merge after the template. -/
def mergeAfter (block : PromptBlock) (messages : List DraftMessage) : List DraftMessage :=
  if block.mergePolicy = .mergeWithPreviousSameRole then mergeSameRoleMessages messages
  else messages

/-- `m'` is `m` with its content rewritten. -/
def Rewritten (m m' : DraftMessage) : Prop := ∃ content, m' = { m with content := content }

theorem applyBlockTemplate_rewritten {messages rendered : List DraftMessage}
    (h : applyBlockTemplate lib request block messages = .ok rendered) :
    List.Forall₂ Rewritten messages rendered := by
  have refl : ∀ l : List DraftMessage, List.Forall₂ Rewritten l l :=
    fun l => List.forall₂_same.2 fun m _ => ⟨m.content, rfl⟩
  unfold applyBlockTemplate at h
  split at h
  · cases h
    exact refl _
  · split at h
    · cases h
      exact refl _
    · obtain ⟨hlen, hall⟩ := mapIdx_eq_ok.1 h
      refine List.forall₂_iff_get.2 ⟨hlen.symm, fun i hi hi' => ?_⟩
      have hm := hall i _ _ (List.getElem?_eq_getElem hi) (List.getElem?_eq_getElem hi')
      simp only [templateMessage, bind_eq_ok] at hm
      obtain ⟨_, -, hm⟩ := hm
      exact ⟨_, (Except.ok.inj hm).symm⟩

/-- Everything `materialize_block` does behind its source. -/
theorem finishBlock_cases {src b : MaterializedBlock}
    (h : finishBlock est lib request block src = .ok b) :
    ∃ rendered, applyBlockTemplate lib request block (mergeBefore block src.messages) =
        .ok rendered ∧
      b.messages = mergeAfter block (rendered.filter fun m => !m.content.isEmpty) ∧
      b.block = src.block ∧ b.originalIndex = src.originalIndex ∧
        b.knowledgeEvidence = src.knowledgeEvidence ∧ b.memoryEvidence = src.memoryEvidence := by
  unfold finishBlock at h
  rw [bind_eq_ok] at h
  obtain ⟨rendered, hr, h⟩ := h
  refine ⟨rendered, hr, ?_⟩
  simp only [] at h
  split at h
  · rename_i he
    cases h
    rw [List.isEmpty_iff] at he
    refine ⟨?_, rfl, rfl, rfl, rfl⟩
    simp only [he, mergeAfter]
    split <;> rfl
  · cases h
    exact ⟨rfl, rfl, rfl, rfl, rfl⟩

theorem mergeBefore_forall {P : DraftMessage → Prop}
    (hP : ∀ a b, P a → P b → mergesWith a b = true → P (mergeInto a b)) {l : List DraftMessage}
    (hl : ∀ m ∈ l, P m) : ∀ m ∈ mergeBefore block l, P m := by
  unfold mergeBefore
  split
  · exact mergeSameRoleMessages_forall hP hl
  · exact hl

theorem mergeAfter_forall {P : DraftMessage → Prop}
    (hP : ∀ a b, P a → P b → mergesWith a b = true → P (mergeInto a b)) {l : List DraftMessage}
    (hl : ∀ m ∈ l, P m) : ∀ m ∈ mergeAfter block l, P m := by
  unfold mergeAfter
  split
  · exact mergeSameRoleMessages_forall hP hl
  · exact hl

theorem forall₂_rewritten_forall {P : DraftMessage → Prop}
    (hP : ∀ m m', P m → Rewritten m m' → P m') : ∀ {l l' : List DraftMessage},
      List.Forall₂ Rewritten l l' → (∀ m ∈ l, P m) → ∀ m ∈ l', P m
  | _, _, .nil, _, _, hm => by simp at hm
  | _, _, .cons h hs, hl, m, hm => by
    rw [List.forall_mem_cons] at hl
    rcases List.mem_cons.1 hm with rfl | hm
    · exact hP _ _ hl.1 h
    · exact forall₂_rewritten_forall hP hs hl.2 m hm

/-- A property of drafts that merging and rewriting keep, from the source to the block. -/
theorem finishBlock_forall {P : DraftMessage → Prop} {src b : MaterializedBlock}
    (h : finishBlock est lib request block src = .ok b)
    (merge : ∀ a b, P a → P b → mergesWith a b = true → P (mergeInto a b))
    (rewrite : ∀ m m', P m → Rewritten m m' → P m') (hsrc : ∀ m ∈ src.messages, P m) :
    ∀ m ∈ b.messages, P m := by
  obtain ⟨rendered, hr, hm, -⟩ := finishBlock_cases h
  rw [hm]
  refine mergeAfter_forall merge fun m hmem => ?_
  exact forall₂_rewritten_forall rewrite (applyBlockTemplate_rewritten hr)
    (mergeBefore_forall merge hsrc) m (List.mem_of_mem_filter hmem)

/-- No empty draft is left. -/
theorem finishBlock_nonempty {src b : MaterializedBlock}
    (h : finishBlock est lib request block src = .ok b) : ∀ m ∈ b.messages, m.content ≠ "" := by
  obtain ⟨rendered, -, hm, -⟩ := finishBlock_cases h
  rw [hm]
  refine mergeAfter_forall (P := fun m => m.content ≠ "") ?_ ?_
  · intro a b ha _ _ he
    simp only [mergeInto, String.append_eq_empty_iff] at he
    exact ha he.1.1
  · intro m hmem he
    have := (List.mem_filter.1 hmem).2
    simp [he] at this

theorem mergeBefore_flatMap {α : Type} {f : DraftMessage → List α}
    (hf : ∀ a b, f (mergeInto a b) = f a ++ f b) (l : List DraftMessage) :
    (mergeBefore block l).flatMap f = l.flatMap f := by
  unfold mergeBefore
  split
  · exact mergeSameRoleMessages_flatMap hf l
  · rfl

theorem mergeAfter_flatMap {α : Type} {f : DraftMessage → List α}
    (hf : ∀ a b, f (mergeInto a b) = f a ++ f b) (l : List DraftMessage) :
    (mergeAfter block l).flatMap f = l.flatMap f := by
  unfold mergeAfter
  split
  · exact mergeSameRoleMessages_flatMap hf l
  · rfl

theorem forall₂_rewritten_flatMap {α : Type} {f : DraftMessage → List α}
    (hf : ∀ m m', Rewritten m m' → f m' = f m) : ∀ {l l' : List DraftMessage},
      List.Forall₂ Rewritten l l' → l'.flatMap f = l.flatMap f
  | _, _, .nil => rfl
  | _, _, .cons h hs => by
    rw [List.flatMap_cons, List.flatMap_cons, hf _ _ h, forall₂_rewritten_flatMap hf hs]

/-- A list field of the drafts only loses items, those of drafts that were rendered empty. -/
theorem finishBlock_flatMap_sublist {α : Type} {f : DraftMessage → List α}
    (merge : ∀ a b, f (mergeInto a b) = f a ++ f b)
    (rewrite : ∀ m m', Rewritten m m' → f m' = f m) {src b : MaterializedBlock}
    (h : finishBlock est lib request block src = .ok b) :
    (b.messages.flatMap f).Sublist (src.messages.flatMap f) := by
  obtain ⟨rendered, hr, hm, -⟩ := finishBlock_cases h
  rw [hm, mergeAfter_flatMap merge]
  refine (flatMap_sublist f List.filter_sublist).trans ?_
  rw [forall₂_rewritten_flatMap rewrite (applyBlockTemplate_rewritten hr),
    mergeBefore_flatMap merge]

theorem finishBlock_length {src b : MaterializedBlock}
    (h : finishBlock est lib request block src = .ok b) :
    b.messages.length ≤ src.messages.length := by
  obtain ⟨rendered, hr, hm, -⟩ := finishBlock_cases h
  have h1 : (mergeAfter block (rendered.filter fun m => !m.content.isEmpty)).length ≤
      rendered.length := by
    unfold mergeAfter
    split
    · exact (mergeSameRoleMessages_length _).trans (List.length_filter_le _ _)
    · exact List.length_filter_le _ _
  have h2 : (mergeBefore block src.messages).length ≤ src.messages.length := by
    unfold mergeBefore
    split
    · exact mergeSameRoleMessages_length _
    · exact Nat.le_refl _
  rw [hm]
  exact h1.trans ((applyBlockTemplate_rewritten hr).length_eq ▸ h2)

/-! ## Cases of a materialized block -/

/-- Everything `materialize_block` can return. -/
inductive BlockCases (est : TokenEstimator) (lib : Externals) (request : PromptResolveRequest)
    (i : Nat) (block : PromptBlock) : MaterializedBlock → Prop
  | skipped (status : BlockResolutionStatus) (explanation : String) :
      BlockCases est lib request i block
        { MaterializedBlock.empty block i with status := status, explanation := explanation }
  | noContent (src : MaterializedBlock) (status : BlockResolutionStatus) (explanation : String)
      (source : materializeSource est lib request block (.empty block i) = .ok src)
      (empty : src.messages = []) :
      BlockCases est lib request i block
        { src with status := status, explanation := explanation }
  | finished (src b : MaterializedBlock)
      (source : materializeSource est lib request block (.empty block i) = .ok src)
      (finish : finishBlock est lib request block src = .ok b) :
      BlockCases est lib request i block b

theorem materializeBlock_cases {i : Nat} {b : MaterializedBlock}
    (h : materializeBlock est lib request i block = .ok b) :
    BlockCases est lib request i block b := by
  unfold materializeBlock at h
  simp only [] at h
  split at h
  · cases h
    exact .skipped _ _
  · rw [bind_eq_ok] at h
    obtain ⟨holds, -, h⟩ := h
    split at h
    · cases h
      exact .skipped _ _
    · rw [bind_eq_ok] at h
      obtain ⟨src, hsrc, h⟩ := h
      split at h
      · rename_i he
        cases h
        exact .noContent src _ _ hsrc (List.isEmpty_iff.1 he)
      · exact .finished src b hsrc h

/-! ## Sources -/

theorem length_stableSort_filter_le {α : Type} (le : α → α → Bool) (p : α → Bool) (l : List α) :
    (stableSort le (l.filter p)).length ≤ l.length := by
  rw [length_stableSort]
  exact List.length_filter_le _ _

theorem selectHistory_length {messages selected : List PromptConversationMessage}
    {selector : HistorySelector} {summaries : List SummaryBoundary}
    (h : selectHistory messages selector summaries = .ok selected) :
    selected.length ≤ messages.length := by
  cases selector <;> simp only [selectHistory, selectRelativeMessageRange, Except.ok.injEq,
    bind_eq_ok] at h
  case all => subst h; exact Nat.le_refl _
  case beforeRecentTurns => subst h; exact List.length_filter_le _ _
  case recentTurns => subst h; exact List.length_filter_le _ _
  case excludingLatestUser => subst h; exact List.length_filter_le _ _
  case relativeMessageRange =>
    obtain ⟨-, -, h⟩ := h
    cases h
    simp only [List.length_take, List.length_drop]
    omega
  case messageRange =>
    obtain ⟨_, -, _, -, -, -, h⟩ := h
    cases h
    simp only [List.length_take, List.length_drop]
    omega
  case sinceSummary =>
    obtain ⟨_, -, _, -, h⟩ := h
    cases h
    simp only [List.length_drop]
    omega

/-- What a source gives: where its drafts and their provenances come from, and its evidence. -/
structure Sourced (est : TokenEstimator) (lib : Externals) (request : PromptResolveRequest)
    (block : PromptBlock) (i : Nat) (src : MaterializedBlock) : Prop where
  sameBlock : src.block = block
  originalIndex : src.originalIndex = i
  provenance : ∀ m ∈ src.messages, m.provenance = block.provenance ∨
    (∃ entry ∈ request.context.selectedKnowledge, m.provenance = entry.provenance) ∨
      ∃ record ∈ request.context.selectedMemory, m.provenance = record.provenance
  memoryIds : src.messages.flatMap (·.sourceMemoryRecordIds) = src.memoryEvidence.map (·.recordId)
  memoryEvidence : src.memoryEvidence = [] ∨ src.memoryEvidence =
    (stableSort memoryLe request.context.selectedMemory).map (memoryEvidenceOf est lib)
  origins : src.messages.flatMap (·.origins) = src.knowledgeEvidence.map (·.entryId)
  knowledgeEvidence : src.knowledgeEvidence = [] ∨ src.knowledgeEvidence =
    (knowledgeEntries request.context block).map (knowledgeEvidenceOf est)
  length : src.messages.length ≤ 1 ∨ src.messages.length ≤ request.context.messages.length ∨
    src.messages.length ≤ request.context.selectedKnowledge.length ∨
      src.messages.length ≤ request.context.selectedMemory.length

/-- The sources that give one draft of the block's own, or none. -/
theorem sourced_default {i : Nat} {messages : List DraftMessage}
    (h : messages = [] ∨ ∃ content, messages = defaultDraft block content) :
    Sourced est lib request block i
      { MaterializedBlock.empty block i with messages := messages } := by
  rcases h with rfl | ⟨content, rfl⟩
  · exact ⟨rfl, rfl, by simp, rfl, .inl rfl, rfl, .inl rfl, .inl (Nat.zero_le _)⟩
  · exact ⟨rfl, rfl, by simp [defaultDraft], rfl, .inl rfl, rfl, .inl rfl, .inl (Nat.le_refl _)⟩

theorem sourced_history {i : Nat} {messages : List DraftMessage}
    (h : historyMessages request block = .ok messages) :
    Sourced est lib request block i
      { MaterializedBlock.empty block i with messages := messages } := by
  simp only [historyMessages, bind_eq_ok, okOr_eq_ok, mapErr_eq_ok] at h
  obtain ⟨selector, -, selected, hsel, h⟩ := h
  cases h
  refine ⟨rfl, rfl, ?_, ?_, .inl rfl, ?_, .inl rfl, .inr (.inl ?_)⟩
  · intro m hm
    simp only [List.mem_map] at hm
    obtain ⟨_, -, rfl⟩ := hm
    exact .inl rfl
  · simp [MaterializedBlock.empty, List.flatMap_map]
  · simp [MaterializedBlock.empty, List.flatMap_map]
  · have hlen := selectHistory_length hsel
    simp only [List.length_map]
    exact hlen.trans (length_stableSort_filter_le _ _ _)

theorem sourced_knowledge {i : Nat} :
    Sourced est lib request block i
      { MaterializedBlock.empty block i with
        messages := (knowledgeEntries request.context block).map
          (knowledgeDraft lib request.context block)
        knowledgeEvidence := (knowledgeEntries request.context block).map
          (knowledgeEvidenceOf est) } := by
  refine ⟨rfl, rfl, ?_, ?_, .inl rfl, ?_, .inr rfl, .inr (.inr (.inl ?_))⟩
  · intro m hm
    simp only [List.mem_map, knowledgeEntries, mem_stableSort] at hm
    obtain ⟨entry, hentry, rfl⟩ := hm
    exact .inr (.inl ⟨entry, List.mem_of_mem_filter hentry, rfl⟩)
  · simp [MaterializedBlock.empty, knowledgeDraft, List.flatMap_map]
  · simp only [List.flatMap_map, List.map_map, knowledgeDraft]
    exact (List.map_eq_flatMap).symm
  · rw [List.length_map]
    exact length_stableSort_filter_le _ _ _

theorem sourced_memory {i : Nat} :
    Sourced est lib request block i
      { MaterializedBlock.empty block i with
        messages := (stableSort memoryLe request.context.selectedMemory).map (memoryDraft block)
        memoryEvidence := (stableSort memoryLe request.context.selectedMemory).map
          (memoryEvidenceOf est lib) } := by
  refine ⟨rfl, rfl, ?_, ?_, .inr rfl, ?_, .inl rfl, .inr (.inr (.inr ?_))⟩
  · intro m hm
    simp only [List.mem_map, mem_stableSort] at hm
    obtain ⟨record, hrecord, rfl⟩ := hm
    exact .inr (.inr ⟨record, hrecord, rfl⟩)
  · simp only [List.flatMap_map, List.map_map, memoryDraft]
    exact (List.map_eq_flatMap).symm
  · simp [MaterializedBlock.empty, memoryDraft, List.flatMap_map]
  · simp

theorem materializeSource_sourced {i : Nat} {src : MaterializedBlock}
    (h : materializeSource est lib request block (.empty block i) = .ok src) :
    Sourced est lib request block i src := by
  unfold materializeSource at h
  cases hs : block.source <;> simp only [hs] at h
  case characterField => cases h; exact sourced_default (.inr ⟨_, rfl⟩)
  case selectedKnowledge => cases h; exact sourced_knowledge
  case selectedMemory => cases h; exact sourced_memory
  case userPersona =>
    cases h
    refine sourced_default ?_
    cases request.context.persona with
    | none => exact .inl rfl
    | some persona => exact .inr ⟨_, rfl⟩
  case history =>
    rw [bind_eq_ok] at h
    obtain ⟨messages, hm, h⟩ := h
    cases h
    exact sourced_history hm
  case template =>
    simp only [bind_eq_ok] at h
    obtain ⟨_, -, _, -, h⟩ := h
    cases h
    exact sourced_default (.inr ⟨_, rfl⟩)
  case latestUser =>
    rw [bind_eq_ok] at h
    obtain ⟨latest, -, h⟩ := h
    cases h
    exact ⟨rfl, rfl, by simp [latestUserDraft], rfl, .inl rfl, rfl, .inl rfl,
      .inl (Nat.le_refl _)⟩
  all_goals
    rw [bind_eq_ok] at h
    obtain ⟨_, -, h⟩ := h
    cases h
    exact sourced_default (.inr ⟨_, rfl⟩)

/-! ## Materialized blocks -/

/-- What holds of every materialized block of an accepted request. -/
structure Materialized (est : TokenEstimator) (lib : Externals) (request : PromptResolveRequest)
    (i : Nat) (block : PromptBlock) (b : MaterializedBlock) : Prop where
  sameBlock : b.block = block
  originalIndex : b.originalIndex = i
  nonempty : ∀ m ∈ b.messages, m.content ≠ ""
  provenance : ∀ m ∈ b.messages, m.provenance = block.provenance ∨
    (∃ entry ∈ request.context.selectedKnowledge, m.provenance = entry.provenance) ∨
      ∃ record ∈ request.context.selectedMemory, m.provenance = record.provenance
  memoryIds : (b.messages.flatMap (·.sourceMemoryRecordIds)).Sublist
    (b.memoryEvidence.map (·.recordId))
  memoryEvidence : b.memoryEvidence = [] ∨ b.memoryEvidence =
    (stableSort memoryLe request.context.selectedMemory).map (memoryEvidenceOf est lib)
  origins : (b.messages.flatMap (·.origins)).Sublist (b.knowledgeEvidence.map (·.entryId))
  knowledgeEvidence : b.knowledgeEvidence = [] ∨ b.knowledgeEvidence =
    (knowledgeEntries request.context block).map (knowledgeEvidenceOf est)
  length : b.messages.length ≤ maxHistoryMessages

theorem Sourced.length_le {i : Nat} {src : MaterializedBlock}
    (hreq : AcceptedRequest lib request) (h : Sourced est lib request block i src) :
    src.messages.length ≤ maxHistoryMessages := by
  have h1 := hreq.messageCount
  have h2 := hreq.knowledgeCount
  have h3 := hreq.memoryCount
  have h4 := h.length
  unfold maxHistoryMessages maxKnowledgeEntries maxMemoryRecords at *
  omega

/-- **Every materialized block.** -/
theorem materializeBlock_materialized {i : Nat} {b : MaterializedBlock}
    (hreq : AcceptedRequest lib request)
    (h : materializeBlock est lib request i block = .ok b) :
    Materialized est lib request i block b := by
  cases materializeBlock_cases h with
  | skipped => exact ⟨rfl, rfl, by simp [MaterializedBlock.empty], by simp [MaterializedBlock.empty],
      .refl _, .inl rfl, .refl _, .inl rfl, Nat.zero_le _⟩
  | noContent src _ _ source he =>
    have hs := materializeSource_sourced source
    exact ⟨hs.sameBlock, hs.originalIndex, by simp [he], by simp [he], by simp [he],
      hs.memoryEvidence, by simp [he], hs.knowledgeEvidence, by simp [he]⟩
  | finished src _ source finish =>
    have hs := materializeSource_sourced source
    obtain ⟨-, -, -, hb, hi, hk, hm⟩ := finishBlock_cases finish
    exact {
      sameBlock := hb.trans hs.sameBlock
      originalIndex := hi.trans hs.originalIndex
      nonempty := finishBlock_nonempty finish
      provenance := finishBlock_forall finish (fun a _ ha _ _ => ha)
        (fun m m' hm hr => by obtain ⟨_, rfl⟩ := hr; exact hm) hs.provenance
      memoryIds := by
        rw [hm, ← hs.memoryIds]
        exact finishBlock_flatMap_sublist (fun _ _ => rfl)
          (fun m m' hr => by obtain ⟨_, rfl⟩ := hr; rfl) finish
      memoryEvidence := by rw [hm]; exact hs.memoryEvidence
      origins := by
        rw [hk, ← hs.origins]
        exact finishBlock_flatMap_sublist (fun _ _ => rfl)
          (fun m m' hr => by obtain ⟨_, rfl⟩ := hr; rfl) finish
      knowledgeEvidence := by rw [hk]; exact hs.knowledgeEvidence
      length := (finishBlock_length finish).trans (hs.length_le hreq) }

/-- Every draft of a knowledge block comes from an entry. -/
theorem materializeBlock_origins {i : Nat} {b : MaterializedBlock}
    (h : materializeBlock est lib request i block = .ok b)
    (hsource : block.source = .selectedKnowledge) : ∀ m ∈ b.messages, m.origins ≠ [] := by
  cases materializeBlock_cases h with
  | skipped => simp [MaterializedBlock.empty]
  | noContent _ _ _ _ he => simp [he]
  | finished src _ source finish =>
    refine finishBlock_forall finish (fun a b ha _ _ he => ha ?_) ?_ ?_
    · exact (List.append_eq_nil_iff.1 he).1
    · rintro m _ hm ⟨_, rfl⟩
      exact hm
    · simp only [materializeSource, hsource] at source
      cases source
      simp [knowledgeDraft]

/-- The latest-user block gives the latest user message as it is, or nothing. -/
theorem materializeBlock_latest {i : Nat} {b : MaterializedBlock} {latest : PromptConversationMessage}
    (h : materializeBlock est lib request i block = .ok b) (hblock : LatestUserBlock block)
    (hlatest : request.context.latest = some latest) (hne : latest.content ≠ "") :
    b.messages = [] ∨ b.messages = [latestUserDraft block latest] := by
  have hsrc : ∀ {src : MaterializedBlock},
      materializeSource est lib request block (.empty block i) = .ok src →
        src.messages = [latestUserDraft block latest] := by
    intro src hs
    simp only [materializeSource, hblock.source, hlatest, okOr, ok_bind] at hs
    cases hs
    rfl
  cases materializeBlock_cases h with
  | skipped => exact .inl rfl
  | noContent src _ _ source he =>
    rw [hsrc source] at he
    cases he
  | finished src _ source finish =>
    obtain ⟨rendered, hr, hm, -⟩ := finishBlock_cases finish
    rw [hsrc source] at hr
    simp only [mergeBefore, hblock.template, Option.isSome_none, Bool.and_false,
      Bool.false_eq_true, if_false, applyBlockTemplate, hblock.source, reduceCtorEq] at hr
    cases hr
    have hk : [latestUserDraft block latest].filter (fun m => !m.content.isEmpty) =
        [latestUserDraft block latest] := by
      simpa [latestUserDraft] using hne
    refine .inr ?_
    rw [hm, hk]
    unfold mergeAfter
    split <;> rfl

end LorePia
