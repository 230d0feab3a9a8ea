import LorePia.Orchestration.Resolver
import LorePia.Orchestration.Proof.Draft

/-!
# What a reduction does

`Reduced est request t b b'` says everything `reduce_block` can do to `b` for the target `t`, one
constructor per way; `reduceBlock_reduced` is the inversion, and every fact about a reduction is a
case analysis on it: the frame (`Reduced.frame`), the messages (`Reduced.mem_messages`), the tokens
(`Reduced.fits`). A block maximum is at most one reduction (`enforceBlockMaximum_bounded`).
-/

namespace LorePia

open Base

variable {est : TokenEstimator} {request : PromptResolveRequest}

/-! ## Popping knowledge entries -/

/-- The block after `k` rounds of the knowledge-entry loop. -/
def MaterializedBlock.popped (b : MaterializedBlock) (k : Nat) : MaterializedBlock :=
  { b with
    messages := b.messages.take (b.messages.length - k)
    knowledgeEvidence := deselectLast^[k] b.knowledgeEvidence }

theorem popped_zero (b : MaterializedBlock) : b.popped 0 = b := by
  simp [MaterializedBlock.popped]

theorem popped_succ {b : MaterializedBlock} {k : Nat} (hk : k < b.messages.length) :
    ({ b with
        messages := b.messages.dropLast
        knowledgeEvidence := deselectLast b.knowledgeEvidence } : MaterializedBlock).popped k =
      b.popped (k + 1) := by
  simp only [MaterializedBlock.popped, Function.iterate_succ_apply, List.dropLast_eq_take,
    List.take_take, List.length_take]
  congr 2
  omega

/-- The loop runs `k` rounds, keeps the first message and stops at its exit condition. -/
theorem popEntries_spec (est : TokenEstimator) (t : UInt32) : ∀ (fuel : Nat) (b : MaterializedBlock),
    b.messages.length ≤ fuel →
      ∃ k, popEntries est t fuel b = b.popped k ∧ (k = 0 ∨ k < b.messages.length) ∧
        (¬ (b.popped k).messages.length > 1 ∨ (b.popped k).estimatedTokensWith est ≤ t)
  | 0, b, h => by
    refine ⟨0, by rw [popped_zero]; rfl, .inl rfl, .inl ?_⟩
    rw [popped_zero]
    omega
  | fuel + 1, b, h => by
    unfold popEntries
    split
    · rename_i hc
      obtain ⟨k, hk, hlt, hexit⟩ := popEntries_spec est t fuel
        { b with
          messages := b.messages.dropLast
          knowledgeEvidence := deselectLast b.knowledgeEvidence } (by simp; omega)
      have hlt' : k + 1 < b.messages.length := by
        simp only [List.length_dropLast] at hlt
        omega
      rw [popped_succ (by omega)] at hk hexit
      exact ⟨k + 1, hk, .inr hlt', hexit⟩
    · rename_i hc
      refine ⟨0, (popped_zero b).symm, .inl rfl, ?_⟩
      rw [popped_zero]
      rw [not_and_or, gt_iff_lt, gt_iff_lt, UInt32.not_lt] at hc
      exact hc

theorem draftSum_take_le (l : List DraftMessage) (n : Nat) :
    draftSum est (l.take n) ≤ draftSum est l := by
  conv => rhs; rw [← List.take_append_drop n l, draftSum_append]
  omega

theorem popped_tokens_le (b : MaterializedBlock) (k : Nat) :
    (b.popped k).estimatedTokensWith est ≤ b.estimatedTokensWith est := by
  rw [UInt32.le_iff_toNat_le, estimatedTokensWith_toNat, estimatedTokensWith_toNat]
  have : draftSum est (b.popped k).messages ≤ draftSum est b.messages := draftSum_take_le _ _
  omega

/-- A larger target pops no more. -/
theorem popEntries_mono (est : TokenEstimator) {t t' : UInt32} (h : t ≤ t') :
    ∀ (fuel : Nat) (b : MaterializedBlock),
    b.messages.length ≤ fuel →
      ∃ k, popEntries est t fuel b = (popEntries est t' fuel b).popped k
  | 0, b, _ => ⟨0, by rw [popped_zero]; rfl⟩
  | fuel + 1, b, hf => by
    by_cases hc : b.messages.length > 1 ∧ b.estimatedTokensWith est > t'
    · have hc' : b.messages.length > 1 ∧ b.estimatedTokensWith est > t :=
        ⟨hc.1, UInt32.lt_of_le_of_lt h hc.2⟩
      unfold popEntries
      rw [if_pos hc, if_pos hc']
      exact popEntries_mono est h fuel _ (by simp; omega)
    · obtain ⟨k, hk, -⟩ := popEntries_spec est t (fuel + 1) b hf
      refine ⟨k, ?_⟩
      conv => rhs; unfold popEntries
      rw [if_neg hc]
      exact hk

/-! ## Inversion -/

/-- The policies that only cut the message list. -/
def cutMessages (est : TokenEstimator) (policy : OverflowPolicy) (messages : List DraftMessage)
    (t : UInt32) : Option (List DraftMessage) :=
  match policy with
  | .dropBlock => some []
  | .trimHead => some (trimMessages est .head messages t)
  | .trimTail => some (trimMessages est .tail messages t)
  | .keepLatestItems => some (keepLatestItems est messages t)
  | _ => none

/-- Everything `reduce_block` can do. -/
inductive Reduced (est : TokenEstimator) (request : PromptResolveRequest) (t : UInt32)
    (b : MaterializedBlock) : MaterializedBlock → Prop
  | unchanged (fits : b.estimatedTokensWith est ≤ t) : Reduced est request t b b
  | cut (messages : List DraftMessage) (status : BlockResolutionStatus) (explanation : String)
      (above : t < b.estimatedTokensWith est)
      (eq : cutMessages est b.block.overflowPolicy b.messages t = some messages) :
      Reduced est request t b
        { b with messages := messages, status := status, explanation := explanation }
  | summarized (summary : String) (status : BlockResolutionStatus) (explanation : String)
      (above : t < b.estimatedTokensWith est) (policy : b.block.overflowPolicy = .summarize)
      (source : request.context.conversationSummary = some summary)
      (shorter : est.estimateMessage summary < b.estimatedTokensWith est)
      (fits : est.estimateMessage summary ≤ t) :
      Reduced est request t b
        { b with
          messages := [summaryDraft b summary], status := status, explanation := explanation }
  | popped (k : Nat) (status : BlockResolutionStatus) (explanation : String)
      (above : t < b.estimatedTokensWith est)
      (policy : b.block.overflowPolicy = .reduceKnowledgeEntries)
      (eq : popEntries est t b.messages.length b = b.popped k) (lt : k = 0 ∨ k < b.messages.length)
      (fits : (b.popped k).estimatedTokensWith est ≤ t) :
      Reduced est request t b { b.popped k with status := status, explanation := explanation }

/-- **Inversion of `reduce_block`.** -/
theorem reduceBlock_reduced {t : UInt32} {b b' : MaterializedBlock}
    (h : reduceBlock est request b t = .ok b') : Reduced est request t b b' := by
  unfold reduceBlock at h
  split at h
  · rename_i hle
    cases h
    exact .unchanged hle
  · rename_i hlt
    rw [UInt32.not_le] at hlt
    cases hp : b.block.overflowPolicy <;> simp only [hp] at h
    case reject => cases h
    case summarize =>
      simp only [summarizeBlock, bind_eq_ok, okOr_eq_ok, rejectIf_eq_ok, not_or,
        ge_iff_le, gt_iff_lt, UInt32.not_le, UInt32.not_lt] at h
      obtain ⟨summary, hs, -, ⟨h1, h2⟩, h⟩ := h
      cases h
      exact .summarized summary _ _ hlt hp hs h1 h2
    case reduceKnowledgeEntries =>
      simp only [reduceKnowledgeEntries, bind_eq_ok, rejectIf_eq_ok, gt_iff_lt,
        UInt32.not_lt] at h
      obtain ⟨-, hfits, h⟩ := h
      cases h
      obtain ⟨k, hk, hlt', -⟩ := popEntries_spec est t _ b (Nat.le_refl _)
      rw [hk] at hfits ⊢
      exact .popped k _ _ hlt hp hk hlt' hfits
    all_goals
      cases h
      exact .cut _ _ _ hlt (by rw [hp]; rfl)

/-! ## Facts of a reduction -/

/-- The fields no reduction touches. -/
structure SameFrame (b b' : MaterializedBlock) : Prop where
  block : b'.block = b.block
  originalIndex : b'.originalIndex = b.originalIndex
  memoryEvidence : b'.memoryEvidence = b.memoryEvidence

theorem SameFrame.refl (b : MaterializedBlock) : SameFrame b b := ⟨rfl, rfl, rfl⟩

theorem SameFrame.trans {a b c : MaterializedBlock} (h : SameFrame a b) (h' : SameFrame b c) :
    SameFrame a c :=
  ⟨h'.block.trans h.block, h'.originalIndex.trans h.originalIndex,
    h'.memoryEvidence.trans h.memoryEvidence⟩

theorem Reduced.frame {t : UInt32} {b b' : MaterializedBlock} (h : Reduced est request t b b') :
    SameFrame b b' := by
  cases h <;> exact ⟨rfl, rfl, rfl⟩

/-- A block over some target has a message. -/
theorem messages_ne_nil_of_lt {t : UInt32} {b : MaterializedBlock}
    (h : t < b.estimatedTokensWith est) : b.messages ≠ [] := by
  intro he
  rw [UInt32.lt_iff_toNat_lt, estimatedTokensWith_toNat, he] at h
  simp at h

/-- The messages of a cut: shortened ones of a prefix, or of a suffix. -/
theorem cutMessages_shortened {policy : OverflowPolicy} {l l' : List DraftMessage} {t : UInt32}
    (h : cutMessages est policy l t = some l') :
    ShortenedPrefix l l' ∨ ShortenedPrefix l.reverse l'.reverse := by
  have of_prefix : ∀ {k k' : List DraftMessage}, k' <+: k → ShortenedPrefix k k' := by
    intro k k' hp
    refine ⟨k'.length, rfl, ?_⟩
    rw [← List.prefix_iff_eq_take.1 hp]
    exact List.forall₂_same.2 fun m _ => .refl m
  cases policy <;> simp only [cutMessages, Option.some.injEq, reduceCtorEq] at h <;> subst h
  case dropBlock => exact .inl (.nil _)
  case trimHead =>
    refine .inr ?_
    rw [trimMessages, List.reverse_reverse]
    exact trimLoop_shortened _ _ _
  case trimTail => exact .inl (trimLoop_shortened _ _ _)
  case keepLatestItems =>
    refine .inr ?_
    rw [keepLatestItems, List.reverse_reverse]
    exact of_prefix (keepLoop_isPrefix _ _)

theorem ShortenedPrefix.length_le {l l' : List DraftMessage} (h : ShortenedPrefix l l') :
    l'.length ≤ l.length := by
  obtain ⟨k, -, hf⟩ := h
  have := hf.length_eq
  rw [List.length_take] at this
  omega

theorem ShortenedPrefix.mem {l l' : List DraftMessage} (h : ShortenedPrefix l l')
    {m' : DraftMessage} (hm : m' ∈ l') : ∃ m ∈ l, Shortened m m' := by
  obtain ⟨k, -, hf⟩ := h
  obtain ⟨i, hi, rfl⟩ := List.getElem_of_mem hm
  have hi' : i < (l.take k).length := by rw [hf.length_eq]; exact hi
  exact ⟨(l.take k)[i], List.mem_of_mem_take (List.getElem_mem hi'), hf.get hi' hi⟩

/-- Every message of a cut is a shortened one of the list. -/
theorem cutMessages_mem {policy : OverflowPolicy} {l l' : List DraftMessage} {t : UInt32}
    (h : cutMessages est policy l t = some l') {m' : DraftMessage} (hm : m' ∈ l') :
    ∃ m ∈ l, Shortened m m' := by
  rcases cutMessages_shortened h with hp | hp
  · exact hp.mem hm
  · obtain ⟨m, hmem, hs⟩ := hp.mem (List.mem_reverse.2 hm)
    exact ⟨m, List.mem_reverse.1 hmem, hs⟩

/-- **The messages of a reduced block** are shortened messages of the block or its summary. -/
theorem Reduced.mem_messages {t : UInt32} {b b' : MaterializedBlock}
    (h : Reduced est request t b b') {m' : DraftMessage} (hm : m' ∈ b'.messages) :
    (∃ m ∈ b.messages, Shortened m m') ∨
      ∃ summary, request.context.conversationSummary = some summary ∧
        m' = summaryDraft b summary := by
  cases h with
  | unchanged => exact .inl ⟨m', hm, .refl m'⟩
  | cut messages _ _ _ heq => exact .inl (cutMessages_mem heq hm)
  | summarized summary _ _ _ _ hs => exact .inr ⟨summary, hs, by simpa using hm⟩
  | popped => exact .inl ⟨m', List.mem_of_mem_take hm, .refl m'⟩

theorem Reduced.length_le {t : UInt32} {b b' : MaterializedBlock}
    (h : Reduced est request t b b') : b'.messages.length ≤ b.messages.length := by
  cases h with
  | unchanged => exact Nat.le_refl _
  | cut messages _ _ _ heq =>
    rcases cutMessages_shortened heq with hp | hp
    · exact hp.length_le
    · simpa using hp.length_le
  | summarized _ _ _ above => exact List.length_pos_iff.2 (messages_ne_nil_of_lt above)
  | popped k => exact List.length_take_le' _ _

theorem summary_tokens (b : MaterializedBlock) (summary : String) (status : BlockResolutionStatus)
    (explanation : String) :
    ({ b with
        messages := [summaryDraft b summary], status := status,
        explanation := explanation } : MaterializedBlock).estimatedTokensWith est =
      est.estimateMessage summary := by
  refine u32_ext ?_
  have := toNat_le_u32Max (est.estimateMessage summary)
  simp only [estimatedTokensWith_toNat, draftSum_cons, draftSum_nil, summaryDraft]
  omega

theorem cutMessages_le (law : est.Lawful) {policy : OverflowPolicy} {l l' : List DraftMessage}
    {t : UInt32} (h : cutMessages est policy l t = some l') : draftSum est l' ≤ t.toNat := by
  cases policy <;> simp only [cutMessages, Option.some.injEq, reduceCtorEq] at h <;> subst h
  case dropBlock => exact Nat.zero_le _
  case trimHead => exact trimMessages_le law _ _ _
  case trimTail => exact trimMessages_le law _ _ _
  case keepLatestItems => exact keepLatestItems_le _ _

theorem cutMessages_mono (law : est.Lawful) {policy : OverflowPolicy} {l l₁ : List DraftMessage}
    {t t' : UInt32} (ht : t ≤ t') (h : cutMessages est policy l t = some l₁) :
    ∃ l₂, cutMessages est policy l t' = some l₂ ∧ draftSum est l₁ ≤ draftSum est l₂ := by
  cases policy <;> simp only [cutMessages, Option.some.injEq, reduceCtorEq] at h ⊢ <;> subst h
  case dropBlock => exact ⟨_, rfl, Nat.le_refl _⟩
  case trimHead => exact ⟨_, rfl, trimMessages_mono law _ _ ht⟩
  case trimTail => exact ⟨_, rfl, trimMessages_mono law _ _ ht⟩
  case keepLatestItems => exact ⟨_, rfl, keepLatestItems_mono _ ht⟩

/-- **A reduced block fits its target.** -/
theorem Reduced.fits (law : est.Lawful) {t : UInt32} {b b' : MaterializedBlock}
    (h : Reduced est request t b b') : b'.estimatedTokensWith est ≤ t := by
  cases h with
  | unchanged hle => exact hle
  | cut messages _ _ _ heq =>
    have := cutMessages_le law heq
    simp only [UInt32.le_iff_toNat_le, estimatedTokensWith_toNat]
    omega
  | summarized summary _ _ _ _ _ _ hfits => rw [summary_tokens]; exact hfits
  | popped k _ _ _ _ _ _ hfits => exact hfits

theorem Reduced.tokens_le (law : est.Lawful) {t : UInt32} {b b' : MaterializedBlock}
    (h : Reduced est request t b b') : b'.estimatedTokensWith est ≤ b.estimatedTokensWith est := by
  by_cases hle : b.estimatedTokensWith est ≤ t
  · cases h with
    | unchanged => exact UInt32.le_refl _
    | cut _ _ _ above => exact absurd above (UInt32.not_lt.2 hle)
    | summarized _ _ _ above => exact absurd above (UInt32.not_lt.2 hle)
    | popped _ _ _ above => exact absurd above (UInt32.not_lt.2 hle)
  · exact UInt32.le_trans (h.fits law) (UInt32.le_of_lt (UInt32.not_le.1 hle))

/-- A block with the `Reject` policy is never changed. -/
theorem Reduced.of_reject {t : UInt32} {b b' : MaterializedBlock}
    (h : Reduced est request t b b') (hp : b.block.overflowPolicy = .reject) : b' = b := by
  cases h with
  | unchanged => rfl
  | cut _ _ _ _ heq => rw [hp] at heq; cases heq
  | summarized _ _ _ _ policy => rw [hp] at policy; cases policy
  | popped _ _ _ _ policy => rw [hp] at policy; cases policy

/-! ## Block maxima -/

@[simp] theorem pushOverflow_messages (b : MaterializedBlock) (before : UInt32) (why : String) :
    (b.pushOverflow est before why).messages = b.messages := rfl

@[simp] theorem pushOverflow_block (b : MaterializedBlock) (before : UInt32) (why : String) :
    (b.pushOverflow est before why).block = b.block := rfl

@[simp] theorem pushOverflow_knowledgeEvidence (b : MaterializedBlock) (before : UInt32)
    (why : String) : (b.pushOverflow est before why).knowledgeEvidence = b.knowledgeEvidence := rfl

@[simp] theorem pushOverflow_tokens (b : MaterializedBlock) (before : UInt32) (why : String) :
    (b.pushOverflow est before why).estimatedTokensWith est = b.estimatedTokensWith est := rfl

theorem pushOverflow_frame (b : MaterializedBlock) (before : UInt32) (why : String) :
    SameFrame b (b.pushOverflow est before why) := ⟨rfl, rfl, rfl⟩

/-- `b'` is `b`, or a reduction of it with the overflow recorded. -/
inductive Bounded (est : TokenEstimator) (request : PromptResolveRequest) (b : MaterializedBlock) :
    MaterializedBlock → Prop
  | same : Bounded est request b b
  | reduced (t : UInt32) (r : MaterializedBlock) (before : UInt32) (why : String)
      (h : reduceBlock est request b t = .ok r) :
      Bounded est request b (r.pushOverflow est before why)

/-- **A block maximum is at most one reduction.** -/
theorem enforceBlockMaximum_bounded {b b' : MaterializedBlock}
    (h : enforceBlockMaximum est request b = .ok b') : Bounded est request b b' := by
  unfold enforceBlockMaximum at h
  split at h
  · cases h
    exact .same
  · simp only [] at h
    split at h
    · cases h
      exact .same
    · rw [bind_eq_ok] at h
      obtain ⟨r, hr, h⟩ := h
      rw [seq_eq_ok] at h
      cases h.2
      exact .reduced _ r _ _ hr

theorem Bounded.frame {b b' : MaterializedBlock} (h : Bounded est request b b') :
    SameFrame b b' := by
  cases h with
  | same => exact .refl b
  | reduced t r _ _ hr => exact (reduceBlock_reduced hr).frame.trans (pushOverflow_frame r _ _)

theorem Bounded.mem_messages {b b' : MaterializedBlock} (h : Bounded est request b b')
    {m' : DraftMessage} (hm : m' ∈ b'.messages) :
    (∃ m ∈ b.messages, Shortened m m') ∨
      ∃ summary, request.context.conversationSummary = some summary ∧
        m' = summaryDraft b summary := by
  cases h with
  | same => exact .inl ⟨m', hm, .refl m'⟩
  | reduced t r _ _ hr => exact (reduceBlock_reduced hr).mem_messages hm

theorem Bounded.length_le {b b' : MaterializedBlock} (h : Bounded est request b b') :
    b'.messages.length ≤ b.messages.length := by
  cases h with
  | same => exact Nat.le_refl _
  | reduced t r _ _ hr => exact (reduceBlock_reduced hr).length_le

end LorePia
