import LorePia.Orchestration.Proof.Roles

/-!
# Knowledge evidence and the messages it speaks about

The evidence of a knowledge block is right (`Aligned`) when an item is selected exactly if a draft
of its entry is still in the block. The proof counts: the `deficit` of a block is the number of
selected items without a draft. Materialization starts it at the number of entries rendered empty,
no reduction lowers it (`reduced_deficit`), and a reduction keeps it exactly when
`reductionKeepsEntries` says so. A block is aligned exactly when its deficit is zero
(`aligned_iff_counts`).
-/

namespace LorePia

open Base

variable {est : TokenEstimator} {lib : Externals} {request : PromptResolveRequest}

/-! ## Deselection -/

/-- An item marked as removed. -/
def deselect (evidence : KnowledgeSelectionEvidence) : KnowledgeSelectionEvidence :=
  { evidence with selected := false, exclusionReason := some removedByBudget }

theorem deselectFirst_of_unselected : ∀ {l : List KnowledgeSelectionEvidence},
    (∀ e ∈ l, e.selected = false) → deselectFirst l = l
  | [], _ => rfl
  | e :: l, h => by
    rw [List.forall_mem_cons] at h
    rw [deselectFirst, h.1, deselectFirst_of_unselected h.2]
    rfl

theorem deselectFirst_append {x : KnowledgeSelectionEvidence} (hx : x.selected = true)
    (r : List KnowledgeSelectionEvidence) : ∀ {l : List KnowledgeSelectionEvidence},
      (∀ e ∈ l, e.selected = false) → deselectFirst (l ++ x :: r) = l ++ deselect x :: r
  | [], _ => by simp [deselectFirst, hx, deselect]
  | e :: l, h => by
    rw [List.forall_mem_cons] at h
    rw [List.cons_append, deselectFirst, h.1, deselectFirst_append hx r h.2]
    rfl

/-- **`p` rounds deselect the last `p` items** of a list of selected ones. -/
theorem deselectLast_iterate {l : List KnowledgeSelectionEvidence}
    (hl : ∀ e ∈ l, e.selected = true) : ∀ p : Nat,
      deselectLast^[p] l = l.take (l.length - p) ++ (l.drop (l.length - p)).map deselect
  | 0 => by simp
  | p + 1 => by
    rw [Function.iterate_succ_apply', deselectLast_iterate hl p, deselectLast, List.reverse_append]
    have hun : ∀ e ∈ ((l.drop (l.length - p)).map deselect).reverse, e.selected = false := by
      intro e he
      simp only [List.mem_reverse, List.mem_map] at he
      obtain ⟨_, -, rfl⟩ := he
      rfl
    by_cases hp : p < l.length
    · -- the last selected item stands at position `l.length - p - 1`
      have hlt : l.length - (p + 1) < l.length := by omega
      have htake : l.take (l.length - p) =
          l.take (l.length - (p + 1)) ++ [l[l.length - (p + 1)]] := by
        rw [show l.length - p = l.length - (p + 1) + 1 by omega, List.take_succ_eq_append_getElem hlt]
      have hdrop : l.drop (l.length - (p + 1)) =
          l[l.length - (p + 1)] :: l.drop (l.length - p) := by
        rw [List.drop_eq_getElem_cons hlt]
        congr 2
        omega
      rw [htake, hdrop, List.reverse_append, List.reverse_singleton, List.singleton_append,
        deselectFirst_append (hl _ (List.getElem_mem hlt)) _ hun]
      simp
    · have h0 : l.length - p = 0 := by omega
      have h1 : l.length - (p + 1) = 0 := by omega
      rw [h0] at hun ⊢
      rw [h1, List.take_zero, List.reverse_nil, List.append_nil, deselectFirst_of_unselected hun,
        List.reverse_reverse, List.nil_append]

theorem countP_deselectFirst : ∀ l : List KnowledgeSelectionEvidence,
    (deselectFirst l).countP (·.selected) = l.countP (·.selected) - 1
  | [] => rfl
  | e :: l => by
    unfold deselectFirst
    split
    · rename_i he
      simp [he]
    · rename_i he
      simp [he, countP_deselectFirst l]

theorem countP_deselectLast_iterate (l : List KnowledgeSelectionEvidence) : ∀ p : Nat,
    (deselectLast^[p] l).countP (·.selected) = l.countP (·.selected) - p
  | 0 => rfl
  | p + 1 => by
    rw [Function.iterate_succ_apply', deselectLast, List.countP_reverse, countP_deselectFirst,
      List.countP_reverse, countP_deselectLast_iterate l p]
    omega

/-! ## Entries and the deficit -/

/-- The entries that still have a draft. -/
def MaterializedBlock.entries (b : MaterializedBlock) : List KnowledgeEntryId :=
  b.messages.flatMap (·.origins)

/-- An item is selected exactly when its entry still has a draft. -/
def Aligned (b : MaterializedBlock) : Prop :=
  ∀ e ∈ b.knowledgeEvidence, e.selected = true ↔ e.entryId ∈ b.entries

/-- The number of selected items. -/
def MaterializedBlock.selectedCount (b : MaterializedBlock) : Nat :=
  b.knowledgeEvidence.countP (·.selected)

/-- A reduction to `t` tokens takes away no entry without deselecting it: it is not needed, or it
cuts texts only, or it pops messages of one entry each. -/
def reductionKeepsEntries (est : TokenEstimator) (b : MaterializedBlock) (t : UInt32) : Bool :=
  b.estimatedTokensWith est ≤ t ||
    match b.block.overflowPolicy with
    | .reject => true
    | .dropBlock | .summarize => false
    | .trimHead => (trimMessages est .head b.messages t).length = b.messages.length
    | .trimTail => (trimMessages est .tail b.messages t).length = b.messages.length
    | .keepLatestItems => (keepLatestItems est b.messages t).length = b.messages.length
    | .reduceKnowledgeEntries =>
      (b.messages.drop (popEntries est t b.messages.length b).messages.length).all
        (·.origins.length = 1)

/-- Every message has an entry, unless the block was summarized. -/
def Entried (est : TokenEstimator) (request : PromptResolveRequest) (b : MaterializedBlock) : Prop :=
  (∀ m ∈ b.messages, m.origins ≠ []) ∨
    (b.block.overflowPolicy = .summarize ∧ ∃ s, request.context.conversationSummary = some s ∧
      b.estimatedTokensWith est = est.estimateMessage s)

theorem length_le_flatMap_origins : ∀ {l : List DraftMessage}, (∀ m ∈ l, m.origins ≠ []) →
    l.length ≤ (l.flatMap (·.origins)).length
  | [], _ => Nat.le_refl _
  | m :: l, h => by
    rw [List.forall_mem_cons] at h
    have := length_le_flatMap_origins h.2
    have := List.length_pos_iff.2 h.1
    simp only [List.flatMap_cons, List.length_append, List.length_cons]
    omega

/-- As many origins as messages: one each. -/
theorem length_eq_flatMap_origins : ∀ {l : List DraftMessage}, (∀ m ∈ l, m.origins ≠ []) →
    ((l.flatMap (·.origins)).length = l.length ↔ l.all (·.origins.length = 1) = true)
  | [], _ => by simp
  | m :: l, h => by
    rw [List.forall_mem_cons] at h
    have hle := length_le_flatMap_origins h.2
    have hpos := List.length_pos_iff.2 h.1
    rw [List.all_cons, Bool.and_eq_true, ← length_eq_flatMap_origins h.2, decide_eq_true_eq]
    simp only [List.flatMap_cons, List.length_append, List.length_cons]
    omega

theorem forall₂_shortened_flatMap : ∀ {l l' : List DraftMessage}, List.Forall₂ Shortened l l' →
    l'.flatMap (·.origins) = l.flatMap (·.origins)
  | _, _, .nil => rfl
  | _, _, .cons ⟨⟨_, rfl⟩, _⟩ hs => by
    rw [List.flatMap_cons, List.flatMap_cons, forall₂_shortened_flatMap hs]

/-- A part of the messages has all their entries exactly when it is the whole. -/
theorem origins_split {l l₁ l₂ : List DraftMessage} (hl : l.Perm (l₁ ++ l₂))
    (horig : ∀ m ∈ l, m.origins ≠ []) :
    (l₁.flatMap (·.origins)).length = (l.flatMap (·.origins)).length ↔ l₁.length = l.length := by
  have h2 : l₂.length ≤ (l₂.flatMap (·.origins)).length :=
    length_le_flatMap_origins fun m hm => horig m (hl.mem_iff.2 (List.mem_append_right _ hm))
  have hlen := hl.length_eq
  have hsum := (hl.flatMap_right (·.origins)).length_eq
  rw [List.flatMap_append, List.length_append] at hsum
  rw [List.length_append] at hlen
  constructor
  · intro he
    omega
  · intro he
    have hnil : l₂ = [] := List.length_eq_zero_iff.1 (by omega)
    subst hnil
    simpa using hsum.symm

/-- The entries of a cut block, and when it loses none. -/
theorem cutMessages_origins {policy : OverflowPolicy} {l l' : List DraftMessage} {t : UInt32}
    (h : cutMessages est policy l t = some l') (horig : ∀ m ∈ l, m.origins ≠ []) :
    (l'.flatMap (·.origins)).Sublist (l.flatMap (·.origins)) ∧
      ((l'.flatMap (·.origins)).length = (l.flatMap (·.origins)).length ↔
        l'.length = l.length) := by
  rcases cutMessages_shortened h with ⟨k, -, hf⟩ | ⟨k, -, hf⟩
  · rw [forall₂_shortened_flatMap hf, ← hf.length_eq]
    refine ⟨flatMap_sublist _ (List.take_sublist k l), ?_⟩
    exact origins_split (show l.Perm (l.take k ++ l.drop k) by rw [List.take_append_drop]) horig
  · have hf' : List.Forall₂ Shortened (l.drop (l.length - k)) l' := by
      rw [← List.forall₂_reverse_iff, ← List.take_reverse]
      exact hf
    rw [forall₂_shortened_flatMap hf', ← hf'.length_eq]
    refine ⟨flatMap_sublist _ (List.drop_sublist _ l), ?_⟩
    have hperm : l.Perm (l.drop (l.length - k) ++ l.take (l.length - k)) := by
      conv => lhs; rw [← List.take_append_drop (l.length - k) l]
      exact List.perm_append_comm
    exact origins_split hperm horig

/-! ## One reduction -/

/-- The evidence and the entries after a reduction. -/
theorem reduced_shape {t : UInt32} {b b' : MaterializedBlock} (h : Reduced est request t b b')
    (hent : Entried est request b) :
    (b.block.overflowPolicy = .reduceKnowledgeEntries →
      ∃ p, b'.knowledgeEvidence = deselectLast^[p] b.knowledgeEvidence ∧ b'.entries <+: b.entries) ∧
    (b.block.overflowPolicy ≠ .reduceKnowledgeEntries →
      b'.knowledgeEvidence = b.knowledgeEvidence ∧ b'.entries.Sublist b.entries) := by
  cases h with
  | unchanged => exact ⟨fun _ => ⟨0, rfl, List.prefix_refl _⟩, fun _ => ⟨rfl, .refl _⟩⟩
  | cut messages _ _ _ heq =>
    constructor
    · intro hp
      rw [hp] at heq
      cases heq
    · intro _
      rcases hent with horig | ⟨hp, -⟩
      · exact ⟨rfl, (cutMessages_origins heq horig).1⟩
      · rw [hp] at heq
        cases heq
  | summarized summary _ _ _ policy =>
    refine ⟨fun hp => ?_, fun _ => ⟨rfl, List.nil_sublist _⟩⟩
    rw [hp] at policy
    cases policy
  | popped k _ _ _ policy =>
    refine ⟨fun _ => ⟨k, rfl, ?_⟩, fun hp => absurd policy hp⟩
    show (List.flatMap _ (b.messages.take _)) <+: _
    rw [MaterializedBlock.entries]
    conv => rhs; rw [← List.take_append_drop (b.messages.length - k) b.messages]
    rw [List.flatMap_append]
    exact List.prefix_append _ _

/-- **No reduction lowers the deficit, and `reductionKeepsEntries` decides whether it is kept.** -/
theorem reduced_deficit {t : UInt32} {b b' : MaterializedBlock} (h : Reduced est request t b b')
    (hent : Entried est request b) (hle : b.entries.length ≤ b.selectedCount) :
    b.selectedCount + b'.entries.length ≤ b'.selectedCount + b.entries.length ∧
      (b.selectedCount + b'.entries.length = b'.selectedCount + b.entries.length ↔
        reductionKeepsEntries est b t = true) ∧ Entried est request b' := by
  cases h with
  | unchanged fits =>
    exact ⟨Nat.le_refl _, by simp [reductionKeepsEntries, fits], hent⟩
  | cut messages status why above heq =>
    have hno : ¬ b.estimatedTokensWith est ≤ t := UInt32.not_le.2 above
    rcases hent with horig | ⟨hp, -⟩
    · obtain ⟨hsub, hiff⟩ := cutMessages_origins heq horig
      have hlen := hsub.length_le
      refine ⟨Nat.add_le_add_left hlen _, ?_, .inl ?_⟩
      · have hkeep : reductionKeepsEntries est b t = decide (messages.length = b.messages.length) := by
          have hne := messages_ne_nil_of_lt above
          cases hp : b.block.overflowPolicy <;> rw [hp] at heq <;>
            simp only [cutMessages, Option.some.injEq, reduceCtorEq] at heq <;> subst heq <;>
            simp [reductionKeepsEntries, hno, hp]
          simpa [eq_comm] using hne
        rw [hkeep, decide_eq_true_eq, ← hiff]
        exact Nat.add_left_cancel_iff
      · intro m hm
        obtain ⟨m₀, hm₀, ⟨_, rfl⟩, -⟩ := cutMessages_mem heq hm
        exact horig m₀ hm₀
    · rw [hp] at heq
      cases heq
  | summarized summary status why above policy source shorter fits =>
    have hno : ¬ b.estimatedTokensWith est ≤ t := UInt32.not_le.2 above
    rcases hent with horig | ⟨-, s, hs, htok⟩
    · have hpos : 0 < b.entries.length :=
        (List.length_pos_iff.2 (messages_ne_nil_of_lt above)).trans_le
          (length_le_flatMap_origins horig)
      refine ⟨Nat.add_le_add_left (Nat.zero_le _) _, ?_, .inr ⟨policy, summary, source, ?_⟩⟩
      · simp only [reductionKeepsEntries, hno, policy, decide_false, Bool.or_false,
          Bool.false_eq_true, iff_false]
        intro he
        have he' : b.selectedCount + 0 = b.selectedCount + b.entries.length := he
        omega
      · exact summary_tokens b summary status why
    · -- a summarized block is never summarized again
      rw [hs, Option.some.injEq] at source
      rw [htok, source] at shorter
      exact absurd shorter (UInt32.lt_irrefl _)
  | popped k status why above policy heq lt fits =>
    have hno : ¬ b.estimatedTokensWith est ≤ t := UInt32.not_le.2 above
    rcases hent with horig | ⟨hp, -⟩
    · have hpos := List.length_pos_iff.2 (messages_ne_nil_of_lt above)
      have hmsgs := length_le_flatMap_origins horig
      have hdrop : ∀ m ∈ b.messages.drop (b.messages.length - k), m.origins ≠ [] :=
        fun m hm => horig m (List.mem_of_mem_drop hm)
      have hk : (b.messages.drop (b.messages.length - k)).length = k := by
        rw [List.length_drop]
        omega
      have hge := length_le_flatMap_origins hdrop
      have hsel : (b.popped k).selectedCount = b.selectedCount - k :=
        countP_deselectLast_iterate _ _
      have hsum : b.entries.length = (b.popped k).entries.length +
          ((b.messages.drop (b.messages.length - k)).flatMap (·.origins)).length := by
        rw [← List.length_append]
        simp only [MaterializedBlock.entries, MaterializedBlock.popped]
        rw [← List.flatMap_append, List.take_append_drop]
      have hkeep : reductionKeepsEntries est b t =
          (b.messages.drop (b.messages.length - k)).all (·.origins.length = 1) := by
        simp only [reductionKeepsEntries, hno, decide_false, Bool.false_or, policy, heq]
        simp only [MaterializedBlock.popped, List.length_take]
        congr 2
        omega
      have hone := length_eq_flatMap_origins hdrop
      rw [hk] at hone hge
      have hle' : b.messages.length ≤ b.selectedCount := hmsgs.trans hle
      refine ⟨?_, ?_, .inl fun m hm => horig m (List.mem_of_mem_take hm)⟩
      · show b.selectedCount + (b.popped k).entries.length ≤
          (b.popped k).selectedCount + b.entries.length
        omega
      · show b.selectedCount + (b.popped k).entries.length =
          (b.popped k).selectedCount + b.entries.length ↔ _
        rw [hkeep, ← hone]
        omega
    · rw [hp] at policy
      cases policy

/-! ## A block's stages -/

/-- A stage that reduces `b` to the target `t`, if it has one. -/
def Stage (est : TokenEstimator) (request : PromptResolveRequest) (t : Option UInt32)
    (b b' : MaterializedBlock) : Prop :=
  match t with
  | none => b' = b
  | some t => ∃ r, Reduced est request t b r ∧ b'.messages = r.messages ∧
      b'.knowledgeEvidence = r.knowledgeEvidence ∧ b'.block = r.block

theorem enforceBlockMaximum_stage {b b' : MaterializedBlock}
    (h : enforceBlockMaximum est request b = .ok b') :
    Stage est request b.block.tokenPolicy.maxTokens b b' := by
  unfold enforceBlockMaximum at h
  cases hmax : b.block.tokenPolicy.maxTokens with
  | none =>
    rw [hmax] at h
    cases h
    rfl
  | some maximum =>
    simp only [hmax] at h
    split at h
    · rename_i hle
      cases h
      exact ⟨b, .unchanged hle, rfl, rfl, rfl⟩
    · rw [bind_eq_ok] at h
      obtain ⟨r, hr, h⟩ := h
      rw [seq_eq_ok] at h
      cases h.2
      exact ⟨r, reduceBlock_reduced hr, rfl, rfl, rfl⟩

theorem Budgeted.stage {t : Option UInt32} {b b' : MaterializedBlock}
    (h : Budgeted est request t b b') : Stage est request t b b' := by
  cases t with
  | none => exact h
  | some t =>
    obtain ⟨r, hr, rfl⟩ := h
    exact ⟨r, reduceBlock_reduced hr, rfl, rfl, rfl⟩

/-- What a stage does to the evidence, the entries and the deficit. -/
structure StageFacts (est : TokenEstimator) (request : PromptResolveRequest) (t : Option UInt32)
    (b b' : MaterializedBlock) : Prop where
  sameBlock : b'.block = b.block
  deficit : b.selectedCount + b'.entries.length ≤ b'.selectedCount + b.entries.length
  keeps : b.selectedCount + b'.entries.length = b'.selectedCount + b.entries.length ↔
    ∀ target, t = some target → reductionKeepsEntries est b target = true
  entried : Entried est request b'
  popped : b.block.overflowPolicy = .reduceKnowledgeEntries →
    ∃ p, b'.knowledgeEvidence = deselectLast^[p] b.knowledgeEvidence ∧ b'.entries <+: b.entries
  other : b.block.overflowPolicy ≠ .reduceKnowledgeEntries →
    b'.knowledgeEvidence = b.knowledgeEvidence ∧ b'.entries.Sublist b.entries

theorem Stage.facts {t : Option UInt32} {b b' : MaterializedBlock} (h : Stage est request t b b')
    (hent : Entried est request b) (hle : b.entries.length ≤ b.selectedCount) :
    StageFacts est request t b b' := by
  cases t with
  | none =>
    cases h
    exact ⟨rfl, Nat.le_refl _, by simp, hent, fun _ => ⟨0, rfl, List.prefix_refl _⟩,
      fun _ => ⟨rfl, .refl _⟩⟩
  | some target =>
    obtain ⟨r, hr, hm, hk, hb⟩ := h
    have hentries : b'.entries = r.entries := by rw [MaterializedBlock.entries, hm]; rfl
    have hsel : b'.selectedCount = r.selectedCount := by
      rw [MaterializedBlock.selectedCount, hk]; rfl
    have htok : b'.estimatedTokensWith est = r.estimatedTokensWith est := by
      rw [MaterializedBlock.estimatedTokensWith, hm]; rfl
    obtain ⟨hdef, hiff, hent'⟩ := reduced_deficit hr hent hle
    obtain ⟨hpop, hoth⟩ := reduced_shape hr hent
    refine ⟨hb.trans hr.frame.block, ?_, ?_, ?_, ?_, ?_⟩
    · rw [hentries, hsel]
      exact hdef
    · rw [hentries, hsel, hiff]
      simp
    · unfold Entried
      rw [hm, hb, htok]
      exact hent'
    · rw [hentries, hk]
      exact hpop
    · rw [hentries, hk]
      exact hoth

/-! ## Alignment -/

/-- The evidence of a materialized block: everything selected, no entry twice. -/
theorem Materialized.evidence {i : Nat} {block : PromptBlock} {b : MaterializedBlock}
    (hreq : AcceptedRequest lib request) (h : Materialized est lib request i block b) :
    (∀ e ∈ b.knowledgeEvidence, e.selected = true ∧ e.exclusionReason = none) ∧
      (b.knowledgeEvidence.map (·.entryId)).Nodup := by
  rcases h.knowledgeEvidence with he | he <;> rw [he]
  · simp
  · refine ⟨fun e hm => ?_, ?_⟩
    · simp only [List.mem_map] at hm
      obtain ⟨_, -, rfl⟩ := hm
      exact ⟨rfl, rfl⟩
    · rw [List.map_map]
      have hperm := (stableSort_perm knowledgeLe (request.context.selectedKnowledge.filter
        fun entry => knowledgeMatchesZone entry.placement block.placementZone)).map (·.entryId)
      refine hperm.nodup_iff.2 ?_
      exact List.Nodup.sublist (List.filter_sublist.map _) hreq.uniqueKnowledge

section Counts

variable {evidence : List KnowledgeSelectionEvidence} {b : MaterializedBlock} {p : Nat}

theorem selectedCount_of (hsel : ∀ e ∈ evidence, e.selected = true)
    (hev : b.knowledgeEvidence = deselectLast^[p] evidence) :
    b.selectedCount = evidence.length - p := by
  rw [MaterializedBlock.selectedCount, hev, countP_deselectLast_iterate,
    List.countP_eq_length.2 hsel]

/-- An item of the evidence is one of the first, kept as it was, or one of the last, deselected. -/
theorem mem_deselected (hsel : ∀ e ∈ evidence, e.selected = true)
    (hev : b.knowledgeEvidence = deselectLast^[p] evidence) {e : KnowledgeSelectionEvidence} :
    e ∈ b.knowledgeEvidence ↔ e ∈ evidence.take (evidence.length - p) ∨
      ∃ e₀ ∈ evidence.drop (evidence.length - p), e = deselect e₀ := by
  rw [hev, deselectLast_iterate hsel, List.mem_append, List.mem_map]
  simp only [eq_comm]

/-- **A block is aligned exactly when it has as many entries as selected items.** -/
theorem aligned_iff_counts (hsel : ∀ e ∈ evidence, e.selected = true)
    (hnd : (evidence.map (·.entryId)).Nodup)
    (hev : b.knowledgeEvidence = deselectLast^[p] evidence)
    (hsub : b.entries.Sublist (evidence.map (·.entryId)))
    (hshape : b.selectedCount = b.entries.length →
      b.entries = (evidence.map (·.entryId)).take (evidence.length - p)) :
    Aligned b ↔ b.selectedCount = b.entries.length := by
  have hsplit : evidence.map (·.entryId) =
      (evidence.take (evidence.length - p)).map (·.entryId) ++
        (evidence.drop (evidence.length - p)).map (·.entryId) := by
    rw [← List.map_append, List.take_append_drop]
  have hdis := List.nodup_append'.1 (hsplit ▸ hnd)
  constructor
  · intro hal
    rw [selectedCount_of hsel hev]
    -- the ids of the selected items and the entries are duplicate-free lists of the same ids
    have hperm : ((evidence.take (evidence.length - p)).map (·.entryId)).Perm b.entries := by
      refine (List.perm_ext_iff_of_nodup hdis.1 (hnd.sublist hsub)).2 fun id => ⟨fun hid => ?_, fun hid => ?_⟩
      · obtain ⟨e, he, rfl⟩ := List.mem_map.1 hid
        exact (hal e ((mem_deselected hsel hev).2 (.inl he))).1 (hsel e (List.mem_of_mem_take he))
      · have hid' := hsub.subset hid
        rw [hsplit, List.mem_append] at hid'
        rcases hid' with hid' | hid'
        · exact hid'
        · obtain ⟨e, he, rfl⟩ := List.mem_map.1 hid'
          have := (hal (deselect e) ((mem_deselected hsel hev).2 (.inr ⟨e, he, rfl⟩))).2 hid
          cases this
    have hlen := hperm.length_eq
    rw [List.length_map, List.length_take] at hlen
    omega
  · intro hcount e he
    rw [hshape hcount, ← List.map_take]
    rcases (mem_deselected hsel hev).1 he with he | ⟨e₀, he₀, rfl⟩
    · exact ⟨fun _ => List.mem_map.2 ⟨e, he, rfl⟩, fun _ => hsel e (List.mem_of_mem_take he)⟩
    · refine ⟨fun h => (by cases h), fun h => ?_⟩
      exact absurd (List.mem_map.2 ⟨e₀, he₀, rfl⟩) (hdis.2.2 h)

end Counts

section Run

variable {i : Nat} {block : PromptBlock} {target : Option UInt32} {b₀ b₁ b : MaterializedBlock}

/-- **The evidence of a knowledge block is right exactly when** every entry was rendered and both
stages kept the entries. -/
theorem BlockRun.aligned_iff (hreq : AcceptedRequest lib request)
    (run : BlockRun est lib request i block target b₀ b₁ b)
    (hsource : block.source = .selectedKnowledge) :
    (∀ e ∈ b.knowledgeEvidence, e.exclusionReason.isSome = true ↔ e.selected = false) ∧
      (Aligned b ↔ (∀ e ∈ b₀.knowledgeEvidence, e.entryId ∈ b₀.entries) ∧
        (∀ t, block.tokenPolicy.maxTokens = some t → reductionKeepsEntries est b₀ t = true) ∧
          ∀ t, target = some t → reductionKeepsEntries est b₁ t = true) := by
  have hmat := materializeBlock_materialized hreq run.materialize
  obtain ⟨hev, hnd⟩ := hmat.evidence hreq
  have hsel : ∀ e ∈ b₀.knowledgeEvidence, e.selected = true := fun e he => (hev e he).1
  have hsel₀ : b₀.selectedCount = b₀.knowledgeEvidence.length := List.countP_eq_length.2 hsel
  have horig : b₀.entries.Sublist (b₀.knowledgeEvidence.map (·.entryId)) := hmat.origins
  have hlen₀ := horig.length_le
  rw [List.length_map] at hlen₀
  have f₁ := (enforceBlockMaximum_stage run.maximum).facts
    (.inl (materializeBlock_origins run.materialize hsource)) (by omega)
  have hd₁ := f₁.deficit
  have f₂ := run.budget.stage.facts f₁.entried (by omega)
  have hd₂ := f₂.deficit
  -- the evidence after both stages, and what it says about the entries once nothing is missing
  obtain ⟨p, hp, hsub, hshape⟩ : ∃ p, b.knowledgeEvidence = deselectLast^[p] b₀.knowledgeEvidence ∧
      b.entries.Sublist b₀.entries ∧
        (b₀.entries = b₀.knowledgeEvidence.map (·.entryId) →
          b.entries.length = b₀.knowledgeEvidence.length - p →
            b.entries = (b₀.knowledgeEvidence.map (·.entryId)).take
              (b₀.knowledgeEvidence.length - p)) := by
    by_cases hpol : b₀.block.overflowPolicy = .reduceKnowledgeEntries
    · obtain ⟨p₁, hp₁, hpre₁⟩ := f₁.popped hpol
      obtain ⟨p₂, hp₂, hpre₂⟩ := f₂.popped (f₁.sameBlock ▸ hpol)
      have hpre := hpre₂.trans hpre₁
      refine ⟨p₂ + p₁, by rw [hp₂, hp₁, ← Function.iterate_add_apply], hpre.sublist, ?_⟩
      intro hids hlen
      rw [← hids, ← hlen]
      exact List.prefix_iff_eq_take.1 hpre
    · obtain ⟨hk₁, hs₁⟩ := f₁.other hpol
      obtain ⟨hk₂, hs₂⟩ := f₂.other (f₁.sameBlock ▸ hpol)
      have hs := hs₂.trans hs₁
      refine ⟨0, by rw [hk₂, hk₁]; rfl, hs, ?_⟩
      intro hids hlen
      rw [Nat.sub_zero] at hlen ⊢
      rw [List.take_of_length_le (by simp), ← hids]
      exact hs.eq_of_length_le (by rw [hlen, hids, List.length_map])
  refine ⟨fun e he => ?_, ?_⟩
  · rcases (mem_deselected hsel hp).1 he with he | ⟨e₀, -, rfl⟩
    · obtain ⟨hs, hx⟩ := hev e (List.mem_of_mem_take he)
      simp [hs, hx]
    · simp [deselect]
  · have hcount := selectedCount_of hsel hp
    rw [aligned_iff_counts hsel hnd hp (hsub.trans horig) ?_]
    · have hrendered : (∀ e ∈ b₀.knowledgeEvidence, e.entryId ∈ b₀.entries) ↔
          b₀.entries.length = b₀.knowledgeEvidence.length := by
        constructor
        · intro hall
          have hsubset : b₀.knowledgeEvidence.map (·.entryId) ⊆ b₀.entries := by
            intro id hid
            obtain ⟨e, he, rfl⟩ := List.mem_map.1 hid
            exact hall e he
          have := (List.subperm_of_subset hnd hsubset).length_le
          rw [List.length_map] at this
          omega
        · intro hlen e he
          rw [horig.eq_of_length_le (by rw [List.length_map, hlen])]
          exact List.mem_map.2 ⟨e, he, rfl⟩
      have hmax : block.tokenPolicy = b₀.block.tokenPolicy := by rw [hmat.sameBlock]
      rw [hrendered, hmax, ← f₁.keeps, ← f₂.keeps]
      omega
    · intro hcounts
      refine hshape (horig.eq_of_length_le ?_) (by omega)
      rw [List.length_map]
      omega

end Run

/-! ## Plans -/

/-- The condition on block `i` of a request: every entry is rendered to some text, and neither the
block maximum nor the global budget takes an entry's message away without deselecting it. -/
def EvidenceKept (est : TokenEstimator) (lib : Externals) (request : PromptResolveRequest) (i : Nat)
    (block : PromptBlock) : Prop :=
  ∀ mats bounded b₀ b₁, materializeBlocks est lib request = .ok mats →
    boundBlocks est request mats = .ok bounded → mats[i]? = some b₀ → bounded[i]? = some b₁ →
      (∀ e ∈ b₀.knowledgeEvidence, e.entryId ∈ b₀.entries) ∧
        (∀ t, block.tokenPolicy.maxTokens = some t → reductionKeepsEntries est b₀ t = true) ∧
          ∀ t, globalTarget est request bounded request.availableTokens i = some t →
            reductionKeepsEntries est b₁ t = true

/-- **Knowledge evidence.** In every resolved plan, the evidence of a knowledge block has an
exclusion reason exactly on the unselected items; and its items are selected exactly when a message
of their entry is among the block's final messages, if and only if the block's entries are kept. -/
theorem resolve_knowledgeEvidence_iff (est : TokenEstimator) (lib : Externals)
    (request : PromptResolveRequest) (plan : ResolvedPromptPlan) (blocks : List MaterializedBlock)
    (i : Nat) (block : PromptBlock) (b : MaterializedBlock) (trace : BlockResolutionTrace)
    (h : resolve est lib request = .ok plan) (hblocks : resolveBlocks est lib request = .ok blocks)
    (hblock : request.preset.blocks[i]? = some block) (hsource : block.source = .selectedKnowledge)
    (hb : blocks[i]? = some b) (htrace : plan.trace.blocks[i]? = some trace) :
    (∀ e ∈ trace.knowledgeEvidence, e.exclusionReason.isSome = true ↔ e.selected = false) ∧
      ((∀ e ∈ trace.knowledgeEvidence, e.selected = true ↔
          e.entryId ∈ b.messages.flatMap (·.origins)) ↔
        EvidenceKept est lib request i block) := by
  obtain ⟨hvalid, final, hfinal, hseal⟩ := resolve_eq_ok.1 h
  rw [hblocks, Except.ok.injEq] at hfinal
  subst hfinal
  have hreq := validate_accepted hvalid
  obtain ⟨emitted, hash, -, -, -, rfl⟩ := sealPlan_eq_ok.1 hseal
  have htr : trace = b.trace est := by
    have : (blocks.map (·.trace est))[i]? = some trace := htrace
    rw [List.getElem?_map, hb, Option.map_some, Option.some.injEq] at this
    exact this.symm
  subst htr
  obtain ⟨mats, bounded, hm, hbd, hg⟩ := resolveBlocks_eq_ok.1 hblocks
  obtain ⟨b₀, b₁, h₀, h₁, run⟩ := stages_get hreq hm hbd hg hblock hb
  obtain ⟨hreason, hal⟩ := run.aligned_iff hreq hsource
  refine ⟨hreason, ?_⟩
  rw [show (∀ e ∈ (b.trace est).knowledgeEvidence, e.selected = true ↔
    e.entryId ∈ b.messages.flatMap (·.origins)) ↔ Aligned b from Iff.rfl, hal]
  constructor
  · rintro hkept mats' bounded' c₀ c₁ hm' hbd' hc₀ hc₁
    rw [hm, Except.ok.injEq] at hm'
    subst hm'
    rw [hbd, Except.ok.injEq] at hbd'
    subst hbd'
    rw [h₀, Option.some.injEq] at hc₀
    rw [h₁, Option.some.injEq] at hc₁
    subst hc₀ hc₁
    exact hkept
  · intro hkept
    exact hkept mats bounded b₀ b₁ hm hbd h₀ h₁

/-- A knowledge entry. -/
def loreEntry (provenance : Provenance) : SelectedKnowledge where
  entryId := "entry"
  content := "lore"
  placement := .retrievedContext
  priority := 0
  evidence := [.always]
  provenance := provenance

/-- A knowledge block that is dropped when it does not fit. -/
def loreBlock : PromptBlock :=
  sampleBlock "lore" .worldKnowledge .selectedKnowledge .retrievedContext .dropBlock

/-- The request that shows the entry. -/
def loreRequest (provenance : Provenance) (maxContextTokens : UInt32) : PromptResolveRequest :=
  sampleRequest [loreBlock] (sampleContext [loreEntry provenance] []) systemDefaultContract
    maxContextTokens

theorem resolve_knowledgeEvidence_iff_loreRequest :
    ∃ plan blocks b trace,
      resolve utf8TokenEstimator sampleExternals (loreRequest (plainProvenance .userCreated) 100) =
          .ok plan ∧
        resolveBlocks utf8TokenEstimator sampleExternals
            (loreRequest (plainProvenance .userCreated) 100) = .ok blocks ∧
        blocks[0]? = some b ∧ plan.trace.blocks[0]? = some trace ∧
          ((∀ e ∈ trace.knowledgeEvidence, e.selected = true ↔
              e.entryId ∈ b.messages.flatMap (·.origins)) ↔
            EvidenceKept utf8TokenEstimator sampleExternals
              (loreRequest (plainProvenance .userCreated) 100) 0 loreBlock) := by
  have hvalid : (loreRequest (plainProvenance .userCreated) 100).validate sampleExternals = .ok () :=
    sampleRequest_validate _ (by decide) (by decide) rfl (by decide) (by decide)
  obtain ⟨plan, blocks, hblocks, hseal, b, trace, hb, htrace⟩ : ∃ plan blocks,
      resolveBlocks utf8TokenEstimator sampleExternals
          (loreRequest (plainProvenance .userCreated) 100) = .ok blocks ∧
        sealPlan utf8TokenEstimator sampleExternals
            (loreRequest (plainProvenance .userCreated) 100) blocks = .ok plan ∧
          ∃ b trace, blocks[0]? = some b ∧ plan.trace.blocks[0]? = some trace :=
    ⟨_, _, rfl, rfl, _, _, rfl, rfl⟩
  have hplan := resolve_eq_ok.2 ⟨hvalid, blocks, hblocks, hseal⟩
  exact ⟨plan, blocks, b, trace, hplan, hblocks, hb, htrace, (resolve_knowledgeEvidence_iff utf8TokenEstimator
    sampleExternals (loreRequest (plainProvenance .userCreated) 100) plan blocks 0 loreBlock b trace
    hplan hblocks rfl rfl hb htrace).2⟩

/-- With eight tokens the block is dropped, and its evidence still says the entry is selected. -/
theorem loreRequest_dropped :
    ¬ ∀ plan blocks b trace,
      resolve utf8TokenEstimator sampleExternals (loreRequest (plainProvenance .userCreated) 8) =
          .ok plan →
        resolveBlocks utf8TokenEstimator sampleExternals
            (loreRequest (plainProvenance .userCreated) 8) = .ok blocks →
          blocks[0]? = some b → plan.trace.blocks[0]? = some trace →
            ∀ e ∈ trace.knowledgeEvidence, e.selected = true ↔
              e.entryId ∈ b.messages.flatMap (·.origins) := by
  intro hall
  have hvalid : (loreRequest (plainProvenance .userCreated) 8).validate sampleExternals = .ok () :=
    sampleRequest_validate _ (by decide) (by decide) rfl (by decide) (by decide)
  have haligned := hall _ _ _ _ (resolve_eq_ok.2 ⟨hvalid, _, rfl, rfl⟩) rfl rfl rfl _
    List.mem_cons_self
  exact absurd (haligned.1 rfl) (by decide)

end LorePia
