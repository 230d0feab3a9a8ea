import LorePia.Orchestration.Proof.Roles

/-!
# More budget never costs a block tokens

Two runs of the budget loop for budgets `a ≤ a'`, from the same blocks. The invariant (`Ahead`): both
totals are the exact sums, the second run's excess is at most the first's, every block has at least
as many tokens in the second run, and the blocks still to be visited are the same in both. One
round keeps it (`budgetStep_mono`): when the protected floor decides the second target it decides
the first one too, and then both runs do the same; otherwise the second run's excess is used up.
-/

namespace LorePia

open Base

variable {est : TokenEstimator} {request : PromptResolveRequest}

/-! ## One reduction -/

theorem estimatedTokensWith_mono {b c : MaterializedBlock}
    (h : draftSum est b.messages ≤ draftSum est c.messages) :
    b.estimatedTokensWith est ≤ c.estimatedTokensWith est := by
  rw [UInt32.le_iff_toNat_le, estimatedTokensWith_toNat, estimatedTokensWith_toNat]
  omega

/-- A larger target that still forces a reduction succeeds too, and leaves at least as much. -/
theorem reduceBlock_mono (law : est.Lawful) {t t' : UInt32} {b r : MaterializedBlock} (ht : t ≤ t')
    (hover : t' < b.estimatedTokensWith est) (h : reduceBlock est request b t = .ok r) :
    ∃ r', reduceBlock est request b t' = .ok r' ∧
      r.estimatedTokensWith est ≤ r'.estimatedTokensWith est := by
  have hnot : ¬ b.estimatedTokensWith est ≤ t' := UInt32.not_le.2 hover
  unfold reduceBlock
  rw [if_neg hnot]
  cases reduceBlock_reduced h with
  | unchanged fits => exact absurd (UInt32.le_trans fits ht) hnot
  | cut messages status why above heq =>
    obtain ⟨messages', heq', hle⟩ := cutMessages_mono law ht heq
    cases hp : b.block.overflowPolicy <;> rw [hp] at heq' <;>
      simp only [cutMessages, Option.some.injEq, reduceCtorEq] at heq' <;> subst heq' <;>
      exact ⟨_, rfl, estimatedTokensWith_mono hle⟩
  | summarized summary status why above policy source shorter fits =>
    simp only [policy, summarizeBlock, source, okOr, ok_bind]
    have hrej : ¬ (est.estimateMessage summary ≥ b.estimatedTokensWith est ∨
        est.estimateMessage summary > t') := by
      rw [not_or, ge_iff_le, gt_iff_lt, UInt32.not_le, UInt32.not_lt]
      exact ⟨shorter, UInt32.le_trans fits ht⟩
    refine ⟨_, bind_eq_ok.2 ⟨(), rejectIf_eq_ok.2 hrej, rfl⟩, ?_⟩
    rw [summary_tokens, summary_tokens]
    exact UInt32.le_refl _
  | popped k status why above policy heq lt fits =>
    obtain ⟨k', hk', -, hexit⟩ := popEntries_spec est t' _ b (Nat.le_refl _)
    obtain ⟨j, hj⟩ := popEntries_mono est ht b.messages.length b (Nat.le_refl _)
    rw [heq, hk'] at hj
    -- the shorter run ends in a prefix of the longer one's block
    have hle : (b.popped k).estimatedTokensWith est ≤ (b.popped k').estimatedTokensWith est := by
      rw [hj]
      exact popped_tokens_le _ _
    have hfits : (b.popped k').estimatedTokensWith est ≤ t' := by
      rcases hexit with hone | hfits
      · have hsame : ((b.popped k').popped j).messages = (b.popped k').messages := by
          -- at most one message is left, and the loop never pops the last one
          have hlen : (b.popped k).messages.length ≠ 0 := by
            have := List.length_pos_iff.2 (messages_ne_nil_of_lt hover)
            simp only [MaterializedBlock.popped, List.length_take]
            omega
          rw [hj] at hlen
          simp only [MaterializedBlock.popped, List.length_take] at hlen hone ⊢
          exact List.take_of_length_le (by simp only [List.length_take]; omega)
        have htok : (b.popped k).estimatedTokensWith est = (b.popped k').estimatedTokensWith est := by
          rw [hj]
          simp only [MaterializedBlock.estimatedTokensWith, hsame]
        rw [← htok]
        exact UInt32.le_trans fits ht
      · exact hfits
    simp only [policy, reduceKnowledgeEntries, hk']
    refine ⟨_, bind_eq_ok.2 ⟨(), rejectIf_eq_ok.2 (UInt32.not_lt.2 hfits), rfl⟩, ?_⟩
    exact hle

/-! ## One round -/

/-- What a round makes of a total that counts the block. -/
theorem budgetStep_total (law : est.Lawful) {a total s : UInt32} {b c : MaterializedBlock}
    (hb : b.estimatedTokensWith est ≤ total) (h : budgetStep est request a b total = .ok (c, s)) :
    c.estimatedTokensWith est ≤ b.estimatedTokensWith est ∧
      s.toNat + (b.estimatedTokensWith est).toNat =
        total.toNat + (c.estimatedTokensWith est).toNat := by
  rw [UInt32.le_iff_toNat_le] at hb
  rcases budgetStep_cases h with ⟨-, rfl, rfl⟩ | ⟨-, r, hr, rfl, rfl⟩
  · exact ⟨UInt32.le_refl _, rfl⟩
  · have hle := (reduceBlock_reduced hr).tokens_le law
    refine ⟨hle, ?_⟩
    rw [UInt32.le_iff_toNat_le] at hle
    rw [toNat_satSub, toNat_satSub, pushOverflow_tokens]
    omega

/-- **One round of the two runs.** -/
theorem budgetStep_mono (law : est.Lawful) {a a' total total' s : UInt32} {b c : MaterializedBlock}
    (hb : b.estimatedTokensWith est ≤ total) (hb' : b.estimatedTokensWith est ≤ total')
    (hover : a' < total') (hexc : total'.toNat - a'.toNat ≤ total.toNat - a.toNat)
    (h : budgetStep est request a b total = .ok (c, s)) :
    ∃ c' s', budgetStep est request a' b total' = .ok (c', s') ∧
      c.estimatedTokensWith est ≤ c'.estimatedTokensWith est ∧
        s'.toNat - a'.toNat ≤ s.toNat - a.toNat := by
  have htot := budgetStep_total law hb h
  rcases budgetStep_cases h with ⟨hs, rfl, rfl⟩ | ⟨hs, r, hr, rfl, -⟩
  · exact ⟨c, total', by rw [budgetStep, hs]; rfl, UInt32.le_refl _, hexc⟩
  · rw [UInt32.lt_iff_toNat_lt] at hover
    have hpos : 0 < (b.estimatedTokensWith est).toNat := by
      simp only [budgetSkips, Bool.or_eq_false_iff, decide_eq_false_iff_not] at hs
      have h0 : ¬ (b.estimatedTokensWith est).toNat = (0 : UInt32).toNat :=
        fun h0 => hs.1 (u32_ext h0)
      have hz : (0 : UInt32).toNat = 0 := rfl
      omega
    have hT : (budgetTarget est b total a).toNat =
        max ((b.estimatedTokensWith est).toNat - (total.toNat - a.toNat))
          (protectedTokens b.block.tokenPolicy).toNat := by
      rw [budgetTarget, toNat_max, toNat_satSub, toNat_satSub]
    have hT' : (budgetTarget est b total' a').toNat =
        max ((b.estimatedTokensWith est).toNat - (total'.toNat - a'.toNat))
          (protectedTokens b.block.tokenPolicy).toNat := by
      rw [budgetTarget, toNat_max, toNat_satSub, toNat_satSub]
    -- the second run's reduction, and why its excess is no larger afterwards
    have key : ∃ r', reduceBlock est request b (budgetTarget est b total' a') = .ok r' ∧
        r.estimatedTokensWith est ≤ r'.estimatedTokensWith est ∧
          (r' = r ∨ (r'.estimatedTokensWith est).toNat ≤
            (b.estimatedTokensWith est).toNat - (total'.toNat - a'.toNat)) := by
      by_cases hfloor : (b.estimatedTokensWith est).toNat - (total'.toNat - a'.toNat) ≤
          (protectedTokens b.block.tokenPolicy).toNat
      · have he : budgetTarget est b total' a' = budgetTarget est b total a := by
          refine u32_ext ?_
          rw [hT, hT']
          omega
        rw [he]
        exact ⟨r, hr, UInt32.le_refl _, .inl rfl⟩
      · have hle : budgetTarget est b total a ≤ budgetTarget est b total' a' := by
          rw [UInt32.le_iff_toNat_le, hT, hT']
          omega
        have hlt : budgetTarget est b total' a' < b.estimatedTokensWith est := by
          rw [UInt32.lt_iff_toNat_lt, hT']
          omega
        obtain ⟨r', hr', hmono⟩ := reduceBlock_mono law hle hlt hr
        have hfit := UInt32.le_iff_toNat_le.1 ((reduceBlock_reduced hr').fits law)
        rw [hT'] at hfit
        exact ⟨r', hr', hmono, .inr (by omega)⟩
    obtain ⟨r', hr', hmono, hcase⟩ := key
    have hstep' : budgetStep est request a' b total' =
        .ok (r'.pushOverflow est (b.estimatedTokensWith est) globalBudgetApplied,
          satSub total' (satSub (b.estimatedTokensWith est) (r'.estimatedTokensWith est))) := by
      rw [budgetStep, hs]
      simp only [Bool.false_eq_true, if_false, hr', ok_bind]
      rfl
    refine ⟨_, _, hstep', hmono, ?_⟩
    have htot' := (budgetStep_total law hb' hstep').2
    have hsum := htot.2
    rw [UInt32.le_iff_toNat_le] at hb hb'
    have hself := UInt32.le_iff_toNat_le.1 ((reduceBlock_reduced hr').tokens_le law)
    have hself' := UInt32.le_iff_toNat_le.1 ((reduceBlock_reduced hr).tokens_le law)
    simp only [pushOverflow_tokens] at htot' hsum
    rcases hcase with rfl | hcase <;> omega

/-! ## The two loops -/

/-- The exact token sum of some blocks. -/
def blockSum (est : TokenEstimator) (blocks : List MaterializedBlock) : Nat :=
  exactSum (blocks.map (·.estimatedTokensWith est))

theorem blockSum_set (est : TokenEstimator) : ∀ {blocks : List MaterializedBlock} {i : Nat}
    {b : MaterializedBlock}
    (c : MaterializedBlock), blocks[i]? = some b →
      blockSum est (blocks.set i c) + (b.estimatedTokensWith est).toNat =
        blockSum est blocks + (c.estimatedTokensWith est).toNat
  | [], _, _, _, h => by simp at h
  | d :: blocks, 0, b, c, h => by
    simp only [List.getElem?_cons_zero, Option.some.injEq] at h
    subst h
    simp only [List.set_cons_zero, blockSum, List.map_cons, exactSum_cons]
    omega
  | d :: blocks, i + 1, b, c, h => by
    have ih := blockSum_set est c (show blocks[i]? = some b by simpa using h)
    simp only [blockSum, List.set_cons_succ, List.map_cons, exactSum_cons] at ih ⊢
    omega

theorem tokens_le_blockSum : ∀ {blocks : List MaterializedBlock} {i : Nat} {b : MaterializedBlock},
    blocks[i]? = some b → (b.estimatedTokensWith est).toNat ≤ blockSum est blocks
  | [], _, _, h => by simp at h
  | d :: blocks, 0, b, h => by
    simp only [List.getElem?_cons_zero, Option.some.injEq] at h
    subst h
    simp only [blockSum, List.map_cons, exactSum_cons]
    omega
  | d :: blocks, i + 1, b, h => by
    have ih : (b.estimatedTokensWith est).toNat ≤ blockSum est blocks :=
      tokens_le_blockSum (i := i) (by simpa using h)
    simp only [blockSum, List.map_cons, exactSum_cons] at ih ⊢
    omega

/-- Block by block, no more tokens in `l` than in `l'`. -/
def TokensLe (est : TokenEstimator) (l l' : List MaterializedBlock) : Prop :=
  l.length = l'.length ∧ ∀ (i : Nat) (b b' : MaterializedBlock), l[i]? = some b →
    l'[i]? = some b' → b.estimatedTokensWith est ≤ b'.estimatedTokensWith est

theorem TokensLe.set {l l' : List MaterializedBlock} (h : TokensLe est l l') {i : Nat}
    {c c' : MaterializedBlock} (hc : c.estimatedTokensWith est ≤ c'.estimatedTokensWith est) :
    TokensLe est (l.set i c) (l'.set i c') := by
  refine ⟨by simp [h.1], fun j b b' hb hb' => ?_⟩
  by_cases hj : i = j
  · subst hj
    rw [List.getElem?_set] at hb hb'
    simp only [if_true] at hb hb'
    split at hb <;> split at hb' <;> simp_all
  · rw [List.getElem?_set_ne hj] at hb hb'
    exact h.2 j b b' hb hb'

/-- A run leaves no block with more tokens. -/
theorem budgetLoop_shrinks (law : est.Lawful) {a total s : UInt32} {idxs : List Nat}
    {blocks final : List MaterializedBlock} (hnd : idxs.Nodup)
    (h : budgetLoop est request a idxs blocks total = .ok (final, s)) :
    TokensLe est final blocks := by
  refine ⟨budgetLoop_length h, fun i c b hc hb => ?_⟩
  obtain ⟨c', hc', hbud⟩ := budgetLoop_get hnd h hb
  rw [hc, Option.some.injEq] at hc'
  subst hc'
  cases htar : loopTarget est request a i idxs blocks total with
  | none =>
    rw [htar] at hbud
    cases hbud
    exact UInt32.le_refl _
  | some t =>
    rw [htar] at hbud
    obtain ⟨r, hr, rfl⟩ := hbud
    exact (reduceBlock_reduced hr).tokens_le law

/-- The invariant of the two runs before the candidates `idxs`. -/
structure Ahead (est : TokenEstimator) (a a' : UInt32) (idxs : List Nat)
    (blocks blocks' : List MaterializedBlock) (total total' : UInt32) : Prop where
  sum : total.toNat = blockSum est blocks
  sum' : total'.toNat = blockSum est blocks'
  excess : total'.toNat - a'.toNat ≤ total.toNat - a.toNat
  tokens : TokensLe est blocks blocks'
  pending : ∀ i ∈ idxs, blocks[i]? = blocks'[i]?

/-- **The two runs, to their ends.** -/
theorem budgetLoop_mono (law : est.Lawful) {a a' : UInt32} : ∀ {idxs : List Nat}
    {blocks blocks' final : List MaterializedBlock} {total total' s : UInt32}, idxs.Nodup →
      Ahead est a a' idxs blocks blocks' total total' →
        budgetLoop est request a idxs blocks total = .ok (final, s) →
          ∃ final' s', budgetLoop est request a' idxs blocks' total' = .ok (final', s') ∧
            TokensLe est final final' ∧ s'.toNat - a'.toNat ≤ s.toNat - a.toNat
  | [], _, _, _, _, _, _, _, inv, h => by
    cases h
    exact ⟨_, _, rfl, inv.tokens, inv.excess⟩
  | index :: rest, blocks, blocks', final, total, total', s, hnd, inv, h => by
    by_cases hstop : total' ≤ a'
    · -- the second run stops here; the first can only lose more
      have hshr := budgetLoop_shrinks law hnd h
      refine ⟨blocks', total', by rw [budgetLoop, if_pos hstop], ⟨hshr.1.trans inv.tokens.1, ?_⟩, ?_⟩
      · intro i b b' hb hb'
        have hlt : i < blocks.length := by
          rw [← hshr.1]
          exact (List.getElem?_eq_some_iff.1 hb).1
        exact UInt32.le_trans (hshr.2 i b _ hb (List.getElem?_eq_getElem hlt))
          (inv.tokens.2 i _ b' (List.getElem?_eq_getElem hlt) hb')
      · rw [UInt32.le_iff_toNat_le] at hstop
        omega
    · have hgo : ¬ total ≤ a := by
        have := inv.excess
        rw [UInt32.le_iff_toNat_le] at hstop ⊢
        omega
      rw [List.nodup_cons] at hnd
      unfold budgetLoop at h ⊢
      rw [if_neg hgo] at h
      rw [if_neg hstop, ← inv.pending index List.mem_cons_self]
      split at h
      · exact budgetLoop_mono law hnd.2
          { inv with pending := fun i hi => inv.pending i (List.mem_cons_of_mem _ hi) } h
      · rename_i b hb
        have hb' := hb
        rw [inv.pending index List.mem_cons_self] at hb'
        rw [bind_eq_ok] at h
        obtain ⟨⟨c, t⟩, hstep, h⟩ := h
        have hle : b.estimatedTokensWith est ≤ total := by
          rw [UInt32.le_iff_toNat_le, inv.sum]
          exact tokens_le_blockSum hb
        have hle' : b.estimatedTokensWith est ≤ total' := by
          rw [UInt32.le_iff_toNat_le, inv.sum']
          exact tokens_le_blockSum hb'
        obtain ⟨c', t', hstep', htok, hexc⟩ :=
          budgetStep_mono law hle hle' (UInt32.not_le.1 hstop) inv.excess hstep
        have hsum := blockSum_set est c hb
        have hsum' := blockSum_set est c' hb'
        have htot := (budgetStep_total law hle hstep).2
        have htot' := (budgetStep_total law hle' hstep').2
        have inv2 : Ahead est a a' rest (blocks.set index c) (blocks'.set index c') t t' :=
          { sum := by have := inv.sum; omega
            sum' := by have := inv.sum'; omega
            excess := hexc
            tokens := inv.tokens.set htok
            pending := fun i hi => by
              have hne : index ≠ i := fun he => hnd.1 (he ▸ hi)
              rw [List.getElem?_set_ne hne, List.getElem?_set_ne hne]
              exact inv.pending i (List.mem_cons_of_mem _ hi) }
        simp only [hstep', ok_bind]
        exact budgetLoop_mono law hnd.2 inv2 h

/-- Two runs of the global budget, for a lawful estimator. -/
theorem enforceGlobalBudget_mono (law : est.Lawful) {a a' : UInt32} (ha : a ≤ a')
    {blocks final : List MaterializedBlock} (hsum : blockSum est blocks ≤ u32Max)
    (h : enforceGlobalBudget est request blocks a = .ok final) :
    ∃ final', enforceGlobalBudget est request blocks a' = .ok final' ∧
      TokensLe est final final' := by
  obtain ⟨s, hloop, hfit⟩ := enforceGlobalBudget_eq_ok.1 h
  have htotal : (totalTokens est blocks).toNat = blockSum est blocks := toNat_satSum_of_le hsum
  rw [UInt32.le_iff_toNat_le] at ha hfit
  have inv : Ahead est a a' ((budgetCandidates blocks).map (·.index)) blocks blocks
      (totalTokens est blocks) (totalTokens est blocks) :=
    { sum := htotal
      sum' := htotal
      excess := by omega
      tokens := by
        refine ⟨rfl, fun i b b' hb hb' => ?_⟩
        rw [hb, Option.some.injEq] at hb'
        exact hb' ▸ UInt32.le_refl _
      pending := fun _ _ => rfl }
  obtain ⟨final', s', hloop', htok, hexc⟩ :=
    budgetLoop_mono law (budgetCandidates_nodup blocks) inv hloop
  refine ⟨final', enforceGlobalBudget_eq_ok.2 ⟨s', hloop', ?_⟩, htok⟩
  rw [UInt32.le_iff_toNat_le]
  omega

/-- **Budget monotonicity.** If the budget `a` is met, so is every larger one, and no block ends up
with fewer tokens under it. -/
theorem enforceGlobalBudget_budget_mono (request : PromptResolveRequest)
    (blocks final : List MaterializedBlock) (a a' : UInt32)
    (hsum : exactSum (blocks.map (·.estimatedTokensWith utf8TokenEstimator)) ≤ u32Max)
    (ha : a ≤ a') (h : enforceGlobalBudget utf8TokenEstimator request blocks a = .ok final) :
    ∃ final', enforceGlobalBudget utf8TokenEstimator request blocks a' = .ok final' ∧
      final.length = final'.length ∧
        ∀ (i : Nat) (b b' : MaterializedBlock), final[i]? = some b → final'[i]? = some b' →
          b.estimatedTokensWith utf8TokenEstimator ≤ b'.estimatedTokensWith utf8TokenEstimator :=
  enforceGlobalBudget_mono utf8TokenEstimator_lawful ha hsum h

/-- A block of one note that is dropped when it does not fit. -/
def noteBlocks : List MaterializedBlock :=
  [{ MaterializedBlock.empty (sampleBlock "note" .authorNote .authorNote .presetInstruction
      .dropBlock) 0 with messages := [importedNoteDraft] }]

theorem enforceGlobalBudget_budget_mono_noteBlocks :
    ∃ final final',
      enforceGlobalBudget utf8TokenEstimator (importedRequest systemDefaultContract) noteBlocks 3 =
          .ok final ∧
        enforceGlobalBudget utf8TokenEstimator (importedRequest systemDefaultContract) noteBlocks
            7 = .ok final' ∧
          final.length = final'.length ∧
            ∀ (i : Nat) (b b' : MaterializedBlock), final[i]? = some b → final'[i]? = some b' →
              b.estimatedTokensWith utf8TokenEstimator ≤
                b'.estimatedTokensWith utf8TokenEstimator := by
  obtain ⟨final, h⟩ : ∃ final, enforceGlobalBudget utf8TokenEstimator
      (importedRequest systemDefaultContract) noteBlocks 3 = .ok final := ⟨_, rfl⟩
  obtain ⟨final', h', hfacts⟩ := enforceGlobalBudget_budget_mono
    (importedRequest systemDefaultContract) noteBlocks final 3 7 (by decide) (by decide) h
  exact ⟨final, final', h, h', hfacts⟩

end LorePia
