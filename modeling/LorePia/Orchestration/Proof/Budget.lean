import LorePia.Orchestration.Proof.Reduce

/-!
# The global budget

The budget loop visits each candidate once, so what it does to a block is one reduction for one
target, or nothing: `globalTarget` is that target and `enforceGlobalBudget_get` says so for every
position. The latest user turn is never a candidate (`globalTarget_latestUser`).
-/

namespace LorePia

open Base

variable {est : TokenEstimator} {request : PromptResolveRequest}

def globalBudgetApplied : String := "applied the global context budget"

/-! ## One round -/

/-- Everything one round can do. -/
theorem budgetStep_cases {a total total' : UInt32} {b b' : MaterializedBlock}
    (h : budgetStep est request a b total = .ok (b', total')) :
    (budgetSkips est b = true ∧ b' = b ∧ total' = total) ∨
      (budgetSkips est b = false ∧
        ∃ r, reduceBlock est request b (budgetTarget est b total a) = .ok r ∧
          b' = r.pushOverflow est (b.estimatedTokensWith est) globalBudgetApplied ∧
            total' = satSub total
              (satSub (b.estimatedTokensWith est) (r.estimatedTokensWith est))) := by
  unfold budgetStep at h
  split at h
  · rename_i hs
    cases h
    exact .inl ⟨hs, rfl, rfl⟩
  · rename_i hs
    rw [bind_eq_ok] at h
    obtain ⟨r, hr, h⟩ := h
    cases h
    exact .inr ⟨by simpa using hs, r, hr, rfl, rfl⟩

/-- The loop is also what `enforce_global_budget` does when nothing is over budget. -/
theorem enforceGlobalBudget_eq_ok {a : UInt32} {blocks final : List MaterializedBlock} :
    enforceGlobalBudget est request blocks a = .ok final ↔
      ∃ total, budgetLoop est request a ((budgetCandidates blocks).map (·.index)) blocks
        (totalTokens est blocks) = .ok (final, total) ∧ total ≤ a := by
  unfold enforceGlobalBudget
  by_cases hle : totalTokens est blocks ≤ a
  · have hstop : ∀ idxs, budgetLoop est request a idxs blocks (totalTokens est blocks) =
        .ok (blocks, totalTokens est blocks) := by
      intro idxs
      cases idxs with
      | nil => rfl
      | cons i rest => rw [budgetLoop, if_pos hle]
    simp only [hle, if_true, hstop, Except.ok.injEq, Prod.mk.injEq]
    constructor
    · rintro h
      cases h
      exact ⟨_, ⟨rfl, rfl⟩, hle⟩
    · rintro ⟨_, ⟨rfl, _⟩, _⟩
      rfl
  · simp only [hle, if_false, bind_eq_ok, rejectIf_eq_ok, gt_iff_lt, UInt32.not_lt]
    constructor
    · rintro ⟨⟨blocks', total'⟩, hloop, -, hfit, h⟩
      cases h
      exact ⟨total', hloop, hfit⟩
    · rintro ⟨total, hloop, hfit⟩
      exact ⟨(final, total), hloop, (), hfit, rfl⟩

/-! ## Candidates -/

theorem mem_budgetCandidates {blocks : List MaterializedBlock} {i : Nat}
    (h : i ∈ (budgetCandidates blocks).map (·.index)) :
    ∃ b, blocks[i]? = some b ∧ b.block.kind ≠ .latestUserTurn := by
  simp only [budgetCandidates, List.mem_map, mem_stableSort, List.mem_filter,
    decide_eq_true_eq] at h
  obtain ⟨_, ⟨⟨b, j⟩, ⟨hmem, hkind⟩, rfl⟩, rfl⟩ := h
  exact ⟨b, List.mem_zipIdx_iff_getElem?.1 hmem, hkind⟩

/-- Every block is a candidate at most once. -/
theorem budgetCandidates_nodup (blocks : List MaterializedBlock) :
    ((budgetCandidates blocks).map (·.index)).Nodup := by
  have hp := (stableSort_perm BudgetCandidate.le
    ((blocks.zipIdx.filter fun item => item.1.block.kind ≠ .latestUserTurn).map
      fun item => budgetCandidate item.1 item.2)).map (·.index)
  refine hp.nodup_iff.2 ?_
  rw [List.map_map]
  have hs : ((blocks.zipIdx.filter fun item => item.1.block.kind ≠ .latestUserTurn).map
      (fun item => item.2)).Sublist (blocks.zipIdx.map (·.2)) :=
    List.filter_sublist.map _
  refine List.Nodup.sublist hs ?_
  rw [List.zipIdx_map_snd]
  exact List.nodup_range' 1 (by omega)

/-! ## The target of a block -/

/-- The target the budget loop reduces block `i` to, if it reduces it. -/
def loopTarget (est : TokenEstimator) (request : PromptResolveRequest) (a : UInt32) (i : Nat) :
    List Nat → List MaterializedBlock → UInt32 → Option UInt32
  | [], _, _ => none
  | index :: rest, blocks, total =>
    if total ≤ a then none
    else match blocks[index]? with
      | none => loopTarget est request a i rest blocks total
      | some b =>
        if index = i then
          if budgetSkips est b then none else some (budgetTarget est b total a)
        else match budgetStep est request a b total with
          | .ok (b, total) => loopTarget est request a i rest (blocks.set index b) total
          | .error _ => none

/-- The target `enforce_global_budget` reduces block `i` to, if it reduces it. -/
def globalTarget (est : TokenEstimator) (request : PromptResolveRequest)
    (blocks : List MaterializedBlock) (a : UInt32) (i : Nat) : Option UInt32 :=
  loopTarget est request a i ((budgetCandidates blocks).map (·.index)) blocks
    (totalTokens est blocks)

/-- What the loop does to a block with the given target. -/
def Budgeted (est : TokenEstimator) (request : PromptResolveRequest) (target : Option UInt32)
    (b b' : MaterializedBlock) : Prop :=
  match target with
  | none => b' = b
  | some t => ∃ r, reduceBlock est request b t = .ok r ∧
      b' = r.pushOverflow est (b.estimatedTokensWith est) globalBudgetApplied

theorem loopTarget_mem {a t : UInt32} {i : Nat} : ∀ {idxs : List Nat}
    {blocks : List MaterializedBlock} {total : UInt32},
    loopTarget est request a i idxs blocks total = some t → i ∈ idxs
  | [], _, _, h => by simp [loopTarget] at h
  | index :: rest, blocks, total, h => by
    unfold loopTarget at h
    split at h
    · cases h
    · split at h
      · exact List.mem_cons_of_mem _ (loopTarget_mem h)
      · split at h
        · rename_i hi
          exact hi ▸ List.mem_cons_self
        · split at h
          · exact List.mem_cons_of_mem _ (loopTarget_mem h)
          · cases h

/-- The loop leaves a block alone that it will not visit. -/
theorem budgetLoop_other {a : UInt32} {i : Nat} : ∀ {idxs : List Nat}
    {blocks blocks' : List MaterializedBlock} {total total' : UInt32},
    budgetLoop est request a idxs blocks total = .ok (blocks', total') → i ∉ idxs →
      blocks'[i]? = blocks[i]?
  | [], _, _, _, _, h, _ => by cases h; rfl
  | index :: rest, blocks, blocks', total, total', h, hi => by
    unfold budgetLoop at h
    split at h
    · cases h; rfl
    · split at h
      · exact budgetLoop_other h fun hm => hi (List.mem_cons_of_mem _ hm)
      · rw [bind_eq_ok] at h
        obtain ⟨⟨b', t'⟩, -, h⟩ := h
        have hne : index ≠ i := fun he => hi (he ▸ List.mem_cons_self)
        rw [budgetLoop_other h fun hm => hi (List.mem_cons_of_mem _ hm), List.getElem?_set_ne hne]

theorem budgetLoop_length {a : UInt32} : ∀ {idxs : List Nat}
    {blocks blocks' : List MaterializedBlock} {total total' : UInt32},
    budgetLoop est request a idxs blocks total = .ok (blocks', total') →
      blocks'.length = blocks.length
  | [], _, _, _, _, h => by cases h; rfl
  | index :: rest, blocks, blocks', total, total', h => by
    unfold budgetLoop at h
    split at h
    · cases h; rfl
    · split at h
      · exact budgetLoop_length h
      · rw [bind_eq_ok] at h
        obtain ⟨⟨b', t'⟩, -, h⟩ := h
        rw [budgetLoop_length h, List.length_set]

/-- **The loop reduces each block once, for its target, or leaves it.** -/
theorem budgetLoop_get {a : UInt32} {i : Nat} : ∀ {idxs : List Nat}
    {blocks blocks' : List MaterializedBlock} {total total' : UInt32} {b : MaterializedBlock},
    idxs.Nodup → budgetLoop est request a idxs blocks total = .ok (blocks', total') →
      blocks[i]? = some b →
        ∃ b', blocks'[i]? = some b' ∧
          Budgeted est request (loopTarget est request a i idxs blocks total) b b'
  | [], _, _, _, _, b, _, h, hb => by cases h; exact ⟨b, hb, rfl⟩
  | index :: rest, blocks, blocks', total, total', b, hnd, h, hb => by
    rw [List.nodup_cons] at hnd
    unfold budgetLoop at h
    unfold loopTarget
    split at h
    · rename_i hle
      cases h
      exact ⟨b, hb, by rw [if_pos hle]; rfl⟩
    · rename_i hle
      rw [if_neg hle]
      cases hc : blocks[index]? with
      | none =>
        simp only [hc] at h
        exact budgetLoop_get hnd.2 h hb
      | some c =>
        simp only [hc, bind_eq_ok] at h ⊢
        obtain ⟨⟨c', t'⟩, hstep, h⟩ := h
        by_cases hi : index = i
        · subst hi
          rw [hc, Option.some.injEq] at hb
          subst hb
          rw [if_pos rfl]
          refine ⟨c', ?_, ?_⟩
          · rw [budgetLoop_other h hnd.1,
              List.getElem?_set_self (List.getElem?_eq_some_iff.1 hc).1]
          · rcases budgetStep_cases hstep with ⟨hs, rfl, -⟩ | ⟨hs, r, hr, rfl, -⟩
            · rw [hs]; rfl
            · rw [hs]; exact ⟨r, hr, rfl⟩
        · rw [if_neg hi, hstep]
          refine budgetLoop_get hnd.2 h ?_
          rw [List.getElem?_set_ne hi]
          exact hb

theorem enforceGlobalBudget_length {a : UInt32} {blocks final : List MaterializedBlock}
    (h : enforceGlobalBudget est request blocks a = .ok final) : final.length = blocks.length := by
  obtain ⟨total, hloop, -⟩ := enforceGlobalBudget_eq_ok.1 h
  exact budgetLoop_length hloop

/-- **What the global budget does to every block.** -/
theorem enforceGlobalBudget_get {a : UInt32} {blocks final : List MaterializedBlock} {i : Nat}
    {b : MaterializedBlock} (h : enforceGlobalBudget est request blocks a = .ok final)
    (hb : blocks[i]? = some b) :
    ∃ b', final[i]? = some b' ∧
      Budgeted est request (globalTarget est request blocks a i) b b' := by
  obtain ⟨total, hloop, -⟩ := enforceGlobalBudget_eq_ok.1 h
  exact budgetLoop_get (budgetCandidates_nodup blocks) hloop hb

/-- The latest user turn has no target. -/
theorem globalTarget_latestUser {a : UInt32} {blocks : List MaterializedBlock} {i : Nat}
    {b : MaterializedBlock} (hb : blocks[i]? = some b) (hk : b.block.kind = .latestUserTurn) :
    globalTarget est request blocks a i = none := by
  cases ht : globalTarget est request blocks a i with
  | none => rfl
  | some t =>
    obtain ⟨b', hb', hk'⟩ := mem_budgetCandidates (loopTarget_mem ht)
    rw [hb, Option.some.injEq] at hb'
    exact absurd (hb' ▸ hk) hk'

theorem Budgeted.bounded {target : Option UInt32} {b b' : MaterializedBlock}
    (h : Budgeted est request target b b') : Bounded est request b b' := by
  cases target with
  | none => cases h; exact .same
  | some t =>
    obtain ⟨r, hr, rfl⟩ := h
    exact .reduced t r _ _ hr

end LorePia
