import LorePia.Orchestration.Proof.InteractionProposals

/-!
# Expiring at once and one by one

In an accepted state the pending proposals have distinct ids, so expiring the proposal with an id is a map over the
proposals (`expireIds`), and expiring the due ids one after another is the map that `expire_pending_proposals`
computes, in every order. Each step keeps the state accepted, so nothing but the revision can stop either way
(`expirePendingProposals_each`).
-/

namespace LorePia

open Base

variable {lib : Externals} {limits : InteractionLimits} {state : InteractionState} {now : Int}

/-! ## Expiring ids -/

/-- The ids of the due proposals. -/
def dueIds (now : Int) (proposals : List InteractionProposalRecord) : List String :=
  (proposals.filter (·.isDue now)).map (·.proposalId)

/-- The proposals with the pending ones of these ids expired. -/
def expireIds (now : Int) (ids : List String) (proposals : List InteractionProposalRecord) :
    List InteractionProposalRecord :=
  proposals.map fun proposal =>
    if proposal.status = .pending ∧ proposal.proposalId ∈ ids then proposal.settle .expired now else proposal

@[simp] theorem expireIds_nil (proposals : List InteractionProposalRecord) :
    expireIds now [] proposals = proposals := by
  simp [expireIds]

/-- Expiring an id and then others expires them all. -/
theorem expireIds_expireIds (id : String) (ids : List String) (proposals : List InteractionProposalRecord) :
    expireIds now ids (expireIds now [id] proposals) = expireIds now (id :: ids) proposals := by
  rw [expireIds, expireIds, expireIds, List.map_map]
  refine List.map_congr_left fun p _ => ?_
  rw [Function.comp_apply]
  by_cases hpending : p.status = .pending
  · by_cases hid : p.proposalId = id
    · simp [hpending, hid, InteractionProposalRecord.settle]
    · simp [hpending, hid]
  · simp [hpending]

/-- Pending proposals of one id are one proposal. -/
theorem pending_inj {proposals : List InteractionProposalRecord} (hnodup : (pendingProposalIds proposals).Nodup)
    {p q : InteractionProposalRecord} (hp : p ∈ proposals) (hq : q ∈ proposals) (hpp : p.status = .pending)
    (hqp : q.status = .pending) (h : p.proposalId = q.proposalId) : p = q :=
  List.inj_on_of_nodup_map hnodup (List.mem_filter.2 ⟨hp, by simpa using hpp⟩)
    (List.mem_filter.2 ⟨hq, by simpa using hqp⟩) h

/-- **The due ids expire the due proposals.** -/
theorem expireIds_due {proposals : List InteractionProposalRecord} (hnodup : (pendingProposalIds proposals).Nodup)
    {ids : List String} (hids : ids.Perm (dueIds now proposals)) :
    expireIds now ids proposals = expireDue now proposals := by
  refine List.map_congr_left fun p hp => ?_
  have hdue : p.status = .pending ∧ p.proposalId ∈ ids ↔ p.isDue now = true := by
    rw [hids.mem_iff, dueIds, List.mem_map]
    constructor
    · rintro ⟨hpending, q, hq, hid⟩
      obtain ⟨hq, hdue⟩ := List.mem_filter.1 hq
      have hqp : q.status = .pending := by
        simp only [InteractionProposalRecord.isDue, Bool.and_eq_true, decide_eq_true_eq] at hdue
        exact hdue.1
      rwa [pending_inj hnodup hp hq hpending hqp hid.symm]
    · intro hdue
      refine ⟨?_, p, List.mem_filter.2 ⟨hp, hdue⟩, rfl⟩
      simp only [InteractionProposalRecord.isDue, Bool.and_eq_true, decide_eq_true_eq] at hdue
      exact hdue.1
  simp only [hdue]

theorem dueIds_nodup {proposals : List InteractionProposalRecord} (hnodup : (pendingProposalIds proposals).Nodup) :
    (dueIds now proposals).Nodup := by
  refine hnodup.sublist ((List.monotone_filter_right proposals fun p hdue => ?_).map _)
  simp only [InteractionProposalRecord.isDue, Bool.and_eq_true] at hdue
  exact hdue.1

/-- The first pending proposal of an id is the only one. -/
theorem modify_findIdx?_eq {id : String} : ∀ {proposals : List InteractionProposalRecord} {index : Nat},
    (pendingProposalIds proposals).Nodup →
    proposals.findIdx? (fun p => p.proposalId = id && p.status = .pending) = some index →
    proposals.modify index (·.settle .expired now) = expireIds now [id] proposals
  | [], index, _, h => by simp at h
  | p :: proposals, index, hnodup, h => by
    rw [List.findIdx?_cons] at h
    have htail : (pendingProposalIds proposals).Nodup := by
      refine hnodup.sublist ?_
      exact ((List.sublist_cons_self p proposals).filter _).map _
    split at h
    · rename_i hmatch
      cases h
      rw [Bool.and_eq_true, decide_eq_true_iff, decide_eq_true_iff] at hmatch
      obtain ⟨rfl, hpending⟩ := hmatch
      -- the id does not come again
      have hrest : expireIds now [p.proposalId] proposals = proposals := by
        refine (List.map_congr_left fun q hq => ?_).trans (List.map_id _)
        refine if_neg ?_
        rintro ⟨hqp, hid⟩
        rw [pendingProposalIds, List.filter_cons_of_pos (by simpa using hpending), List.map_cons,
          List.nodup_cons] at hnodup
        refine hnodup.1 (List.mem_map.2 ⟨q, List.mem_filter.2 ⟨hq, by simpa using hqp⟩, ?_⟩)
        exact List.mem_singleton.1 hid
      have hcons : expireIds now [p.proposalId] (p :: proposals) =
          p.settle .expired now :: expireIds now [p.proposalId] proposals := by
        simp [expireIds, hpending]
      rw [hcons, hrest]
      rfl
    · rename_i hmatch
      obtain ⟨index, hindex, rfl⟩ := Option.map_eq_some_iff.1 h
      rw [List.modify_succ_cons, modify_findIdx?_eq htail hindex, expireIds, expireIds, List.map_cons, if_neg]
      rintro ⟨hpending, hid⟩
      simp [hpending, List.mem_singleton.1 hid] at hmatch

/-! ## One step -/

/-- The failure of a revision that cannot advance. -/
def revisionOverflow : InteractionFailure := ⟨.numericOverflow, "interaction state revision overflowed"⟩

theorem nextRevision_cases (state : InteractionState) :
    (state.revision.toNat < usizeMax ∧ nextRevision state = .ok (state.revision + 1)) ∨
      (state.revision.toNat = usizeMax ∧ nextRevision state = .error revisionOverflow) := by
  have hlt := state.revision.toNat_lt
  unfold nextRevision checkedSucc
  by_cases h : state.revision.toNat < usizeMax
  · rw [if_pos h]
    exact .inl ⟨h, rfl⟩
  · rw [if_neg h]
    unfold usizeMax at h ⊢
    exact .inr ⟨by omega, rfl⟩

theorem checkRevision_self (state : InteractionState) : checkRevision state state.revision = .ok () := by
  rw [checkRevision, rejectIf_eq_ok, not_not]

/-- The pending proposal of an id is found. -/
theorem findPending_of_mem (now : Int) {p : InteractionProposalRecord} (hnodup : (pendingProposalIds state.proposals).Nodup)
    (hp : p ∈ state.proposals) (hpending : p.status = .pending) :
    ∃ index, findPending state p.proposalId = .ok index ∧ state.proposals[index]? = some p ∧
      state.proposals.modify index (·.settle .expired now) = expireIds now [p.proposalId] state.proposals := by
  have hany : (state.proposals.findIdx? fun q => q.proposalId = p.proposalId && q.status = .pending).isSome := by
    rw [List.findIdx?_isSome, List.any_eq_true]
    exact ⟨p, hp, by simp [hpending]⟩
  obtain ⟨index, hindex⟩ := Option.isSome_iff_exists.1 hany
  obtain ⟨hlt, hmatch, -⟩ := List.findIdx?_eq_some_iff_getElem.1 hindex
  rw [Bool.and_eq_true, decide_eq_true_iff, decide_eq_true_iff] at hmatch
  have hat := pending_inj hnodup (List.getElem_mem hlt) hp hmatch.2 hpending hmatch.1
  refine ⟨index, okOr_eq_ok.2 hindex, ?_, modify_findIdx?_eq hnodup hindex⟩
  rw [List.getElem?_eq_getElem hlt, hat]

/-- Expired ids are moves of due proposals. -/
theorem expireIds_moves (hok : StateOk lib limits state) {p : InteractionProposalRecord} (hp : p ∈ state.proposals)
    (hdue : p.isDue now = true) :
    List.Forall₂ InteractionProposalRecord.Moves state.proposals (expireIds now [p.proposalId] state.proposals) := by
  simp only [InteractionProposalRecord.isDue, Bool.and_eq_true, decide_eq_true_eq] at hdue
  refine forall₂_map fun q hq => ?_
  split
  · rename_i hmatch
    have heq := pending_inj hok.pendingNodup hq hp hmatch.1 hdue.1 (List.mem_singleton.1 hmatch.2)
    subst heq
    obtain ⟨e, he, hle⟩ := due_iff.1 hdue.2
    have := (hok.proposals q hq).deadline e he
    exact .inr ⟨hdue.1, .expired, now, rfl, by simp, by omega, by simp [hdue.2]⟩
  · exact .inl rfl

/-- The state with some proposals at the next revision. -/
def InteractionState.advance (state : InteractionState) (proposals : List InteractionProposalRecord) :
    InteractionState :=
  { state with proposals := proposals, revision := state.revision + 1 }

theorem toNat_add_one {revision : UInt64} (h : revision.toNat < usizeMax) :
    (revision + 1).toNat = revision.toNat + 1 := by
  unfold usizeMax at h
  rw [UInt64.toNat_add]
  exact Nat.mod_eq_of_lt (by simp; omega)

theorem StateOk.advance (hok : StateOk lib limits state) (hlt : state.revision.toNat < usizeMax)
    {proposals : List InteractionProposalRecord}
    (hmoves : List.Forall₂ InteractionProposalRecord.Moves state.proposals proposals) :
    StateOk lib limits (state.advance proposals) := by
  refine hok.settle ?_ hmoves
  rw [UInt64.le_iff_toNat_le, toNat_add_one hlt]
  omega

/-- **Expiring one due proposal** of an accepted state. -/
theorem expirePendingProposal_due (hok : StateOk lib defaultInteractionLimits state) (hnow : 0 ≤ now)
    {p : InteractionProposalRecord} (hp : p ∈ state.proposals) (hdue : p.isDue now = true) :
    (state.revision.toNat < usizeMax ∧
        expirePendingProposal lib state p.proposalId state.revision now =
          .ok ⟨state.advance (expireIds now [p.proposalId] state.proposals), [p.settle .expired now]⟩) ∨
      (state.revision.toNat = usizeMax ∧
        expirePendingProposal lib state p.proposalId state.revision now = .error revisionOverflow) := by
  have hpdue := hdue
  simp only [InteractionProposalRecord.isDue, Bool.and_eq_true, decide_eq_true_eq] at hpdue
  obtain ⟨hpending, hpast⟩ := hpdue
  have hproposal := hok.proposals p hp
  obtain ⟨e, he, hle⟩ := due_iff.1 hpast
  have hdeadline := hproposal.deadline e he
  obtain ⟨index, hindex, hat, hmodify⟩ := findPending_of_mem now hok.pendingNodup hp hpending
  -- every check before the revision passes
  have hrun : expirePendingProposal lib state p.proposalId state.revision now = (do
      let revision ← nextRevision state
      let next := settleAt state index .expired now revision
      validateInteractionState lib next defaultInteractionLimits
      return ⟨next, [p.settle .expired now]⟩) := by
    have hlimits : defaultInteractionLimits.validate = .ok () := by decide
    have hrequested : rejectIf (now < p.requestedAtEpochSeconds)
        (⟨.invalidTimestamp, "proposal expiry time precedes its request time"⟩ : InteractionFailure) = .ok () :=
      rejectIf_eq_ok.2 (by omega)
    have hnotDue : rejectIf (p.due now = false)
        (⟨.invalidTimestamp, s!"interaction proposal `{p.proposalId}` is not due"⟩ : InteractionFailure) = .ok () :=
      rejectIf_eq_ok.2 (by simp [hpast])
    rw [expirePendingProposal, hlimits, (validateInteractionState_eq_ok (u := ()) defaultLimits_pending).2 hok,
      (validateIdentifier_eq_ok (u := ())).2 hproposal.proposalId, (validateEpochSeconds_eq_ok (u := ())).2 hnow, checkRevision_self,
      hindex]
    simp only [ok_bind]
    rw [hat]
    simp only [okOr, ok_bind]
    rw [hrequested, hnotDue]
    rfl
  rw [hrun]
  rcases nextRevision_cases state with ⟨hlt, hnext⟩ | ⟨hlt, hnext⟩
  · left
    have hstate : settleAt state index .expired now (state.revision + 1) =
        state.advance (expireIds now [p.proposalId] state.proposals) := by
      rw [settleAt, hmodify]
      rfl
    have hvalid := (validateInteractionState_eq_ok (u := ()) defaultLimits_pending).2
      (hok.advance hlt (expireIds_moves hok hp hdue))
    rw [hnext]
    simp only [ok_bind, hstate]
    rw [hvalid]
    exact ⟨hlt, rfl⟩
  · right
    rw [hnext]
    exact ⟨hlt, rfl⟩

/-! ## All of them -/

/-- The due proposals expired at once, in an accepted state. -/
theorem expirePendingProposals_cases (hok : StateOk lib defaultInteractionLimits state) (hnow : 0 ≤ now) :
    (dueIds now state.proposals = [] ∧
        expirePendingProposals lib state state.revision now = .ok ⟨state, []⟩) ∨
      dueIds now state.proposals ≠ [] ∧
        ((state.revision.toNat < usizeMax ∧ expirePendingProposals lib state state.revision now =
            .ok ⟨state.advance (expireDue now state.proposals),
              (state.proposals.filter (·.isDue now)).map (·.settle .expired now)⟩) ∨
          (state.revision.toNat = usizeMax ∧
            expirePendingProposals lib state state.revision now = .error revisionOverflow)) := by
  have hlimits : defaultInteractionLimits.validate = .ok () := by decide
  have hnone : dueIds now state.proposals = [] ↔ state.proposals.any (·.isDue now) = false := by
    rw [dueIds, List.map_eq_nil_iff, List.filter_eq_nil_iff, List.any_eq_false]
  rw [expirePendingProposals, hlimits, (validateInteractionState_eq_ok (u := ()) defaultLimits_pending).2 hok,
    (validateEpochSeconds_eq_ok (u := ())).2 hnow, checkRevision_self]
  simp only [ok_bind]
  by_cases hany : state.proposals.any (·.isDue now) = false
  · rw [if_pos hany]
    exact .inl ⟨hnone.2 hany, rfl⟩
  · rw [if_neg hany]
    refine .inr ⟨mt hnone.1 hany, ?_⟩
    rcases nextRevision_cases state with ⟨hlt, hnext⟩ | ⟨hlt, hnext⟩
    · left
      have hmoves : List.Forall₂ InteractionProposalRecord.Moves state.proposals (expireDue now state.proposals) :=
        expireDue_moves hok
      have hvalid := (validateInteractionState_eq_ok (u := ()) defaultLimits_pending).2 (hok.advance hlt hmoves)
      rw [hnext]
      simp only [ok_bind]
      refine ⟨hlt, ?_⟩
      rw [InteractionState.advance] at hvalid
      rw [hvalid]
      rfl
    · right
      rw [hnext]
      exact ⟨hlt, rfl⟩

/-- `expire_pending_proposal` for one id after another, each under the revision of the state before it. -/
def expireEach (lib : Externals) (now : Int) : List String → InteractionState → UInt64 →
    Interaction InteractionState
  | [], state, _ => .ok state
  | id :: ids, state, expectedRevision => do
    let outcome ← expirePendingProposal lib state id expectedRevision now
    expireEach lib now ids outcome.state outcome.state.revision

/-- Another due proposal stays due. -/
theorem mem_expireIds_due {p : InteractionProposalRecord} {id : String} (hp : p ∈ state.proposals)
    (hne : p.proposalId ≠ id) : p ∈ expireIds now [id] state.proposals := by
  refine List.mem_map.2 ⟨p, hp, ?_⟩
  simp [hne]

/-- **Expiring due ids one after another.** -/
theorem expireEach_cases : ∀ {ids : List String} {state : InteractionState},
    StateOk lib defaultInteractionLimits state → 0 ≤ now → ids.Nodup →
    (∀ id ∈ ids, ∃ p ∈ state.proposals, p.isDue now = true ∧ p.proposalId = id) →
    (∃ final, expireEach lib now ids state state.revision = .ok final ∧
        final = { state with proposals := expireIds now ids state.proposals, revision := final.revision } ∧
        final.revision.toNat = state.revision.toNat + ids.length) ∨
      (usizeMax < state.revision.toNat + ids.length ∧
        expireEach lib now ids state state.revision = .error revisionOverflow)
  | [], state, _, _, _, _ => by
    refine .inl ⟨state, rfl, ?_, rfl⟩
    rw [expireIds_nil]
  | id :: ids, state, hok, hnow, hnodup, hdue => by
    obtain ⟨hnew, hlater⟩ := List.nodup_cons.1 hnodup
    obtain ⟨p, hp, hpdue, rfl⟩ := hdue id List.mem_cons_self
    rw [expireEach]
    rcases expirePendingProposal_due hok hnow hp hpdue with ⟨hlt, hstep⟩ | ⟨hfull, hstep⟩
    · have hnext := hok.advance hlt (expireIds_moves hok hp hpdue)
      have hrest : ∀ id ∈ ids, ∃ q ∈ expireIds now [p.proposalId] state.proposals,
          q.isDue now = true ∧ q.proposalId = id := by
        intro id hid
        obtain ⟨q, hq, hqdue, rfl⟩ := hdue id (List.mem_cons_of_mem _ hid)
        exact ⟨q, mem_expireIds_due hq fun heq => hnew (heq ▸ hid), hqdue, rfl⟩
      have hrevision : (state.advance (expireIds now [p.proposalId] state.proposals)).revision.toNat =
          state.revision.toNat + 1 := toNat_add_one hlt
      rw [hstep]
      simp only [ok_bind]
      rcases expireEach_cases hnext hnow hlater hrest with ⟨final, hfinal, heq, hcount⟩ | ⟨hover, hfail⟩
      · refine .inl ⟨final, hfinal, ?_, ?_⟩
        · rw [heq, InteractionState.advance, expireIds_expireIds]
        · rw [hcount, hrevision, List.length_cons]
          omega
      · refine .inr ⟨?_, hfail⟩
        rw [hrevision] at hover
        rw [List.length_cons]
        omega
    · refine .inr ⟨?_, ?_⟩
      · rw [List.length_cons]
        omega
      · rw [hstep]
        rfl

/-- **Expiring all due proposals at once and expiring them one by one, in any order, are the same** up to the
revision, which advances once or once for each of them, and whose overflow is the only failure. -/
theorem expirePendingProposals_each
    (haccepted : validateInteractionState lib state defaultInteractionLimits = .ok ()) {expected : UInt64}
    {ids : List String} (hids : ids.Perm (dueIds now state.proposals)) :
    (∀ outcome final, expirePendingProposals lib state expected now = .ok outcome →
        expireEach lib now ids state expected = .ok final →
        final.proposals = outcome.state.proposals ∧
          final = { outcome.state with revision := final.revision } ∧
          outcome.state.revision.toNat = state.revision.toNat + min 1 ids.length ∧
          final.revision.toNat = state.revision.toNat + ids.length) ∧
      (validateEpochSeconds "proposal expiry time" now = .ok () → checkRevision state expected = .ok () →
        (∀ error, expirePendingProposals lib state expected now = .error error →
          error = revisionOverflow ∧ usizeMax < state.revision.toNat + min 1 ids.length) ∧
        ∀ error, expireEach lib now ids state expected = .error error →
          error = revisionOverflow ∧ usizeMax < state.revision.toNat + ids.length) := by
  have hok := (validateInteractionState_eq_ok defaultLimits_pending).1 haccepted
  have hnodup : ids.Nodup := hids.nodup_iff.2 (dueIds_nodup hok.pendingNodup)
  have hdue : ∀ id ∈ ids, ∃ p ∈ state.proposals, p.isDue now = true ∧ p.proposalId = id := by
    intro id hid
    obtain ⟨p, hp, rfl⟩ := List.mem_map.1 (hids.mem_iff.1 hid)
    obtain ⟨hp, hpdue⟩ := List.mem_filter.1 hp
    exact ⟨p, hp, hpdue, rfl⟩
  have hempty : dueIds now state.proposals = [] ↔ ids.length = 0 := by
    rw [List.length_eq_zero_iff, ← List.perm_nil, ← List.perm_nil]
    exact ⟨hids.trans, hids.symm.trans⟩
  have hsame := expireIds_due hok.pendingNodup hids
  constructor
  · intro outcome final houtcome hfinal
    -- a successful call has passed the two checks
    have hswept := expirePendingProposals_eq_ok houtcome
    have hnow : 0 ≤ now := by
      obtain ⟨-, h⟩ := seq_eq_ok.1 houtcome
      obtain ⟨-, h⟩ := seq_eq_ok.1 h
      exact validateEpochSeconds_eq_ok.1 (seq_eq_ok.1 h).1
    obtain rfl := hswept.revision
    obtain ⟨final', hfinal', heq, hcount⟩ | ⟨-, hfail⟩ := expireEach_cases hok hnow hnodup hdue
    · cases hfinal.symm.trans hfinal'
      rw [hsame] at heq
      rcases expirePendingProposals_cases hok hnow with ⟨hnone, hbulk⟩ | ⟨hsome, ⟨hlt, hbulk⟩ | ⟨-, hbulk⟩⟩
      · cases houtcome.symm.trans hbulk
        have hlength := hempty.1 hnone
        obtain rfl := List.length_eq_zero_iff.1 hlength
        rw [expireIds_nil] at hsame
        rw [← hsame] at heq
        refine ⟨by rw [heq], heq, by simp, hcount⟩
      · cases houtcome.symm.trans hbulk
        have hlength : ids.length ≠ 0 := fun h => hsome (hempty.2 h)
        refine ⟨by rw [heq]; rfl, heq, ?_, hcount⟩
        rw [Nat.min_eq_left (by omega)]
        exact toNat_add_one hlt
      · cases houtcome.symm.trans hbulk
    · cases hfinal.symm.trans hfail
  · intro hnow hrevision
    rw [validateEpochSeconds_eq_ok] at hnow
    rw [checkRevision, rejectIf_eq_ok, not_not] at hrevision
    subst hrevision
    constructor
    · intro error herror
      rcases expirePendingProposals_cases hok hnow with ⟨-, hbulk⟩ | ⟨hsome, ⟨-, hbulk⟩ | ⟨hfull, hbulk⟩⟩
      · cases herror.symm.trans hbulk
      · cases herror.symm.trans hbulk
      · have hlength : ids.length ≠ 0 := fun h => hsome (hempty.2 h)
        cases herror.symm.trans hbulk
        exact ⟨rfl, by omega⟩
    · intro error herror
      obtain ⟨final, hfinal, -⟩ | ⟨hover, hfail⟩ := expireEach_cases hok hnow hnodup hdue
      · cases herror.symm.trans hfinal
      · cases herror.symm.trans hfail
        exact ⟨rfl, hover⟩

/-- The state with the ferry's proposal. -/
def ferryState : InteractionState := (openRequest ferrySet).commit sampleExternals (lampState false)

theorem ferryState_accepted :
    validateInteractionState sampleExternals ferryState defaultInteractionLimits = .ok () := by
  decide +kernel

theorem ferryState_due : dueIds 100 ferryState.proposals = ["ferry"] := by
  decide +kernel

theorem expirePendingProposals_each_ferry :
    (∀ outcome final, expirePendingProposals sampleExternals ferryState 1 100 = .ok outcome →
        expireEach sampleExternals 100 ["ferry"] ferryState 1 = .ok final →
        final.proposals = outcome.state.proposals ∧
          final = { outcome.state with revision := final.revision } ∧
          outcome.state.revision.toNat = ferryState.revision.toNat + min 1 1 ∧
          final.revision.toNat = ferryState.revision.toNat + 1) ∧
      (validateEpochSeconds "proposal expiry time" 100 = .ok () → checkRevision ferryState 1 = .ok () →
        (∀ error, expirePendingProposals sampleExternals ferryState 1 100 = .error error →
          error = revisionOverflow ∧ usizeMax < ferryState.revision.toNat + min 1 1) ∧
        ∀ error, expireEach sampleExternals 100 ["ferry"] ferryState 1 = .error error →
          error = revisionOverflow ∧ usizeMax < ferryState.revision.toNat + 1) :=
  expirePendingProposals_each ferryState_accepted (by rw [ferryState_due])

end LorePia
