import LorePia.Orchestration.InteractionEngine
import LorePia.Domain.Proof.Interaction

/-!
# Accepted interaction states

`StateOk` is what `validate_interaction_state` accepts, as a structure of facts
(`validateInteractionState_eq_ok`). The lemmas below it say how the changes that the engine makes keep
it: a variable written (`StateOk.insert`), an entry activated, a proposal appended or settled, and a
later revision.
-/

namespace LorePia

open Base

variable {lib : Externals} {limits : InteractionLimits}

/-! ## Identifiers and texts -/

/-- An identifier that the engine accepts, whatever it is called. -/
def IdentifierOk (limits : InteractionLimits) (value : String) : Prop :=
  value.isEmpty = false ∧ value.utf8ByteSize ≤ limits.maxIdentifierBytes ∧
    value.toList.all isIdentifierCharacter = true

theorem validateIdentifier_eq_ok {label value : String} {u : Unit} :
    validateIdentifier label value limits = .ok u ↔ IdentifierOk limits value := by
  unfold validateIdentifier IdentifierOk
  simp only [rejectIf_eq_ok, not_or, Bool.not_eq_true, not_lt, gt_iff_lt, Bool.not_eq_false]

/-- A stored text that the engine accepts. -/
structure StoredTextOk (maximumChars : Nat) (value : String) : Prop where
  nonempty : value.length ≠ 0
  short : value.length ≤ maximumChars
  printable : value.toList.any isDisallowedControl = false
  plain : looksLikeMarkup value = false

theorem validateLegacyStoredProposalText_eq_ok {label value : String} {n : Nat} {u : Unit} :
    validateLegacyStoredProposalText label value n = .ok u ↔ StoredTextOk n value := by
  unfold validateLegacyStoredProposalText
  simp only [seq_eq_ok, rejectIf_eq_ok, not_or, not_lt, gt_iff_lt, Bool.not_eq_true]
  exact ⟨fun h => ⟨h.1.1, h.1.2, h.2.1, h.2.2⟩, fun h => ⟨⟨h.1, h.2⟩, h.3, h.4⟩⟩

/-- The text that an action may write is one that a stored proposal may have. -/
theorem validateRequiredNativePlainText_stored {label value : String} {n : Nat} {u : Unit}
    (h : validateRequiredNativePlainText label value n limits = .ok u) : StoredTextOk n value := by
  obtain ⟨hnative, hlen⟩ := seq_eq_ok.1 h
  obtain ⟨_, hnative⟩ := seq_eq_ok.1 hnative
  rw [mapErr_eq_ok] at hnative
  obtain ⟨_, hnative⟩ := seq_eq_ok.1 hnative
  obtain ⟨hcontrol, hmarkup⟩ := seq_eq_ok.1 hnative
  simp only [rejectIf_eq_ok, not_or, not_lt, gt_iff_lt, Bool.not_eq_true] at hlen hcontrol hmarkup
  exact ⟨hlen.1, hlen.2, hcontrol, hmarkup⟩

/-! ## Proposals -/

/-- The decision time fits the status: none while pending, else within the lifetime, and past the
deadline exactly for an expired proposal. -/
def InteractionProposalRecord.TimesOk (p : InteractionProposalRecord) : Prop :=
  match p.status with
  | .pending => p.decidedAtEpochSeconds = none
  | .approved | .rejected => ∃ d, p.decidedAtEpochSeconds = some d ∧ p.requestedAtEpochSeconds ≤ d ∧
      p.due d = false
  | .expired => ∃ d, p.decidedAtEpochSeconds = some d ∧ p.requestedAtEpochSeconds ≤ d ∧ p.due d = true

/-- A stored proposal that the engine accepts at a revision. -/
structure ProposalOk (lib : Externals) (limits : InteractionLimits) (revision : UInt64)
    (p : InteractionProposalRecord) : Prop where
  id : IdentifierOk limits p.id
  ruleSetId : IdentifierOk limits p.ruleSetId
  ruleId : IdentifierOk limits p.ruleId
  proposalId : IdentifierOk limits p.proposalId
  title : StoredTextOk maxInteractionProposalTitleChars p.title
  body : StoredTextOk maxInteractionProposalBodyChars p.body
  requested : 0 ≤ p.requestedAtEpochSeconds
  source : p.sourceInteractionStateRevision ≤ revision
  deadline : ∀ e, p.expiresAtEpochSeconds = some e → p.requestedAtEpochSeconds ≤ e
  times : p.TimesOk
  bound : proposalRecordId lib p.ruleSetId p.ruleId p.proposalId p.sourceInteractionStateRevision = p.id

theorem validateEpochSeconds_eq_ok {label : String} {t : Int} {u : Unit} :
    validateEpochSeconds label t = .ok u ↔ 0 ≤ t := by
  unfold validateEpochSeconds
  simp only [rejectIf_eq_ok, not_lt]

theorem due_iff {p : InteractionProposalRecord} {now : Int} :
    p.due now = true ↔ ∃ e, p.expiresAtEpochSeconds = some e ∧ e ≤ now := by
  unfold InteractionProposalRecord.due
  cases p.expiresAtEpochSeconds <;> simp

/-- What the status check adds to the ids seen. -/
def ProposalsSeen.addPending (seen : ProposalsSeen) (p : InteractionProposalRecord) : ProposalsSeen :=
  if p.status = .pending then { seen with
    pendingIds := seen.pendingIds ++ [p.proposalId]
    pendingCount := satAddUsize seen.pendingCount 1 }
  else seen

theorem validateDecisionTime_eq_ok {p : InteractionProposalRecord} {d : Int} {u : Unit}
    (hreq : 0 ≤ p.requestedAtEpochSeconds) : validateDecisionTime p d = .ok u ↔
      p.requestedAtEpochSeconds ≤ d ∧ (p.status ≠ .expired → p.due d = false) := by
  unfold validateDecisionTime
  rw [seq_eq_ok, validateEpochSeconds_eq_ok, rejectIf_eq_ok]
  simp only [not_or, not_lt, not_and, Bool.not_eq_true, InteractionProposalRecord.due]
  constructor
  · exact fun h => h.2
  · exact fun h => ⟨by omega, h⟩

/-- The checks of the times and the status of a proposal together. -/
theorem validateProposalTimes_eq_ok {p : InteractionProposalRecord} {seen r : ProposalsSeen}
    (hreq : 0 ≤ p.requestedAtEpochSeconds) :
    (forSome p.decidedAtEpochSeconds (validateDecisionTime p) = .ok () ∧
      validateProposalStatus p seen = .ok r) ↔
    p.TimesOk ∧ (p.status = .pending → p.proposalId ∉ seen.pendingIds) ∧ r = seen.addPending p := by
  unfold InteractionProposalRecord.TimesOk validateProposalStatus ProposalsSeen.addPending
  simp only [forSome_eq_ok, validateDecisionTime_eq_ok hreq]
  cases hs : p.status with
  | pending =>
    simp only [seq_eq_ok, rejectIf_eq_ok, pure_eq_ok]
    cases hd : p.decidedAtEpochSeconds <;> simp [@eq_comm _ r]
  | approved | rejected =>
    simp only [seq_eq_ok, rejectIf_eq_ok, pure_eq_ok]
    cases hd : p.decidedAtEpochSeconds <;> simp [@eq_comm _ r]
  | expired =>
    simp only [seq_eq_ok, rejectIf_eq_ok, pure_eq_ok, due_iff]
    cases hd : p.decidedAtEpochSeconds <;> cases he : p.expiresAtEpochSeconds <;>
      simp [@eq_comm _ r, and_assoc]

theorem validateProposal_eq_ok {revision : UInt64} {p : InteractionProposalRecord}
    {seen r : ProposalsSeen} : validateProposal lib limits revision seen p = .ok r ↔
      ProposalOk lib limits revision p ∧ (p.status = .pending → p.proposalId ∉ seen.pendingIds) ∧
        p.id ∉ seen.recordIds ∧
        r = { seen.addPending p with recordIds := seen.recordIds ++ [p.id] } := by
  have hrecords : (seen.addPending p).recordIds = seen.recordIds := by
    unfold ProposalsSeen.addPending
    split <;> rfl
  unfold validateProposal
  simp only [seq_eq_ok, validateIdentifier_eq_ok, validateLegacyStoredProposalText_eq_ok,
    validateEpochSeconds_eq_ok, rejectIf_eq_ok]
  simp only [bind_eq_ok, rejectIf_eq_ok, exists_const, pure_eq_ok, not_not, gt_iff_lt, UInt64.not_lt]
  constructor
  · rintro ⟨hid, hset, hrule, hpid, htitle, hbody, hreq, hsource, hdeadline, hdecided, seen', hstatus,
      hbound, hnew, hr⟩
    obtain ⟨htimes, hpending, rfl⟩ := (validateProposalTimes_eq_ok hreq).1 ⟨hdecided, hstatus⟩
    rw [hrecords] at hnew hr
    refine ⟨⟨hid, hset, hrule, hpid, htitle, hbody, hreq, hsource, fun e he => ?_, htimes, hbound⟩,
      hpending, hnew, hr.symm⟩
    simpa [he] using hdeadline
  · rintro ⟨h, hpending, hnew, rfl⟩
    obtain ⟨hdecided, hstatus⟩ := (validateProposalTimes_eq_ok h.requested).2
      ⟨h.times, hpending, rfl⟩
    refine ⟨h.id, h.ruleSetId, h.ruleId, h.proposalId, h.title, h.body, h.requested, h.source, ?_,
      hdecided, seen.addPending p, hstatus, h.bound, by rwa [hrecords], by rw [hrecords]⟩
    cases he : p.expiresAtEpochSeconds with
    | none => simp
    | some e => simpa using h.deadline e he

/-! ## The proposal loop -/

theorem pendingProposalIds_append (l k : List InteractionProposalRecord) :
    pendingProposalIds (l ++ k) = pendingProposalIds l ++ pendingProposalIds k := by
  simp [pendingProposalIds]

theorem satAddUsize_satAddUsize (a b c : Nat) :
    satAddUsize (satAddUsize a b) c = satAddUsize a (b + c) := by
  unfold satAddUsize
  omega

theorem addPending_eq {seen : ProposalsSeen} (h : seen.pendingCount ≤ usizeMax)
    (p : InteractionProposalRecord) : seen.addPending p =
      ⟨seen.recordIds, seen.pendingIds ++ pendingProposalIds [p],
        satAddUsize seen.pendingCount (pendingProposalIds [p]).length⟩ := by
  unfold ProposalsSeen.addPending pendingProposalIds
  by_cases hs : p.status = .pending
  · simp [hs]
  · simp [hs, satAddUsize, h]

theorem pending_new_iff {ids : List String} (h : ids.Nodup) (p : InteractionProposalRecord) :
    (p.status = .pending → p.proposalId ∉ ids) ↔ (ids ++ pendingProposalIds [p]).Nodup := by
  unfold pendingProposalIds
  by_cases hs : p.status = .pending
  · simp [hs, nodup_snoc, h]
  · simp [hs, h]

/-- **The proposal loop** succeeds exactly when every proposal passes and neither a record id nor a
pending proposal id comes twice. -/
theorem validateProposals_eq_ok {revision : UInt64} :
    ∀ {l : List InteractionProposalRecord} {seen r : ProposalsSeen}, seen.recordIds.Nodup →
    seen.pendingIds.Nodup → seen.pendingCount ≤ usizeMax →
    (l.foldlM (validateProposal lib limits revision) seen = .ok r ↔
      (∀ p ∈ l, ProposalOk lib limits revision p) ∧ (seen.recordIds ++ l.map (·.id)).Nodup ∧
      (seen.pendingIds ++ pendingProposalIds l).Nodup ∧
      r = ⟨seen.recordIds ++ l.map (·.id), seen.pendingIds ++ pendingProposalIds l,
        satAddUsize seen.pendingCount (pendingProposalIds l).length⟩)
  | [], seen, r, hrec, hpen, hcount => by
    have hc : satAddUsize seen.pendingCount 0 = seen.pendingCount := by
      unfold satAddUsize
      omega
    simp [pendingProposalIds, hrec, hpen, hc, @eq_comm _ r]
  | p :: l, seen, r, hrec, hpen, hcount => by
    have hcons : pendingProposalIds (p :: l) = pendingProposalIds [p] ++ pendingProposalIds l :=
      pendingProposalIds_append [p] l
    rw [List.foldlM_cons, bind_eq_ok, List.forall_mem_cons, hcons]
    constructor
    · rintro ⟨seen', hp, hl⟩
      obtain ⟨hok, hpending, hnew, rfl⟩ := validateProposal_eq_ok.1 hp
      rw [addPending_eq hcount] at hl
      rw [pending_new_iff hpen] at hpending
      obtain ⟨hall, hids, hpids, rfl⟩ := (validateProposals_eq_ok (nodup_snoc.2 ⟨hrec, hnew⟩) hpending
        (min_le_right _ _)).1 hl
      exact ⟨⟨hok, hall⟩, by simpa using hids, by simpa using hpids,
        by simp [satAddUsize_satAddUsize]⟩
    · rintro ⟨⟨hok, hall⟩, hids, hpids, rfl⟩
      have hids' : (seen.recordIds ++ [p.id] ++ l.map (·.id)).Nodup := by simpa using hids
      have hpids' : (seen.pendingIds ++ pendingProposalIds [p] ++ pendingProposalIds l).Nodup := by
        simpa using hpids
      have hnew := nodup_snoc.1 hids'.of_append_left
      refine ⟨_, validateProposal_eq_ok.2 ⟨hok, (pending_new_iff hpen p).2 hpids'.of_append_left, hnew.2,
        rfl⟩, ?_⟩
      rw [addPending_eq hcount]
      refine (validateProposals_eq_ok (nodup_snoc.2 hnew) hpids'.of_append_left
        (min_le_right _ _)).2 ⟨hall, hids', hpids', ?_⟩
      simp [satAddUsize_satAddUsize]

/-! ## States -/

/-- **A state that `validate_interaction_state` accepts.** -/
structure StateOk (lib : Externals) (limits : InteractionLimits) (state : InteractionState) : Prop where
  varCount : state.vars.values.length ≤ limits.maxVariables
  varRefs : ∀ b ∈ state.vars.values, checkVariableRef b.var limits = .ok ()
  varValues : ∀ b ∈ state.vars.values, checkVariableValue b.value limits = .ok ()
  varsNodup : state.vars.refs.Nodup
  knowledgeCount : state.manuallyActiveKnowledge.length ≤ maxKnowledgeEntries
  knowledge : ∀ id ∈ state.manuallyActiveKnowledge, IdentifierOk limits id
  knowledgeNodup : state.manuallyActiveKnowledge.Nodup
  proposalCount : state.proposals.length ≤ limits.maxProposals
  proposals : ∀ p ∈ state.proposals, ProposalOk lib limits state.revision p
  recordsNodup : (state.proposals.map (·.id)).Nodup
  pendingNodup : (pendingProposalIds state.proposals).Nodup
  pendingCount : (pendingProposalIds state.proposals).length ≤ limits.maxPendingProposals

theorem validateBinding_eq_ok {seen r : List VariableRef} {b : VariableBinding} :
    validateBinding limits seen b = .ok r ↔
      (checkVariableRef b.var limits = .ok () ∧ checkVariableValue b.value limits = .ok ()) ∧
        b.var ∉ seen ∧ r = seen ++ [b.var] := by
  unfold validateBinding
  simp only [seq_eq_ok, rejectIf_eq_ok, pure_eq_ok, and_assoc, @eq_comm _ r]

theorem validateActiveKnowledge_eq_ok {seen r : List KnowledgeEntryId} {id : KnowledgeEntryId} :
    validateActiveKnowledge limits seen id = .ok r ↔
      IdentifierOk limits id ∧ id ∉ seen ∧ r = seen ++ [id] := by
  unfold validateActiveKnowledge
  simp only [seq_eq_ok, rejectIf_eq_ok, pure_eq_ok, validateIdentifier_eq_ok, @eq_comm _ r]

/-- **What the engine's check of a stored state decides.** -/
theorem validateInteractionState_eq_ok {state : InteractionState} {u : Unit}
    (hl : limits.maxPendingProposals < usizeMax) :
    validateInteractionState lib state limits = .ok u ↔ StateOk lib limits state := by
  have hbindings := fun seen b r => @validateBinding_eq_ok limits seen r b
  have hentries := fun seen id r => @validateActiveKnowledge_eq_ok limits seen r id
  have hproposals := fun r => @validateProposals_eq_ok lib limits state.revision state.proposals
    ⟨[], [], 0⟩ r List.nodup_nil List.nodup_nil (Nat.zero_le _)
  unfold validateInteractionState
  simp only [bind_eq_ok, rejectIf_eq_ok, exists_const, foldlM_seen_eq_ok hbindings,
    foldlM_seen_eq_ok hentries, hproposals]
  simp only [List.nil_append, List.not_mem_nil, not_false_eq_true, implies_true, true_and, not_lt,
    gt_iff_lt, List.map_id']
  constructor
  · rintro ⟨hvc, _, ⟨hv, hvn, rfl⟩, hkc, _, ⟨hk, hkn, rfl⟩, hpc, _, ⟨hp, hrn, hpn, rfl⟩, hcount⟩
    refine ⟨hvc, fun b hb => (hv b hb).1, fun b hb => (hv b hb).2, hvn, hkc, hk, hkn, hpc, hp, hrn, hpn,
      ?_⟩
    simp only [satAddUsize] at hcount
    omega
  · intro h
    refine ⟨h.varCount, _, ⟨fun b hb => ⟨h.varRefs b hb, h.varValues b hb⟩, h.varsNodup, rfl⟩,
      h.knowledgeCount, _, ⟨h.knowledge, h.knowledgeNodup, rfl⟩, h.proposalCount, _,
      ⟨h.proposals, h.recordsNodup, h.pendingNodup, rfl⟩, ?_⟩
    have := h.pendingCount
    simp only [satAddUsize]
    omega

theorem InteractionLimits.pending_lt {u : Unit} (h : limits.validate = .ok u) :
    limits.maxPendingProposals < usizeMax := by
  unfold InteractionLimits.validate at h
  simp only [rejectIf_eq_ok, not_or] at h
  have : limits.maxPendingProposals ≤ defaultMaxPendingInteractionProposals := by omega
  have : defaultMaxPendingInteractionProposals < usizeMax := by decide
  omega

/-! ## Changes that keep a state accepted -/

theorem ProposalOk.mono {revision revision' : UInt64} {p : InteractionProposalRecord}
    (h : ProposalOk lib limits revision p) (hle : revision ≤ revision') :
    ProposalOk lib limits revision' p :=
  { h with source := UInt64.le_trans h.source hle }

namespace StateOk

variable {state : InteractionState}

/-- A later revision. -/
theorem setRevision (h : StateOk lib limits state) {revision : UInt64} (hle : state.revision ≤ revision) :
    StateOk lib limits { state with revision := revision } :=
  { h with proposals := fun p hp => (h.proposals p hp).mono hle }

/-- A variable written. -/
theorem insert (h : StateOk lib limits state) {target : VariableRef} {value : VariableValue}
    (htarget : checkVariableRef target limits = .ok ()) (hvalue : checkVariableValue value limits = .ok ())
    (hcount : (state.vars.insert target value).values.length ≤ limits.maxVariables) :
    StateOk lib limits { state with vars := state.vars.insert target value } := by
  refine { h with varCount := hcount, varRefs := ?_, varValues := ?_, varsNodup := ?_ }
  · intro b hb
    rcases VariableMap.mem_insert hb with hb | rfl
    · exact h.varRefs b hb
    · exact htarget
  · intro b hb
    rcases VariableMap.mem_insert hb with hb | rfl
    · exact h.varValues b hb
    · exact hvalue
  · exact VariableMap.refs_insert_nodup h.varsNodup target value

/-- The values that a state binds are accepted. -/
theorem get_ok (h : StateOk lib limits state) {v : VariableRef} {value : VariableValue}
    (hget : state.vars.get v = some value) : checkVariableValue value limits = .ok () := by
  obtain ⟨b, hb, -, rfl⟩ := VariableMap.mem_of_get hget
  exact h.varValues b hb

/-- An entry activated. -/
theorem activate (h : StateOk lib limits state) {entryId : KnowledgeEntryId}
    (hid : IdentifierOk limits entryId) (hnew : entryId ∉ state.manuallyActiveKnowledge)
    (hcount : (state.manuallyActiveKnowledge ++ [entryId]).length ≤ maxKnowledgeEntries) :
    StateOk lib limits { state with
      manuallyActiveKnowledge :=
        (state.manuallyActiveKnowledge ++ [entryId]).insertionSort (· ≤ ·) } := by
  have hperm := List.perm_insertionSort (· ≤ ·) (state.manuallyActiveKnowledge ++ [entryId])
  refine { h with knowledgeCount := ?_, knowledge := ?_, knowledgeNodup := ?_ }
  · rw [hperm.length_eq]
    exact hcount
  · intro id hm
    rcases List.mem_append.1 (hperm.mem_iff.1 hm) with hm | hm
    · exact h.knowledge id hm
    · rw [List.mem_singleton.1 hm]
      exact hid
  · rw [hperm.nodup_iff, nodup_snoc]
    exact ⟨h.knowledgeNodup, hnew⟩

/-- A proposal appended. -/
theorem propose (h : StateOk lib limits state) {p : InteractionProposalRecord}
    (hp : ProposalOk lib limits state.revision p) (hid : p.id ∉ state.proposals.map (·.id))
    (hpid : p.proposalId ∉ pendingProposalIds state.proposals)
    (hcount : state.proposals.length < limits.maxProposals)
    (hpending : (pendingProposalIds state.proposals).length < limits.maxPendingProposals) :
    StateOk lib limits { state with proposals := state.proposals ++ [p] } := by
  have hnew : (pendingProposalIds (state.proposals ++ [p])).Nodup := by
    rw [pendingProposalIds_append]
    exact (pending_new_iff h.pendingNodup p).1 fun _ => hpid
  refine { h with
    proposalCount := ?_, proposals := ?_, recordsNodup := ?_, pendingNodup := hnew, pendingCount := ?_ }
  · rw [List.length_append]
    exact hcount
  · intro q hq
    rcases List.mem_append.1 hq with hq | hq
    · exact h.proposals q hq
    · rw [List.mem_singleton.1 hq]
      exact hp
  · rw [List.map_append, List.map_singleton, nodup_snoc]
    exact ⟨h.recordsNodup, hid⟩
  · rw [pendingProposalIds_append, List.length_append]
    have : (pendingProposalIds [p]).length ≤ 1 := by
      unfold pendingProposalIds
      rw [List.length_map]
      exact List.length_filter_le _ [p]
    omega

end StateOk

/-- What an operation may do to a stored proposal: nothing, or settle it while it is pending, as
expired exactly when its deadline has passed. -/
def InteractionProposalRecord.Moves (p q : InteractionProposalRecord) : Prop :=
  q = p ∨ p.status = .pending ∧ ∃ status now, q = p.settle status now ∧ status ≠ .pending ∧
    p.requestedAtEpochSeconds ≤ now ∧ (p.due now = true ↔ status = .expired)

namespace InteractionProposalRecord

theorem Moves.id {p q : InteractionProposalRecord} (h : p.Moves q) : q.id = p.id := by
  rcases h with rfl | ⟨_, _, _, rfl, _⟩ <;> rfl

theorem Moves.pending {p q : InteractionProposalRecord} (h : p.Moves q) (hq : q.status = .pending) :
    q = p := by
  rcases h with rfl | ⟨_, status, now, rfl, hs, _⟩
  · rfl
  · exact absurd hq hs

theorem Moves.ok {revision : UInt64} {p q : InteractionProposalRecord} (h : p.Moves q)
    (hp : ProposalOk lib limits revision p) : ProposalOk lib limits revision q := by
  rcases h with rfl | ⟨_, status, now, rfl, hs, hreq, hdue⟩
  · exact hp
  · refine { hp with times := ?_ }
    cases status with
    | pending => exact absurd rfl hs
    | approved | rejected => exact ⟨now, rfl, hreq, Bool.eq_false_iff.2 fun h => by cases hdue.1 h⟩
    | expired => exact ⟨now, rfl, hreq, hdue.2 rfl⟩

end InteractionProposalRecord

theorem pendingProposalIds_moves {l k : List InteractionProposalRecord}
    (h : List.Forall₂ InteractionProposalRecord.Moves l k) :
    (pendingProposalIds k).Sublist (pendingProposalIds l) := by
  induction h with
  | nil => exact .slnil
  | @cons p q l k hpq _ ih =>
    have hl := pendingProposalIds_append [p] l
    have hk := pendingProposalIds_append [q] k
    simp only [List.singleton_append] at hl hk
    rw [hl, hk]
    refine List.Sublist.append ?_ ih
    by_cases hq : q.status = .pending
    · rw [hpq.pending hq]
    · simp [pendingProposalIds, hq]

/-- Pending proposals settled. -/
theorem StateOk.settle {state : InteractionState} (h : StateOk lib limits state)
    {l : List InteractionProposalRecord} {revision : UInt64} (hle : state.revision ≤ revision)
    (hmoves : List.Forall₂ InteractionProposalRecord.Moves state.proposals l) :
    StateOk lib limits { state with proposals := l, revision := revision } := by
  have hids : state.proposals.map (·.id) = l.map (·.id) := by
    refine forall₂_map_eq (R := InteractionProposalRecord.Moves) ?_ hmoves
    exact fun p q hm => hm.id.symm
  have hpending := pendingProposalIds_moves hmoves
  refine { h with
    proposalCount := ?_, proposals := ?_, recordsNodup := ?_, pendingNodup := ?_, pendingCount := ?_ }
  · rw [← hmoves.length_eq]
    exact h.proposalCount
  · intro q hq
    obtain ⟨p, hp, hpq⟩ := forall₂_mem_right hmoves hq
    exact (InteractionProposalRecord.Moves.ok hpq (h.proposals p hp)).mono hle
  · rw [← hids]
    exact h.recordsNodup
  · exact hpending.nodup h.pendingNodup
  · exact hpending.length_le.trans h.pendingCount

end LorePia
