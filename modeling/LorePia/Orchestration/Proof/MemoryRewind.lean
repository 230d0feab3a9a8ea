import LorePia.Base.Run
import LorePia.Orchestration.MemoryJobs
import LorePia.Orchestration.Proof.MemoryReport

/-!
# Rewinding a branch

A branch is `Rewindable` when its live records have their source ranges in order on its messages.
The planner then succeeds at every cut and plans exactly the live records that end at or after it
(`planMemoryInvalidation_eq`), and what is left is rewindable again. So the next rewind cannot fail,
and memory selection does not find a record of the branch off its lineage.
-/

namespace LorePia

open Base Relation

/-- Both ends of the record's source range are among the messages, in order. -/
def RangeOn (messages : List MessageId) (record : MemoryRecord) : Prop :=
  ∃ first last : Nat, first ≤ last ∧ messages[first]? = some record.sourceStartMessageId ∧
    messages[last]? = some record.sourceEndMessageId

/-- A branch that a rewind can be planned for. -/
structure Rewindable (branch : MemoryBranch) (memory : BranchMemory) : Prop where
  bounded : memory.messages.length ≤ maxVisibleMemoryLineageMessages
  messages_nodup : memory.messages.Nodup
  records_nodup : (memory.records.map (·.id)).Nodup
  ranges : ∀ record ∈ memory.records, branch.owns record = true → RangeOn memory.messages record

/-! ## The lineage of a branch -/

theorem branchLineage_sameOk (messages : List MessageId) :
    SameOk (branchLineage messages) (normalizedLineage messages) := by
  refine (sameOk_rejectIf _ _ _).bind fun _ => SameOk.foldlM (fun lineage item => ?_) _ _
  unfold branchLineageStep lineageStep
  split
  · exact sameOk_error _ _
  · exact sameOk_ok _

/-- Distinct messages within the limit have a lineage. -/
theorem normalizedLineage_ok {messages : List MessageId}
    (hbound : messages.length ≤ maxVisibleMemoryLineageMessages) (hnd : messages.Nodup) :
    ∃ lineage, normalizedLineage messages = .ok lineage := by
  cases h : normalizedLineage messages with
  | ok lineage => exact ⟨lineage, rfl⟩
  | error error =>
    rcases bind_eq_error.1 h with h | ⟨⟨⟩, -, h⟩
    · rw [rejectIf_eq_error] at h
      omega
    · obtain ⟨done, item, rest, lineage, hsplit, hof, hstep⟩ :=
        foldlM_error_inv (I := LineageOf) h ⟨by simp, by simp⟩
          fun _ _ _ _ _ _ hs hstep => lineageStep_lineageOf hs hstep
      unfold lineageStep at hstep
      cases hcontains : lineage.contains item.1 with
      | false => simp [hcontains] at hstep
      | true =>
        obtain ⟨index, hget⟩ := Option.isSome_iff_exists.1 hcontains
        have hdone : item.1 ∈ done.map (·.1) := List.mem_map.2 ⟨_, (hof.2 _ _).1 hget, rfl⟩
        have hnd : (messages.zipIdx.map (·.1)).Nodup := by simpa using hnd
        rw [hsplit, List.map_append, List.map_cons, List.nodup_append] at hnd
        exact absurd rfl (hnd.2.2 _ hdone _ List.mem_cons_self)

section Plan

variable {branch : MemoryBranch} {messages : List MessageId} {lineage : OrdMap MessageId Nat}
  {record : MemoryRecord}

/-- In a lineage of distinct messages a message stands at its index. -/
theorem lineage_get? (hnd : messages.Nodup)
    (hget : ∀ id index, lineage.get? id = some index ↔ messages[index]? = some id)
    {id : MessageId} {index : Nat} (h : messages[index]? = some id) :
    lineage.get? id = some index ∧ messages.idxOf id = index := by
  refine ⟨(hget id index).2 h, ?_⟩
  obtain ⟨hlt, rfl⟩ := List.getElem?_eq_some_iff.1 h
  exact List.Nodup.idxOf_getElem hnd index hlt

/-- A record in range passes the planner's checks. -/
theorem ownedRangeEnd_ok (hnd : messages.Nodup)
    (hget : ∀ id index, lineage.get? id = some index ↔ messages[index]? = some id)
    (h : RangeOn messages record) :
    ownedRangeEnd lineage record = .ok (messages.idxOf record.sourceEndMessageId) := by
  obtain ⟨first, last, hle, hfirst, hlast⟩ := h
  obtain ⟨hstart, -⟩ := lineage_get? hnd hget hfirst
  obtain ⟨hend, hidx⟩ := lineage_get? hnd hget hlast
  unfold ownedRangeEnd
  rw [hstart, hend, hidx]
  simp only [okOr, ok_bind, rejectIf, if_neg (Nat.not_lt.2 hle)]
  rfl

/-- What a rewind to `cut` plans: the owned records that end at or after it. -/
def planned (branch : MemoryBranch) (messages : List MessageId) (cut : MessageId)
    (record : MemoryRecord) : Bool :=
  branch.owns record && decide (messages.idxOf cut ≤ messages.idxOf record.sourceEndMessageId)

/-- How a profile disposes of planned records. -/
def profileDisposition (profile : MemoryProfile) : MemoryInvalidationDisposition :=
  if profile.preserveInvalidatedRecords then .preserveAsInvalidated else .delete

/-- The planned actions, in record order. -/
def plannedActions (branch : MemoryBranch) (messages : List MessageId) (cut : MessageId)
    (disposition : MemoryInvalidationDisposition) (records : List MemoryRecord) :
    List MemoryInvalidationAction :=
  (records.filter (planned branch messages cut)).map fun record => ⟨record.id, disposition⟩

/-- One record of the planning loop. -/
theorem planRecordStep_planned {cut : MessageId} {disposition : MemoryInvalidationDisposition}
    {done : List MemoryRecord} (hnd : messages.Nodup)
    (hget : ∀ id index, lineage.get? id = some index ↔ messages[index]? = some id)
    (hnew : record.id ∉ done.map (·.id)) (hrange : branch.owns record = true → RangeOn messages record) :
    planRecordStep branch lineage (messages.idxOf cut) disposition
        (done.map (·.id), plannedActions branch messages cut disposition done) record =
      .ok ((done ++ [record]).map (·.id),
        plannedActions branch messages cut disposition (done ++ [record])) := by
  unfold planRecordStep plannedActions
  rw [rejectIf, if_neg hnew, ok_bind]
  cases howns : branch.owns record with
  | false =>
    rw [List.filter_append]
    simp [planned, howns]
  | true =>
    rw [if_neg (by simp), ownedRangeEnd_ok hnd hget (hrange howns), ok_bind, List.filter_append]
    by_cases hcut : messages.idxOf cut ≤ messages.idxOf record.sourceEndMessageId
    · simp [planned, howns, hcut]
    · simp [planned, howns, hcut]

/-- **The plan** of a rewindable branch. -/
theorem planMemoryInvalidation_eq {memory : BranchMemory} (h : Rewindable branch memory)
    (profile : MemoryProfile) {cut : MessageId} (hcut : cut ∈ memory.messages) :
    planMemoryInvalidation memory.records profile branch memory.messages cut =
      .ok (stableSort (fun left right => decide (left.recordId ≤ right.recordId))
        (plannedActions branch memory.messages cut (profileDisposition profile) memory.records)) := by
  obtain ⟨lineage, hlineage⟩ := normalizedLineage_ok h.bounded h.messages_nodup
  obtain ⟨-, hget, -⟩ := normalizedLineage_eq_ok hlineage
  obtain ⟨index, hindex⟩ := List.mem_iff_getElem?.1 hcut
  obtain ⟨hcutIndex, hidx⟩ := lineage_get? h.messages_nodup hget hindex
  have hloop : ∀ done rest, memory.records = done ++ rest →
      rest.foldlM (planRecordStep branch lineage (memory.messages.idxOf cut) (profileDisposition profile))
          (done.map (·.id), plannedActions branch memory.messages cut (profileDisposition profile) done) =
        .ok (memory.records.map (·.id),
          plannedActions branch memory.messages cut (profileDisposition profile) memory.records) := by
    intro done rest
    induction rest generalizing done with
    | nil =>
      intro hsplit
      rw [hsplit, List.append_nil]
      rfl
    | cons record rest ih =>
      intro hsplit
      have hmem : record ∈ memory.records := by rw [hsplit]; simp
      have hnew : record.id ∉ done.map (·.id) := by
        intro hdone
        have hnd := h.records_nodup
        rw [hsplit, List.map_append, List.map_cons, List.nodup_append] at hnd
        exact hnd.2.2 _ hdone _ List.mem_cons_self rfl
      rw [List.foldlM_cons, planRecordStep_planned h.messages_nodup hget hnew (h.ranges record hmem),
        ok_bind]
      exact ih (done ++ [record]) (by rw [hsplit]; simp)
  unfold planMemoryInvalidation
  rw [((branchLineage_sameOk _) lineage).2 hlineage, ok_bind, hcutIndex, okOr, ok_bind, ← hidx]
  show (memory.records.foldlM (planRecordStep branch lineage (memory.messages.idxOf cut)
    (profileDisposition profile)) (([] : List MemoryRecord).map (·.id),
      plannedActions branch memory.messages cut (profileDisposition profile) []) >>= _) = _
  rw [hloop [] memory.records rfl]
  rfl

end Plan

/-! ## Rewinds -/

section Rewind

variable {branch : MemoryBranch} {memory : BranchMemory} {cut : MessageId}

/-- The plan of a rewind. -/
def rewindPlan (branch : MemoryBranch) (memory : BranchMemory) (cut : MessageId)
    (profile : MemoryProfile) : List MemoryInvalidationAction :=
  stableSort (fun left right => decide (left.recordId ≤ right.recordId))
    (plannedActions branch memory.messages cut (profileDisposition profile) memory.records)

theorem mem_rewindPlan {profile : MemoryProfile} {action : MemoryInvalidationAction} :
    action ∈ rewindPlan branch memory cut profile ↔
      ∃ record ∈ memory.records, planned branch memory.messages cut record = true ∧
        action = ⟨record.id, profileDisposition profile⟩ := by
  unfold rewindPlan plannedActions
  rw [mem_stableSort, List.mem_map]
  simp only [List.mem_filter, and_assoc, eq_comm]

/-- A record's id is planned exactly when the record is. -/
theorem mem_rewindPlan_ids (h : Rewindable branch memory) {profile : MemoryProfile}
    {record : MemoryRecord} (hrecord : record ∈ memory.records) :
    record.id ∈ (rewindPlan branch memory cut profile).map (·.recordId) ↔
      planned branch memory.messages cut record = true := by
  rw [List.mem_map]
  constructor
  · rintro ⟨action, haction, hid⟩
    obtain ⟨other, hother, hplanned, rfl⟩ := mem_rewindPlan.1 haction
    rwa [← List.inj_on_of_nodup_map h.records_nodup hother hrecord hid]
  · intro hplanned
    exact ⟨_, mem_rewindPlan.2 ⟨record, hrecord, hplanned, rfl⟩, rfl⟩

/-- **What becomes of a record**: untouched unless planned. -/
theorem disposeRecord_eq (h : Rewindable branch memory) (profile : MemoryProfile) (now : Int)
    {record : MemoryRecord} (hrecord : record ∈ memory.records) :
    disposeRecord now (rewindPlan branch memory cut profile) record =
      if planned branch memory.messages cut record = true then
        if profile.preserveInvalidatedRecords then some { record with invalidatedAt := some now }
        else none
      else some record := by
  unfold disposeRecord
  cases hfind : (rewindPlan branch memory cut profile).find? fun action =>
      action.recordId = record.id with
  | none =>
    have hnot : planned branch memory.messages cut record ≠ true := by
      intro hplanned
      obtain ⟨action, haction, hid⟩ := List.mem_map.1 ((mem_rewindPlan_ids h hrecord).2 hplanned)
      simpa [hid] using List.find?_eq_none.1 hfind action haction
    rw [if_neg hnot]
  | some action =>
    have hid : action.recordId = record.id := by simpa using List.find?_some hfind
    have haction := List.mem_of_find?_eq_some hfind
    have hplanned := (mem_rewindPlan_ids h hrecord).1 (List.mem_map.2 ⟨action, haction, hid⟩)
    obtain ⟨_, _, _, rfl⟩ := mem_rewindPlan.1 haction
    rw [if_pos hplanned]
    unfold profileDisposition
    cases profile.preserveInvalidatedRecords with
    | true => rfl
    | false => rfl

/-- The branch after a rewind. -/
def rewound (branch : MemoryBranch) (memory : BranchMemory) (cut : MessageId)
    (profile : MemoryProfile) (now : Int) : BranchMemory where
  records := memory.records.filterMap (disposeRecord now (rewindPlan branch memory cut profile))
  messages := memory.messages.takeWhile (· ≠ cut)

theorem rewind_eq (h : Rewindable branch memory) (profile : MemoryProfile) (now : Int)
    (hcut : cut ∈ memory.messages) :
    rewind profile branch now memory cut = .ok (rewound branch memory cut profile now) := by
  unfold rewind
  rw [planMemoryInvalidation_eq h profile hcut]
  rfl

/-- The messages before the cut. -/
theorem takeWhile_ne_eq_take {messages : List MessageId} :
    messages.takeWhile (· ≠ cut) = messages.take (messages.idxOf cut) := by
  induction messages with
  | nil => rfl
  | cons message rest ih =>
    by_cases hm : message = cut
    · simp [hm]
    · rw [List.takeWhile_cons_of_pos (by simpa using hm), List.idxOf_cons_ne _ hm, ih,
        List.take_succ_cons]

/-- A record of the branch after a rewind was there before, unplanned. -/
theorem mem_rewound (h : Rewindable branch memory) {profile : MemoryProfile} {now : Int}
    {record : MemoryRecord} (hrecord : record ∈ (rewound branch memory cut profile now).records) :
    ∃ before ∈ memory.records, before.id = record.id ∧
      (branch.owns record = true → before = record ∧
        planned branch memory.messages cut record = false) := by
  obtain ⟨before, hbefore, hdispose⟩ := List.mem_filterMap.1 hrecord
  rw [disposeRecord_eq h profile now hbefore] at hdispose
  by_cases hplanned : planned branch memory.messages cut before = true
  · rw [if_pos hplanned] at hdispose
    cases hpreserve : profile.preserveInvalidatedRecords with
    | false => simp [hpreserve] at hdispose
    | true =>
      rw [hpreserve, if_pos rfl] at hdispose
      cases hdispose
      refine ⟨before, hbefore, rfl, fun howns => ?_⟩
      simp [MemoryBranch.owns] at howns
  · rw [if_neg hplanned] at hdispose
    cases hdispose
    exact ⟨_, hbefore, rfl, fun _ => ⟨rfl, by simpa using hplanned⟩⟩

theorem rewound_ids_sublist (h : Rewindable branch memory) (profile : MemoryProfile) (now : Int) :
    ((rewound branch memory cut profile now).records.map (·.id)).Sublist
      (memory.records.map (·.id)) := by
  have hids : ∀ records : List MemoryRecord, (∀ record ∈ records, record ∈ memory.records) →
      ((records.filterMap (disposeRecord now (rewindPlan branch memory cut profile))).map
        (·.id)).Sublist (records.map (·.id)) := by
    intro records
    induction records with
    | nil => intro _; exact List.Sublist.refl _
    | cons record rest ih =>
      intro hmem
      have hrest := ih fun item hitem => hmem item (List.mem_cons_of_mem _ hitem)
      rw [List.filterMap_cons, disposeRecord_eq h profile now (hmem record List.mem_cons_self)]
      by_cases hplanned : planned branch memory.messages cut record = true
      · rw [if_pos hplanned]
        cases profile.preserveInvalidatedRecords with
        | true => exact hrest.cons_cons _
        | false => exact hrest.cons _
      · rw [if_neg hplanned]
        exact hrest.cons_cons _
  exact hids memory.records fun _ hmem => hmem

/-- **A rewind** leaves a rewindable branch. -/
theorem rewound_rewindable (h : Rewindable branch memory) (profile : MemoryProfile) (now : Int) :
    Rewindable branch (rewound branch memory cut profile now) := by
  have hsub : (rewound branch memory cut profile now).messages.Sublist memory.messages :=
    List.takeWhile_sublist _
  refine ⟨hsub.length_le.trans h.bounded, hsub.nodup h.messages_nodup,
    (rewound_ids_sublist h profile now).nodup h.records_nodup, ?_⟩
  intro record hrecord howns
  obtain ⟨before, hbefore, -, hsame⟩ := mem_rewound h hrecord
  obtain ⟨rfl, hplanned⟩ := hsame howns
  obtain ⟨first, last, hle, hfirst, hlast⟩ := h.ranges before hbefore howns
  have hidx : memory.messages.idxOf before.sourceEndMessageId = last := by
    obtain ⟨hlt, hmessage⟩ := List.getElem?_eq_some_iff.1 hlast
    rw [← hmessage]
    exact List.Nodup.idxOf_getElem h.messages_nodup last hlt
  have hbeforeCut : last < memory.messages.idxOf cut := by
    simpa [planned, howns, hidx] using hplanned
  have htake : (rewound branch memory cut profile now).messages =
      memory.messages.take (memory.messages.idxOf cut) := takeWhile_ne_eq_take
  refine ⟨first, last, hle, ?_, ?_⟩
  · rw [htake, List.getElem?_take_of_lt (by omega)]
    exact hfirst
  · rw [htake, List.getElem?_take_of_lt hbeforeCut]
    exact hlast

/-- A record of another branch or conversation. -/
def MemoryBranch.foreign (branch : MemoryBranch) (record : MemoryRecord) : Bool :=
  record.conversationId ≠ branch.conversationId || record.branchId ≠ branch.branchId

/-- Records of other branches are untouched. -/
theorem rewound_foreign (h : Rewindable branch memory) (profile : MemoryProfile) (now : Int) :
    (rewound branch memory cut profile now).records.filter branch.foreign =
      memory.records.filter branch.foreign := by
  have hforeign : ∀ records : List MemoryRecord, (∀ record ∈ records, record ∈ memory.records) →
      (records.filterMap (disposeRecord now (rewindPlan branch memory cut profile))).filter
        branch.foreign = records.filter branch.foreign := by
    intro records
    induction records with
    | nil => intro _; rfl
    | cons record rest ih =>
      intro hmem
      have hrest := ih fun item hitem => hmem item (List.mem_cons_of_mem _ hitem)
      rw [List.filterMap_cons, disposeRecord_eq h profile now (hmem record List.mem_cons_self)]
      by_cases hplanned : planned branch memory.messages cut record = true
      · -- a planned record is owned, so it is not foreign before or after
        have howns : branch.owns record = true := by
          simp only [planned, Bool.and_eq_true] at hplanned
          exact hplanned.1
        simp only [MemoryBranch.owns, Bool.and_eq_true, decide_eq_true_eq] at howns
        have hself : ∀ invalidatedAt, branch.foreign { record with invalidatedAt := invalidatedAt } =
            false := by
          intro invalidatedAt
          simp [MemoryBranch.foreign, howns.1.1, howns.1.2]
        have hnot := hself record.invalidatedAt
        rw [if_pos hplanned, List.filter_cons_of_neg (by rw [hnot]; simp)]
        cases profile.preserveInvalidatedRecords with
        | true =>
          rw [if_pos rfl, List.filter_cons_of_neg (by rw [hself]; simp)]
          exact hrest
        | false => exact hrest
      · rw [if_neg hplanned]
        simp only [List.filter_cons, hrest]
  exact hforeign memory.records fun _ hmem => hmem

end Rewind

/-! ## Runs -/

/-- One rewind, under any profile and at any time, to a message of the branch. -/
def RewindStep (branch : MemoryBranch) (memory memory' : BranchMemory) : Prop :=
  ∃ profile now, ∃ cut ∈ memory.messages, rewind profile branch now memory cut = .ok memory'

theorem rewindStep_rewindable {branch : MemoryBranch} {memory memory' : BranchMemory}
    (h : Rewindable branch memory) (hstep : RewindStep branch memory memory') :
    Rewindable branch memory' ∧
      memory'.records.filter branch.foreign = memory.records.filter branch.foreign := by
  obtain ⟨profile, now, cut, hcut, hrewind⟩ := hstep
  rw [rewind_eq h profile now hcut] at hrewind
  cases hrewind
  exact ⟨rewound_rewindable h profile now, rewound_foreign h profile now⟩

/-- The eligibility test on a record whose range is on the visible messages. -/
theorem eligibleRange_onLineage {record : MemoryRecord} {context : MemorySelectionContext}
    {lineage : OrdMap MessageId Nat} {why : String}
    (hlineage : normalizedLineage context.visibleMessageIds = .ok lineage)
    (hrange : RangeOn context.visibleMessageIds record)
    (h : eligibleRange record context lineage = .error why) :
    why ≠ offLineageReason ∧ why ≠ reversedReason := by
  obtain ⟨-, hget, -⟩ := normalizedLineage_eq_ok hlineage
  obtain ⟨first, last, hle, hfirst, hlast⟩ := hrange
  unfold eligibleRange at h
  rw [(hget _ _).2 hfirst, (hget _ _).2 hlast] at h
  rcases bind_eq_error.1 h with h | ⟨⟨⟩, -, h⟩
  · rw [← (rejectIf_eq_error.1 h).2]
    decide
  rcases bind_eq_error.1 h with h | ⟨⟨⟩, -, h⟩
  · rw [← (rejectIf_eq_error.1 h).2]
    decide
  rcases bind_eq_error.1 h with h | ⟨⟨⟩, -, h⟩
  · rw [← (rejectIf_eq_error.1 h).2]
    decide
  rcases bind_eq_error.1 h with h | ⟨⟨⟩, -, h⟩
  · rw [← (rejectIf_eq_error.1 h).2]
    decide
  simp only [okOr, ok_bind, rejectIf, if_neg (Nat.not_lt.2 hle)] at h
  cases h

/-- **Selection on a rewindable branch** never finds one of its live records off the lineage. -/
theorem selectMemory_onLineage {branch : MemoryBranch} {memory : BranchMemory}
    (h : Rewindable branch memory) {profile : MemoryProfile} {context : MemorySelectionContext}
    (hvisible : context.visibleMessageIds = memory.messages) {selection : MemorySelection}
    (hselect : selectMemory memory.records profile context = .ok selection) {record : MemoryRecord}
    (hrecord : record ∈ memory.records) (howns : branch.owns record = true)
    {item : MemorySelectionEvidence} (hitem : item ∈ selection.evidence)
    (hid : item.recordId = record.id) :
    item.exclusionReason ≠ some offLineageReason ∧ item.exclusionReason ≠ some reversedReason := by
  obtain ⟨_, _, _, _, _, _, _, hreport⟩ := selectMemory_eq_ok hselect
  have hwhy : ∀ why, item.exclusionReason = some why → why ≠ offLineageReason ∧ why ≠ reversedReason := by
    intro why hreason
    rcases hreport.reasons item hitem why hreason with
      rfl | rfl | ⟨lineage, hlineage, other, hother, hother_id, herror⟩
    · decide
    · decide
    · have hsame : other = record :=
        List.inj_on_of_nodup_map h.records_nodup hother hrecord (hother_id.trans hid)
      subst hsame
      refine eligibleRange_onLineage hlineage ?_ herror
      rw [hvisible]
      exact h.ranges other hrecord howns
  exact ⟨fun hreason => (hwhy _ hreason).1 rfl, fun hreason => (hwhy _ hreason).2 rfl⟩

/-- **Rewinds.** After any number of rewinds of a rewindable branch: it is rewindable, a rewind to
any of its messages succeeds and plans exactly its live records that end at or after the cut, records
of other branches are as they were, and selection finds no live record of the branch off its lineage. -/
theorem rewinds_consistent (branch : MemoryBranch) (initial memory : BranchMemory)
    (hinit : Rewindable branch initial) (hrun : ReflTransGen (RewindStep branch) initial memory) :
    Rewindable branch memory ∧
    memory.records.filter branch.foreign = initial.records.filter branch.foreign ∧
    (∀ profile now, ∀ cut ∈ memory.messages, ∃ actions next,
      planMemoryInvalidation memory.records profile branch memory.messages cut = .ok actions ∧
      (∀ record ∈ memory.records, record.id ∈ actions.map (·.recordId) ↔
        branch.owns record = true ∧
          memory.messages.idxOf cut ≤ memory.messages.idxOf record.sourceEndMessageId) ∧
      rewind profile branch now memory cut = .ok next ∧ Rewindable branch next) ∧
    (∀ profile context selection, context.visibleMessageIds = memory.messages →
      selectMemory memory.records profile context = .ok selection →
      ∀ record ∈ memory.records, branch.owns record = true →
      ∀ item ∈ selection.evidence, item.recordId = record.id →
        item.exclusionReason ≠ some offLineageReason ∧ item.exclusionReason ≠ some reversedReason) := by
  have hkeeps : ∀ before after, Rewindable branch before → RewindStep branch before after →
      Rewindable branch after := fun _ _ h hstep => (rewindStep_rewindable h hstep).1
  have h : Rewindable branch memory := run_inv hkeeps hrun hinit
  refine ⟨h, ?_, ?_, ?_⟩
  · refine run_rel (R := fun before after : BranchMemory =>
      after.records.filter branch.foreign = before.records.filter branch.foreign) hkeeps
      (fun _ => rfl) (fun _ _ _ h₁ h₂ => h₂.trans h₁) ?_ hrun hinit
    exact fun _ _ h hstep => (rewindStep_rewindable h hstep).2
  · intro profile now cut hcut
    refine ⟨rewindPlan branch memory cut profile, rewound branch memory cut profile now,
      planMemoryInvalidation_eq h profile hcut, ?_, rewind_eq h profile now hcut,
      rewound_rewindable h profile now⟩
    intro record hrecord
    rw [mem_rewindPlan_ids h hrecord, planned, Bool.and_eq_true, decide_eq_true_eq]
  · intro profile context selection hvisible hselect record hrecord howns item hitem hid
    exact selectMemory_onLineage h hvisible hselect hrecord howns hitem hid

/-- A record that straddles the second cut and one that ends before it. -/
def sampleBranchMemory : BranchMemory where
  records := [sampleMemory "vow" .episodicEvent "m1" "m1", sampleMemory "lamp" .worldState "m1" "m2",
    sampleMemory "keeper" .creatorPinned "m3" "m3"]
  messages := ["m1", "m2", "m3"]

def sampleBranch : MemoryBranch := ⟨"harbor", "main"⟩

theorem sampleBranchMemory_rewindable : Rewindable sampleBranch sampleBranchMemory := by
  refine ⟨by decide, by decide, by decide, ?_⟩
  intro record hrecord _
  simp only [sampleBranchMemory, List.mem_cons, List.not_mem_nil, or_false] at hrecord
  rcases hrecord with rfl | rfl | rfl
  · exact ⟨0, 0, by decide, rfl, rfl⟩
  · exact ⟨0, 1, by decide, rfl, rfl⟩
  · exact ⟨2, 2, by decide, rfl, rfl⟩

/-- After a rewind to the third message, one to the second. -/
theorem rewinds_consistent_sampleBranch : ∃ memory next,
    rewind (sampleMemoryProfile ⟨false, 127, 0⟩) sampleBranch 7 sampleBranchMemory "m3" = .ok memory ∧
      rewind (sampleMemoryProfile ⟨false, 127, 0⟩) sampleBranch 8 memory "m2" = .ok next ∧
      (next.records.filter sampleBranch.owns).map (·.id) = ["vow"] ∧ Rewindable sampleBranch next := by
  let memory := rewound sampleBranch sampleBranchMemory "m3" (sampleMemoryProfile ⟨false, 127, 0⟩) 7
  have hfirst : rewind (sampleMemoryProfile ⟨false, 127, 0⟩) sampleBranch 7 sampleBranchMemory "m3" =
      .ok memory := rewind_eq sampleBranchMemory_rewindable _ _ (by decide)
  obtain ⟨_, -, hplans, -⟩ := rewinds_consistent sampleBranch sampleBranchMemory memory
    sampleBranchMemory_rewindable (.single ⟨_, _, "m3", by decide, hfirst⟩)
  obtain ⟨_, next, -, -, hnext, hrewindable⟩ :=
    hplans (sampleMemoryProfile ⟨false, 127, 0⟩) 8 "m2" (by decide)
  refine ⟨memory, next, hfirst, hnext, ?_, hrewindable⟩
  have hrecords : (rewind (sampleMemoryProfile ⟨false, 127, 0⟩) sampleBranch 8 memory "m2").map
      (fun next => (next.records.filter sampleBranch.owns).map (·.id)) = .ok ["vow"] := by
    decide +kernel
  rw [hnext] at hrecords
  exact Except.ok.inj hrecords

/-- A branch with more messages than the planner accepts. -/
def longBranchMessages : List MessageId :=
  (List.range 100001).map fun count => String.ofList (List.replicate count 'm')

/-- The planner's guards: too many messages, a message twice, a record id twice. -/
theorem planMemoryInvalidation_guards :
    (longBranchMessages.Nodup ∧ "" ∈ longBranchMessages ∧
      planMemoryInvalidation [] (sampleMemoryProfile ⟨false, 127, 0⟩) sampleBranch longBranchMessages ""
        = .error .lineageTooLarge) ∧
    planMemoryInvalidation [] (sampleMemoryProfile ⟨false, 127, 0⟩) sampleBranch ["m1", "m1"] "m1" =
      .error (.duplicateLineageMessage "m1") ∧
    (RangeOn ["m1"] (sampleMemory "vow" .episodicEvent "m1" "m1") ∧
      planMemoryInvalidation [sampleMemory "vow" .episodicEvent "m1" "m1",
        sampleMemory "vow" .episodicEvent "m1" "m1"] (sampleMemoryProfile ⟨false, 127, 0⟩) sampleBranch
          ["m1"] "m1" = .error (.duplicateRecordId "vow")) := by
  refine ⟨⟨?_, ?_, ?_⟩, by decide +kernel, ⟨0, 0, by decide, rfl, rfl⟩, by decide +kernel⟩
  · refine List.Nodup.map ?_ List.nodup_range
    intro a b hab
    have hlength := congrArg String.length hab
    simpa using hlength
  · exact List.mem_map.2 ⟨0, List.mem_range.2 (by decide), rfl⟩
  · have hlong : maxVisibleMemoryLineageMessages < longBranchMessages.length := by
      simp [longBranchMessages, maxVisibleMemoryLineageMessages]
    unfold planMemoryInvalidation branchLineage
    rw [rejectIf, if_pos hlong]
    rfl

end LorePia
