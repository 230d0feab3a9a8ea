import LorePia.Storage.LifecycleOutbox
import Mathlib.Data.Finset.Max

/-!
# Delivery from the lifecycle outbox

`Lawful` says what the outbox is for, by its log alone: each claim is a delivery with the next number and comes after
everything that its occurrence follows is done, and only the latest delivery is returned or acknowledged, once. The
table of every reachable state shows where its lawful log has left each occurrence (`outbox_lawful`).
-/

namespace LorePia.Lifecycle

open Base

variable {τ : Type}

/-! ## The log -/

/-- Where a log leaves an occurrence. -/
def phase (occurrenceId : String) : List (Event τ) → Phase
  | [] => .idle 0
  | .enqueued _ :: log => phase occurrenceId log
  | .moved other next :: log => if other = occurrenceId then next else phase occurrenceId log

/-- The releases of some rows. -/
def released (rows : List (Occurrence τ)) : List (Event τ) :=
  rows.map fun row => .moved row.id (.idle row.deliveryAttempts)

theorem phase_released {rows : List (Occurrence τ)} {log : List (Event τ)} {occurrenceId : String} :
    phase occurrenceId (released rows ++ log) =
      ((rows.find? fun row => row.id = occurrenceId).map (.idle ·.deliveryAttempts)).getD (phase occurrenceId log) := by
  induction rows with
  | nil => rfl
  | cons row rest ih =>
    rw [List.find?_cons]
    by_cases hid : row.id = occurrenceId <;> simp [released, phase, hid]
    exact ih

theorem claimed_phase {row : Occurrence τ} {lease : τ → Bool} (h : row.isClaimed lease = true) :
    row.phase = .held row.deliveryAttempts := by
  unfold Occurrence.isClaimed at h
  unfold Occurrence.phase
  cases hstatus : row.status with
  | claimed leaseUntil => rfl
  | _ => simp [hstatus] at h

theorem acknowledged_phase {row : Occurrence τ} (h : row.isAcknowledged = true) :
    row.phase = .done row.deliveryAttempts := by
  unfold Occurrence.isAcknowledged at h
  unfold Occurrence.phase
  cases hstatus : row.status with
  | acknowledged acknowledgedAt => rfl
  | _ => simp [hstatus] at h

variable [LinearOrder τ]

/-- What may come after a log. -/
def Permitted (log : List (Event τ)) : Event τ → Prop
  | .enqueued write => ∀ other, .enqueued other ∈ log → other.occurrenceId ≠ write.occurrenceId
  | .moved occurrenceId (.held attempt) => ∃ write attempts, .enqueued write ∈ log ∧
      write.occurrenceId = occurrenceId ∧ attempt = attempts + 1 ∧
      (phase occurrenceId log = .idle attempts ∨ phase occurrenceId log = .held attempts) ∧
      ∀ predecessor, .enqueued predecessor ∈ log → write.follows predecessor = true →
        ∃ n, phase predecessor.occurrenceId log = .done n
  | .moved occurrenceId (.idle attempt) => phase occurrenceId log = .held attempt
  | .moved occurrenceId (.done attempt) => phase occurrenceId log = .held attempt

def Lawful : List (Event τ) → Prop
  | [] => True
  | event :: log => Permitted log event ∧ Lawful log

/-- What was never enqueued was never claimed. -/
theorem Lawful.phase_unknown {occurrenceId : String} {log : List (Event τ)} (h : Lawful log)
    (hnone : ∀ write, .enqueued write ∈ log → write.occurrenceId ≠ occurrenceId) :
    phase occurrenceId log = .idle 0 := by
  induction log with
  | nil => rfl
  | cons event log ih =>
    have hbefore := ih h.2 fun write hw => hnone write (.tail _ hw)
    cases event with
    | enqueued write => exact hbefore
    | moved other next =>
      unfold phase
      split
      · next hsame =>
        subst hsame
        have hpermitted := h.1
        cases next with
        | held attempt =>
          obtain ⟨write, -, hw, hid, -⟩ := hpermitted
          exact absurd hid (hnone write (.tail _ hw))
        | idle attempt => cases hbefore.symm.trans hpermitted
        | done attempt => cases hbefore.symm.trans hpermitted
      · exact hbefore

theorem Lawful.released {rows : List (Occurrence τ)} {log : List (Event τ)} (h : Lawful log)
    (hkeys : (rows.map (·.id)).Nodup) (hheld : ∀ row ∈ rows, phase row.id log = .held row.deliveryAttempts) :
    Lawful (released rows ++ log) := by
  induction rows with
  | nil => exact h
  | cons row rest ih =>
    obtain ⟨hnew, hkeys⟩ := List.nodup_cons.1 hkeys
    refine ⟨?_, ih hkeys fun r hr => hheld r (.tail _ hr)⟩
    refine Eq.trans ?_ (hheld row (.head _))
    have hnone : rest.find? (fun r => r.id = row.id) = none :=
      List.find?_eq_none.2 fun r hr hid => hnew (List.mem_map.2 ⟨r, hr, of_decide_eq_true hid⟩)
    exact phase_released.trans (by rw [hnone]; rfl)

theorem due_phase {row : Occurrence τ} {now : τ} (h : row.due now = true) :
    row.phase = .idle row.deliveryAttempts ∨ row.phase = .held row.deliveryAttempts := by
  unfold Occurrence.due at h
  rcases Bool.or_eq_true_iff.1 h with hpending | hclaimed
  · have hstatus : row.status = .pending := of_decide_eq_true (Bool.and_eq_true_iff.1 hpending).1
    unfold Occurrence.phase
    rw [hstatus]
    exact .inl rfl
  · exact .inr (claimed_phase hclaimed)

/-- The table shows where a lawful log has left each occurrence. -/
structure Agrees (outbox : Outbox τ) (log : List (Event τ)) : Prop where
  keys : (outbox.map (·.id)).Nodup
  rows : ∀ row ∈ outbox, .enqueued row.write ∈ log ∧ phase row.id log = row.phase
  known : ∀ write, .enqueued write ∈ log → ∃ row ∈ outbox, row.write = write
  lawful : Lawful log

namespace Agrees

variable {outbox : Outbox τ} {log : List (Event τ)} {row : Occurrence τ}

theorem unique (h : Agrees outbox log) {r r' : Occurrence τ} (hr : r ∈ outbox) (hr' : r' ∈ outbox)
    (hid : r.id = r'.id) : r = r' := List.inj_on_of_nodup_map h.keys hr hr' hid

/-- A statement that finds one row finds it once. -/
theorem count (h : Agrees outbox log) {found : Occurrence τ → Bool} (hrow : row ∈ outbox)
    (hfound : ∀ r ∈ outbox, found r = true ↔ r = row) : outbox.countP found = 1 := by
  rw [List.countP_congr (q := fun r => r == row) fun r hr => by rw [hfound r hr, beq_iff_eq]]
  exact List.count_eq_one_of_mem (List.Nodup.of_map _ h.keys) hrow

/-- A statement that sets what its log says. -/
theorem update (h : Agrees outbox log) {found : Occurrence τ → Bool} {set : Occurrence τ → Occurrence τ}
    (hwrite : ∀ r, (set r).write = r.write) {log' : List (Event τ)} (hlawful : Lawful log')
    (hlog : ∀ write, .enqueued write ∈ log' ↔ .enqueued write ∈ log)
    (hphase : ∀ r ∈ outbox, phase r.id log' = if found r then (set r).phase else phase r.id log) :
    Agrees (outbox.update found set).2 log' := by
  have hset : ∀ r, (if found r then set r else r).write = r.write := by
    intro r
    split
    · exact hwrite r
    · rfl
  have hid : ∀ r, (if found r then set r else r).id = r.id := fun r =>
    congrArg LifecycleOccurrenceWrite.occurrenceId (hset r)
  unfold Outbox.update
  refine ⟨?_, fun r' hr' => ?_, fun write hw => ?_, hlawful⟩
  · rw [List.map_map]
    exact (List.map_congr_left fun r _ => hid r) ▸ h.keys
  · obtain ⟨r, hr, rfl⟩ := List.mem_map.1 hr'
    rw [hset, hid, hlog, hphase r hr]
    refine ⟨(h.rows r hr).1, ?_⟩
    split
    · rfl
    · exact (h.rows r hr).2
  · obtain ⟨r, hr, rfl⟩ := h.known write ((hlog write).1 hw)
    exact ⟨_, List.mem_map_of_mem hr, hset r⟩

/-- **One row moves.** -/
theorem move (h : Agrees outbox log) {found : Occurrence τ → Bool} {set : Occurrence τ → Occurrence τ}
    (hrow : row ∈ outbox) (hfound : ∀ r ∈ outbox, found r = true ↔ r = row) (hwrite : ∀ r, (set r).write = r.write)
    (hpermitted : Permitted log (.moved row.id (set row).phase)) :
    Agrees (outbox.update found set).2 (.moved row.id (set row).phase :: log) := by
  refine h.update hwrite ⟨hpermitted, h.lawful⟩ (by simp) fun r hr => ?_
  change (if row.id = r.id then (set row).phase else phase r.id log) = _
  by_cases hsame : r = row
  · rw [if_pos ((hfound r hr).2 hsame), if_pos (by rw [hsame]), hsame]
  · rw [if_neg fun hf => hsame ((hfound r hr).1 hf), if_neg fun hid => hsame (h.unique hr hrow hid.symm)]

theorem settle (h : Agrees outbox log) {occurrenceId : String} {expected : Nat}
    {set : Occurrence τ → Occurrence τ} {settled : Outbox τ} {next : Nat → Phase}
    (hsettle : outbox.settle occurrenceId expected set = .ok settled) (hwrite : ∀ r, (set r).write = r.write)
    (hphase : ∀ r, (set r).phase = next r.deliveryAttempts) (hnext : next = .idle ∨ next = .done) :
    Agrees settled (.moved occurrenceId (next expected) :: log) := by
  unfold Outbox.settle at hsettle
  simp only [seq_eq_ok, rejectIf_eq_ok, not_not] at hsettle
  obtain ⟨-, -, hchanged, hsettled⟩ := hsettle
  cases hsettled
  obtain ⟨row, hrow, hfound⟩ := List.countP_pos_iff.1 (hchanged.symm ▸ Nat.one_pos)
  obtain ⟨⟨rfl, hclaimed⟩, rfl⟩ : (row.id = occurrenceId ∧ row.isClaimed (fun _ => true) = true) ∧
      row.deliveryAttempts = expected := by simpa using hfound
  have hheld : phase row.id log = .held row.deliveryAttempts := by
    rw [(h.rows row hrow).2, claimed_phase hclaimed]
  rw [← hphase]
  refine h.move hrow (fun r hr => ⟨fun hf => h.unique hr hrow ?_, fun hr => hr ▸ hfound⟩) hwrite ?_
  · simp only [Bool.and_eq_true, decide_eq_true_eq] at hf
    exact hf.1.1
  · rw [hphase]
    rcases hnext with rfl | rfl <;> exact hheld

theorem insert (h : Agrees outbox log) {constraints : Except CoreError Unit} {write : LifecycleOccurrenceWrite τ}
    {idempotent : Bool} {inserted : Outbox τ}
    (hinsert : outbox.insertOccurrence constraints write idempotent = .ok (true, inserted)) :
    Agrees inserted (.enqueued write :: log) := by
  unfold Outbox.insertOccurrence at hinsert
  simp only [seq_eq_ok] at hinsert
  obtain ⟨-, -, -, -, hinsert⟩ := hinsert
  split at hinsert
  · split at hinsert <;> cases hinsert
  · next hany =>
    cases hinsert
    have hnew : ∀ row ∈ outbox, row.id ≠ write.occurrenceId := by simpa using hany
    have hunknown : ∀ other, .enqueued other ∈ log → other.occurrenceId ≠ write.occurrenceId := by
      intro other hother
      obtain ⟨row, hrow, rfl⟩ := h.known other hother
      exact hnew row hrow
    refine ⟨?_, fun row hrow => ?_, fun other hother => ?_, hunknown, h.lawful⟩
    · rw [List.map_append, List.map_singleton, nodup_snoc]
      refine ⟨h.keys, fun hmem => ?_⟩
      obtain ⟨row, hrow, hid⟩ := List.mem_map.1 hmem
      exact hnew row hrow hid
    · rcases List.mem_append.1 hrow with hrow | hrow
      · exact ⟨.tail _ (h.rows row hrow).1, (h.rows row hrow).2⟩
      · rw [List.mem_singleton.1 hrow]
        exact ⟨.head _, h.lawful.phase_unknown hunknown⟩
    · rcases List.mem_cons.1 hother with hother | hother
      · cases hother
        exact ⟨_, List.mem_append_right _ (List.mem_singleton_self _), rfl⟩
      · obtain ⟨row, hrow, hwrite⟩ := h.known other hother
        exact ⟨row, List.mem_append_left _ hrow, hwrite⟩

/-- **Leases end**: their rows are released, in any order. -/
theorem recover (h : Agrees outbox log) (lease : τ → Bool) (now : τ) :
    Agrees (outbox.recoverLeases lease now).2 (released (outbox.filter (·.isClaimed lease)) ++ log) := by
  have hkeys : ((outbox.filter (·.isClaimed lease)).map (·.id)).Nodup := h.keys.sublist (List.filter_sublist.map _)
  have hheld : ∀ r ∈ outbox.filter (·.isClaimed lease), phase r.id log = .held r.deliveryAttempts := by
    intro r hr
    obtain ⟨hr, hclaimed⟩ := List.mem_filter.1 hr
    rw [(h.rows r hr).2, claimed_phase hclaimed]
  unfold Outbox.recoverLeases
  refine h.update (fun r => show (r.release now).write = r.write from rfl) (h.lawful.released hkeys hheld)
    (by simp [released]) fun r hr => ?_
  rw [phase_released]
  split
  · next hclaimed => rw [find?_key hkeys (List.mem_filter.2 ⟨hr, hclaimed⟩)]; rfl
  · next hclaimed =>
    have hnone : (outbox.filter (·.isClaimed lease)).find? (fun x => x.id = r.id) = none := by
      refine List.find?_eq_none.2 fun x hx hid => hclaimed ?_
      rw [← h.unique (List.mem_of_mem_filter hx) hr (of_decide_eq_true hid)]
      exact (List.mem_filter.1 hx).2
    rw [hnone]
    rfl

/-- What a claim asks of a row. -/
structure Ready (outbox : Outbox τ) (now : τ) (row : Occurrence τ) : Prop where
  mem : row ∈ outbox
  due : row.due now = true
  order : ∀ predecessor ∈ outbox, row.write.follows predecessor.write = true → predecessor.isAcknowledged = true

/-- **A claim** of rows that are ready moves them, one after the other. -/
theorem claimEach {now leaseUntil : τ} {rows : List (Occurrence τ)} (hkeys : (rows.map (·.id)).Nodup) :
    ∀ {outbox : Outbox τ} {log : List (Event τ)}, Agrees outbox log → (∀ row ∈ rows, Ready outbox now row) →
    ∃ claimed, Outbox.claimEach now leaseUntil (rows.map (·.id)) outbox =
        .ok (rows.map (·.claim now leaseUntil), claimed) ∧
      Agrees claimed (((rows.map (·.claim now leaseUntil)).map fun row => .moved row.id row.phase).reverse ++ log) := by
  induction rows with
  | nil => exact fun h _ => ⟨_, rfl, h⟩
  | cons row rest ih =>
    intro outbox log h hready
    obtain ⟨hnot, hkeys⟩ := List.nodup_cons.1 hkeys
    have hrow := hready row (.head _)
    have hfound : ∀ r ∈ outbox, (decide (r.id = row.id) && r.due now) = true ↔ r = row := by
      intro r hr
      constructor
      · intro hf
        rw [Bool.and_eq_true, decide_eq_true_eq] at hf
        exact h.unique hr hrow.mem hf.1
      · rintro rfl
        simp [hrow.due]
    have hmoved : Agrees (outbox.update (fun r => r.id = row.id && r.due now) (·.claim now leaseUntil)).2
        (.moved row.id (row.claim now leaseUntil).phase :: log) := h.move hrow.mem hfound (fun _ => rfl)
      ⟨row.write, row.deliveryAttempts, (h.rows row hrow.mem).1, rfl, rfl, (h.rows row hrow.mem).2 ▸ due_phase hrow.due,
        fun predecessor hp hfollows => by
          obtain ⟨p, hmem, rfl⟩ := h.known predecessor hp
          exact ⟨_, (h.rows p hmem).2.trans (acknowledged_phase (hrow.order p hmem hfollows))⟩⟩
    have hcount := h.count hrow.mem hfound
    have hmem : row.claim now leaseUntil ∈ (outbox.update (fun r => r.id = row.id && r.due now)
        (·.claim now leaseUntil)).2 := List.mem_map.2 ⟨row, hrow.mem, if_pos ((hfound row hrow.mem).2 rfl)⟩
    have hread : Outbox.readOccurrence _ row.id = .ok (row.claim now leaseUntil) :=
      okOr_eq_ok.2 (find?_key hmoved.keys hmem)
    obtain ⟨claimed, hclaim, hagrees⟩ := ih hkeys hmoved fun r hr => by
      have hother : r.id ≠ row.id := fun hid => hnot (List.mem_map.2 ⟨r, hr, hid⟩)
      have hready := hready r (.tail _ hr)
      refine ⟨List.mem_map.2 ⟨r, hready.mem, if_neg fun hf => ?_⟩, hready.due, fun predecessor hp hfollows => ?_⟩
      · rw [(hfound r hready.mem).1 hf] at hother
        exact hother rfl
      · obtain ⟨p, hmem, rfl⟩ := List.mem_map.1 hp
        split at hfollows
        · next hf =>
          -- A row that is claimed now was not done, so nothing that is ready follows it.
          have hdone := acknowledged_phase (hready.order p hmem hfollows)
          rw [(hfound p hmem).1 hf] at hdone
          rcases due_phase hrow.due with hphase | hphase <;> cases hdone.symm.trans hphase
        · next hf =>
          rw [if_neg hf]
          exact hready.order p hmem hfollows
    refine ⟨claimed, ?_, ?_⟩
    · rw [List.map_cons, Outbox.claimEach]
      simp only [bind_eq_ok, rejectIf_eq_ok, not_not]
      exact ⟨(), hcount, _, hread, _, hclaim, rfl⟩
    · rw [List.map_cons, List.map_cons, List.reverse_cons, List.append_assoc]
      exact hagrees

/-- **A claim** gives the rows that its query selects. -/
theorem claim (h : Agrees outbox log) {now leaseUntil : τ} {limit : Nat} (hlease : now < leaseUntil)
    (hlimit : limit ≤ maxLifecycleClaim) :
    ∃ claimed, outbox.claimCoreLifecycleOccurrences now leaseUntil limit =
        .ok ((outbox.candidates now limit).map (·.claim now leaseUntil), claimed) ∧
      Agrees claimed ((((outbox.candidates now limit).map (·.claim now leaseUntil)).map
        fun row => .moved row.id row.phase).reverse ++ log) := by
  have hkeys : ((outbox.candidates now limit).map (·.id)).Nodup := by
    refine List.Nodup.sublist ((List.take_sublist _ _).map _) ?_
    rw [((stableSort_perm _ _).map _).nodup_iff]
    exact h.keys.sublist (List.filter_sublist.map _)
  have hready : ∀ row ∈ outbox.candidates now limit, Ready outbox now row := by
    intro row hrow
    obtain ⟨hmem, hclaimable⟩ := List.mem_filter.1 (mem_stableSort.1 (List.mem_of_mem_take hrow))
    unfold Outbox.claimable at hclaimable
    simp only [Bool.and_eq_true, Bool.not_eq_true', List.any_eq_false, not_and] at hclaimable
    refine ⟨hmem, hclaimable.1, fun predecessor hp hfollows => ?_⟩
    by_contra hopen
    exact hclaimable.2 predecessor hp (by simpa using hopen) hfollows
  obtain ⟨claimed, hclaim, hagrees⟩ := claimEach hkeys h hready
  refine ⟨claimed, ?_, hagrees⟩
  unfold Outbox.claimCoreLifecycleOccurrences
  rw [seq_eq_ok, rejectIf_eq_ok, not_le, seq_eq_ok, rejectIf_eq_ok, not_lt]
  refine ⟨hlease, hlimit, ?_⟩
  split
  · next hzero =>
    subst hzero
    exact hclaim
  · exact hclaim

end Agrees

/-- **The log of every run is lawful**, and the table shows where it has left each occurrence. -/
theorem outbox_lawful {s : State τ} (h : s.Reachable) : Agrees s.outbox s.log := by
  induction h with
  | refl => exact ⟨.nil, fun _ hrow => absurd hrow List.not_mem_nil, fun _ hw => absurd hw List.not_mem_nil, trivial⟩
  | @tail s _ _ hstep ih =>
    obtain ⟨action, rfl⟩ := hstep
    cases action with
    | insert constraints occurrence idempotent =>
      unfold State.act
      dsimp only
      split
      · next hinsert => exact ih.insert hinsert
      · exact ih
    | claim now leaseUntil limit =>
      unfold State.act
      dsimp only
      split
      · next hclaim =>
        have hguards := hclaim
        unfold Outbox.claimCoreLifecycleOccurrences at hguards
        simp only [seq_eq_ok, rejectIf_eq_ok, not_le, not_lt] at hguards
        obtain ⟨_, hclaimed, hagrees⟩ := ih.claim hguards.1 hguards.2.1
        cases hclaim.symm.trans hclaimed
        exact hagrees
      · exact ih
    | acknowledge occurrenceId expected acknowledgedAt =>
      unfold State.act
      dsimp only
      split
      · next hsettle => exact ih.settle hsettle (fun _ => rfl) (fun _ => rfl) (.inr rfl)
      · exact ih
    | retry occurrenceId expected availableAt =>
      unfold State.act
      dsimp only
      split
      · next hsettle => exact ih.settle hsettle (fun _ => rfl) (fun _ => rfl) (.inl rfl)
      · exact ih
    | recover lease now => exact ih.recover lease now

/-- What holds back the claim of an occurrence. -/
def WaitsFor (row predecessor : Occurrence τ) : Prop :=
  row.write.follows predecessor.write = true ∧ predecessor.isAcknowledged = false

/-- **A claim finds work whenever there is some**: where nothing is given, each occurrence that is not acknowledged
waits, itself or through others, for one that cannot be claimed yet. The end of a generation is written before its
message, as a generation is finished (`hends`). -/
theorem claim_ready {s : State τ} (h : s.Reachable) (now leaseUntil : τ) (limit : Nat) (hlease : now < leaseUntil)
    (hpos : 0 < limit) (hlimit : limit ≤ maxLifecycleClaim)
    (hends : ∀ row ∈ s.outbox, ∀ predecessor ∈ s.outbox, row.write.follows predecessor.write = true →
      predecessor.write.key < row.write.key) :
    ∃ claimed outbox, s.outbox.claimCoreLifecycleOccurrences now leaseUntil limit = .ok (claimed, outbox) ∧
      claimed = (s.outbox.candidates now limit).map (·.claim now leaseUntil) ∧
      (claimed = [] → ∀ row ∈ s.outbox, row.isAcknowledged = false → ∃ waiting ∈ s.outbox,
        waiting.isAcknowledged = false ∧ waiting.due now = false ∧ Relation.ReflTransGen WaitsFor row waiting) := by
  obtain ⟨outbox, hclaim, -⟩ := (outbox_lawful h).claim hlease hlimit
  refine ⟨_, outbox, hclaim, rfl, fun hnone => ?_⟩
  have hnothing : ∀ row ∈ s.outbox, ¬s.outbox.claimable now row = true := by
    have hsorted := (List.take_eq_nil_iff.1 (List.map_eq_nil_iff.1 hnone)).resolve_left hpos.ne'
    have hlength := congrArg List.length hsorted
    rw [length_stableSort] at hlength
    exact List.filter_eq_nil_iff.1 (List.eq_nil_of_length_eq_zero hlength)
  by_contra! hstuck
  classical
  obtain ⟨stuck, hstuck⟩ := hstuck
  -- The first of the rows that wait for nothing has a predecessor that is not acknowledged, and waits for that.
  obtain ⟨row, hrow, hfirst⟩ := Finset.exists_min_image (s.outbox.toFinset.filter fun row =>
    row.isAcknowledged = false ∧ ∀ waiting ∈ s.outbox, waiting.isAcknowledged = false → waiting.due now = false →
      ¬Relation.ReflTransGen WaitsFor row waiting)
    (·.write.key) ⟨stuck, by simpa using hstuck⟩
  simp only [Finset.mem_filter, List.mem_toFinset] at hrow hfirst
  obtain ⟨hrow, hopen, hwaits⟩ := hrow
  have hdue : row.due now = true := by
    by_contra hdue
    exact hwaits row hrow hopen (by simpa using hdue) .refl
  have hblocked := hnothing row hrow
  unfold Outbox.claimable at hblocked
  rw [hdue, Bool.true_and, Bool.not_eq_true', Bool.not_eq_false, List.any_eq_true] at hblocked
  obtain ⟨predecessor, hp, hblocks⟩ := hblocked
  simp only [Bool.and_eq_true, Bool.not_eq_true'] at hblocks
  refine absurd (hfirst predecessor ⟨hp, hblocks.1, fun waiting hwaiting hopen' hdue' hchain => ?_⟩)
    (not_le.2 (hends row hrow predecessor hp hblocks.2))
  exact hwaits waiting hwaiting hopen' hdue' (.head ⟨hblocks.2, hblocks.1⟩ hchain)

/-! ## A run -/

/-- The end of a generation and its message at the same moment. -/
def innEnding : LifecycleOccurrenceWrite Nat := ⟨"after-generation:g1", .afterGeneration, "inn", "main", some "g1", 3⟩

def innMessage : LifecycleOccurrenceWrite Nat := ⟨"message-committed:m1", .messageCommitted, "inn", "main", some "g1",
    3⟩

/-- A lease ends before its delivery is acknowledged. -/
def innRun : State Nat := [Action.insert (.ok ()) innEnding false, .insert (.ok ()) innMessage false, .claim 4 34 1,
  .recover (· ≤ 40) 40, .acknowledge "after-generation:g1" 1 41, .claim 42 72 1].foldl State.act ⟨[], []⟩

theorem reachable_innRun : innRun.Reachable := by
  have hact : ∀ (actions : List (Action Nat)) {s : State Nat}, s.Reachable → (actions.foldl State.act s).Reachable := by
    intro actions
    induction actions with
    | nil => exact id
    | cons action actions ih => exact fun h => ih (.tail h ⟨action, rfl⟩)
  exact hact _ .refl

theorem outbox_lawful_inn : innRun.outbox.map (·.phase) = [.held 2, .idle 0] ∧ Agrees innRun.outbox innRun.log :=
  ⟨by decide +kernel, outbox_lawful reachable_innRun⟩

theorem claim_ready_inn : ∃ outbox, innRun.outbox.claimCoreLifecycleOccurrences 50 80 256 = .ok ([], outbox) ∧
    ∀ row ∈ innRun.outbox, row.isAcknowledged = false → ∃ waiting ∈ innRun.outbox, waiting.due 50 = false := by
  obtain ⟨claimed, outbox, hclaim, hclaimed, hwaits⟩ := claim_ready reachable_innRun 50 80 256 (by decide)
    (by decide) (by decide) (by decide +kernel)
  obtain rfl : claimed = [] := hclaimed.trans (by decide +kernel)
  refine ⟨outbox, hclaim, fun row hrow hopen => ?_⟩
  obtain ⟨waiting, hwaiting, -, hdue, -⟩ := hwaits rfl row hrow hopen
  exact ⟨waiting, hwaiting, hdue⟩

end LorePia.Lifecycle
