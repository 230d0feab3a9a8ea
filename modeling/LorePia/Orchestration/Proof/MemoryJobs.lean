import Mathlib.Data.List.Perm.Subperm
import LorePia.Base.Run
import LorePia.Orchestration.MemoryJobs
import LorePia.Orchestration.Proof.MemorySelect

/-!
# Runs of the memory job board

`JobStep` interleaves dispatches, changes of status and enqueues over one board, with the number of
requests started in the current window fed back to the planner. The board also keeps a log of what
happened to which job. Over any run the limits of the task profiles hold, keys stay unique, and the
log shows an interruption and a new queueing between two starts of a job (`Phase`).
-/

namespace LorePia

open Base Relation

/-! ## One plan -/

/-- `left` was queued before `right`. -/
def olderJob (left right : MemoryJob) : Prop :=
  left.createdAt < right.createdAt ∨ (left.createdAt = right.createdAt ∧ left.id < right.id)

theorem jobLe_total (left right : MemoryJob) : jobLe left right ∨ jobLe right left :=
  lexLe_pair_total left.createdAt right.createdAt left.id right.id

theorem jobLe_trans (a b c : MemoryJob) (hab : jobLe a b) (hbc : jobLe b c) : jobLe a c :=
  lexLe_pair_trans hab hbc

/-- An older job does not come after a younger one. -/
theorem not_jobLe_of_older {left right : MemoryJob} (h : olderJob left right) :
    ¬ jobLe right left := by
  rw [jobLe, lexLe_pair]
  rintro (hlt | ⟨heq, hle⟩)
  · rcases h with h | ⟨h, _⟩
    · exact h.asymm hlt
    · exact hlt.ne h.symm
  · rcases h with h | ⟨_, h⟩
    · exact h.ne heq.symm
    · exact absurd hle (not_le.2 h)

/-- The duplicate check over the jobs. -/
theorem uniqueJobs_eq_ok {jobs : List MemoryJob} {seen : List MemoryJobId × List String}
    (h : jobs.foldlM uniqueJobStep ([], []) = .ok seen) :
    (jobs.map (·.id)).Nodup ∧ (jobs.map (·.idempotencyKey)).Nodup := by
  have hseen : seen = (jobs.map (·.id), jobs.map (·.idempotencyKey)) ∧ (jobs.map (·.id)).Nodup ∧
      (jobs.map (·.idempotencyKey)).Nodup := by
    refine foldlM_ok_inv (I := fun done seen => seen = (done.map (·.id), done.map (·.idempotencyKey)) ∧
      (done.map (·.id)).Nodup ∧ (done.map (·.idempotencyKey)).Nodup) h (by simp) ?_
    intro done job rest s s' _ hs hstep
    obtain ⟨rfl, hids, hkeys⟩ := hs
    obtain ⟨hid, hstep⟩ := seq_eq_ok.1 hstep
    obtain ⟨hkey, hstep⟩ := seq_eq_ok.1 hstep
    rw [rejectIf_eq_ok] at hid hkey
    cases hstep
    refine ⟨by simp, ?_, ?_⟩
    · simpa [List.nodup_append, hids] using hid
    · simpa [List.nodup_append, hkeys] using hkey
  exact hseen.2

/-- What a plan starts: the first queued jobs of its kind, within both limits. -/
structure Dispatched (jobs : List MemoryJob) (kind : MemoryJobKind) (profile : TaskProfile)
    (started : UInt32) (plan : MemoryJobDispatchPlan) (chosen : List MemoryJob) : Prop where
  ids_nodup : (jobs.map (·.id)).Nodup
  ids : plan.startJobIds = chosen.map (·.id)
  chosen_nodup : chosen.Nodup
  chosen_mem : ∀ job ∈ chosen, job ∈ jobs ∧ job.kind = kind ∧ job.status = .queued
  concurrency : (jobsIn kind .running jobs).length ≤ u32Max →
    chosen.length ≤ profile.concurrencyLimit.toNat - (jobsIn kind .running jobs).length
  rate : chosen.length ≤ profile.rateLimit.requests.toNat - started.toNat
  oldest : ∀ job ∈ chosen, ∀ older ∈ jobs, older.kind = kind → older.status = .queued →
    olderJob older job → older ∈ chosen

/-- **A plan.** -/
theorem planMemoryJobDispatch_eq_ok {jobs : List MemoryJob} {kind : MemoryJobKind}
    {profile : TaskProfile} {started : UInt32} {plan : MemoryJobDispatchPlan}
    (h : planMemoryJobDispatch jobs kind profile started = .ok plan) :
    ∃ chosen, Dispatched jobs kind profile started plan chosen := by
  obtain ⟨_, -, h⟩ := bind_eq_ok.1 h
  obtain ⟨-, h⟩ := seq_eq_ok.1 h
  obtain ⟨-, h⟩ := seq_eq_ok.1 h
  obtain ⟨_, hunique, h⟩ := bind_eq_ok.1 h
  cases h
  have hids := (uniqueJobs_eq_ok hunique).1
  have hmem : ∀ job, job ∈ stableSort jobLe (jobsIn kind .queued jobs) ↔
      job ∈ jobs ∧ job.kind = kind ∧ job.status = .queued := by
    intro job
    rw [mem_stableSort, jobsIn, List.mem_filter, Bool.and_eq_true, decide_eq_true_eq,
      decide_eq_true_eq]
  have hsorted := stableSort_pairwise jobLe_total jobLe_trans (jobsIn kind .queued jobs)
  refine ⟨_, hids, rfl, ?_, ?_, ?_, ?_, ?_⟩
  · have hnd : (stableSort jobLe (jobsIn kind .queued jobs)).Nodup :=
      (stableSort_perm _ _).nodup_iff.2 ((List.Nodup.of_map _ hids).filter _)
    exact (List.take_sublist _ _).nodup hnd
  · intro job hjob
    exact (hmem job).1 (List.mem_of_mem_take hjob)
  · intro hbound
    rw [List.length_take]
    have hrunning : ((u32TryFrom (jobsIn kind .running jobs).length).getD (UInt32.ofNat u32Max)).toNat =
        (jobsIn kind .running jobs).length := by
      unfold u32TryFrom
      rw [if_pos hbound, Option.getD_some, toNat_ofNat_le hbound]
    rw [toNat_min, toNat_satSub, hrunning]
    omega
  · rw [List.length_take]
    simp only [toNat_min, toNat_satSub]
    omega
  · intro job hjob older holder hkind hstatus hlt
    have hin := (hmem older).2 ⟨holder, hkind, hstatus⟩
    by_contra hout
    rw [← List.take_append_drop (min _ _ : UInt32).toNat (stableSort jobLe _), List.mem_append] at hin
    rw [← List.take_append_drop (min _ _ : UInt32).toNat (stableSort jobLe _),
      List.pairwise_append] at hsorted
    exact not_jobLe_of_older hlt (hsorted.2.2 job hjob older (hin.resolve_left hout))

section Dispatched

variable {jobs chosen : List MemoryJob} {kind : MemoryJobKind} {profile : TaskProfile}
  {started : UInt32} {plan : MemoryJobDispatchPlan}

/-- The jobs that move are the chosen ones. -/
theorem Dispatched.starts_iff (h : Dispatched jobs kind profile started plan chosen) {job : MemoryJob}
    (hjob : job ∈ jobs) : job.id ∈ plan.startJobIds ∧ job.status = .queued ↔ job ∈ chosen := by
  rw [h.ids]
  constructor
  · rintro ⟨hid, -⟩
    obtain ⟨other, hother, hid⟩ := List.mem_map.1 hid
    rwa [← List.inj_on_of_nodup_map h.ids_nodup (h.chosen_mem other hother).1 hjob hid]
  · intro hchosen
    exact ⟨List.mem_map_of_mem hchosen, (h.chosen_mem job hchosen).2.2⟩

theorem Dispatched.startJob_eq (h : Dispatched jobs kind profile started plan chosen)
    {job : MemoryJob} (hjob : job ∈ jobs) :
    startJob plan job = if job ∈ chosen then { job with status := .running } else job := by
  unfold startJob
  by_cases hchosen : job ∈ chosen
  · rw [if_pos ((h.starts_iff hjob).2 hchosen), if_pos hchosen]
  · rw [if_neg fun hstarts => hchosen ((h.starts_iff hjob).1 hstarts), if_neg hchosen]

theorem Dispatched.startIds_nodup (h : Dispatched jobs kind profile started plan chosen) :
    plan.startJobIds.Nodup := by
  rw [h.ids]
  refine h.chosen_nodup.map_on fun a ha b hb hab => ?_
  exact List.inj_on_of_nodup_map h.ids_nodup (h.chosen_mem a ha).1 (h.chosen_mem b hb).1 hab

/-- Two exclusive tests count apart. -/
theorem countP_or {α : Type} (p q : α → Bool) (l : List α) (h : ∀ a ∈ l, ¬ (p a = true ∧ q a = true)) :
    l.countP (fun a => p a || q a) = l.countP p + l.countP q := by
  induction l with
  | nil => rfl
  | cons a l ih =>
    have hne := h a List.mem_cons_self
    have hrest := ih fun b hb => h b (List.mem_cons_of_mem _ hb)
    simp only [List.countP_cons, hrest]
    cases hp : p a with
    | true =>
      have hq : q a = false := by simpa [hp] using hne
      simp [hq]
      omega
    | false =>
      cases hq : q a with
      | true => simp; omega
      | false => simp

/-- **The running jobs of a kind after a dispatch.** -/
theorem Dispatched.running (h : Dispatched jobs kind profile started plan chosen)
    (other : MemoryJobKind) : (jobsIn other .running (startJobs plan jobs)).length =
      (jobsIn other .running jobs).length + if other = kind then chosen.length else 0 := by
  have hsplit : ∀ job ∈ jobs, (decide ((startJob plan job).kind = other) &&
        decide ((startJob plan job).status = .running)) =
      (decide (job.kind = other) && decide (job.status = .running) ||
        decide (other = kind) && decide (job ∈ chosen)) := by
    intro job hjob
    rw [h.startJob_eq hjob]
    by_cases hchosen : job ∈ chosen
    · obtain ⟨-, hkind, hstatus⟩ := h.chosen_mem job hchosen
      simp [hchosen, hkind, hstatus, eq_comm]
    · simp [hchosen]
  have hexclusive : ∀ job ∈ jobs, ¬ ((decide (job.kind = other) && decide (job.status = .running)) = true ∧
      (decide (other = kind) && decide (job ∈ chosen)) = true) := by
    intro job hjob hboth
    simp only [Bool.and_eq_true, decide_eq_true_eq] at hboth
    have hqueued := (h.chosen_mem job hboth.2.2).2.2
    rw [hboth.1.2] at hqueued
    cases hqueued
  have hchosen : jobs.countP (fun job => decide (other = kind) && decide (job ∈ chosen)) =
      if other = kind then chosen.length else 0 := by
    by_cases hother : other = kind
    · have hperm : (jobs.filter fun job => job ∈ chosen).Perm chosen := by
        rw [List.perm_ext_iff_of_nodup ((List.Nodup.of_map _ h.ids_nodup).filter _) h.chosen_nodup]
        intro job
        rw [List.mem_filter, decide_eq_true_eq]
        exact ⟨fun hjob => hjob.2, fun hjob => ⟨(h.chosen_mem job hjob).1, hjob⟩⟩
      simp only [hother, decide_true, Bool.true_and, if_true, List.countP_eq_length_filter]
      exact hperm.length_eq
    · simp [hother]
  unfold jobsIn startJobs
  rw [← List.countP_eq_length_filter, ← List.countP_eq_length_filter, List.countP_map, ← hchosen,
    ← countP_or _ _ _ hexclusive]
  exact List.countP_congr fun job hjob => by rw [Function.comp_apply, hsplit job hjob]

end Dispatched

/-! ## The board -/

/-- What happened to a job. -/
inductive JobEvent
  | queued (jobId : MemoryJobId)
  | started (jobId : MemoryJobId)
  | changed (jobId : MemoryJobId) (source target : MemoryJobStatus)
deriving DecidableEq

/-- The jobs, the requests started in the current window by kind, and the log, oldest first. -/
structure JobBoard where
  jobs : List MemoryJob
  started : MemoryJobKind → Nat
  log : List JobEvent

/-- The job that an accepted request creates. -/
def createdJob (request : MemoryJobRequest) (id : MemoryJobId) (attempt : UInt32) (createdAt : Int) :
    MemoryJob where
  id := id
  idempotencyKey := request.idempotencyKey
  kind := request.kind
  conversationId := request.conversationId
  branchId := request.branchId
  sourceStartMessageId := request.sourceStartMessageId
  sourceEndMessageId := request.sourceEndMessageId
  status := .queued
  attempt := attempt
  createdAt := createdAt

/-- One step of the board. -/
inductive JobStep (profiles : MemoryJobKind → TaskProfile) : JobBoard → JobBoard → Prop
  | dispatch {board : JobBoard} (kind : MemoryJobKind) (plan : MemoryJobDispatchPlan)
      (hplan : planMemoryJobDispatch board.jobs kind (profiles kind)
        (UInt32.ofNat (board.started kind)) = .ok plan) :
      JobStep profiles board {
        jobs := startJobs plan board.jobs
        started := fun other =>
          board.started other + if other = kind then plan.startJobIds.length else 0
        log := board.log ++ plan.startJobIds.map .started }
  | change {board : JobBoard} (before : List MemoryJob) (job : MemoryJob) (after : List MemoryJob)
      (target : MemoryJobStatus) (hjobs : board.jobs = before ++ job :: after)
      (hvalid : validateMemoryJobStatusTransition job.status target = .ok ())
      (htarget : target ≠ .running) :
      JobStep profiles board { board with
        jobs := before ++ { job with status := target } :: after
        log := board.log ++ [JobEvent.changed job.id job.status target] }
  | create {board : JobBoard} (request : MemoryJobRequest) (id : MemoryJobId) (attempt : UInt32)
      (createdAt : Int) (hcreate : decideMemoryJobEnqueue board.jobs request = .ok .create) :
      JobStep profiles board { board with
        jobs := board.jobs ++ [createdJob request id attempt createdAt]
        log := board.log ++ [JobEvent.queued id] }
  | reuse {board : JobBoard} (request : MemoryJobRequest) (id : MemoryJobId)
      (status : MemoryJobStatus) (attempt : UInt32)
      (hreuse : decideMemoryJobEnqueue board.jobs request = .ok (.reuse id status attempt)) :
      JobStep profiles board board
  | window {board : JobBoard} (kind : MemoryJobKind) :
      JobStep profiles board { board with
        started := fun other => if other = kind then 0 else board.started other }

/-! ## Starts of one job -/

/-- Where a job stands since its last start. -/
inductive Phase
  | idle | started | interrupted
deriving DecidableEq

/-- The phase of a job after an event. -/
def phaseStep (id : MemoryJobId) (phase : Phase) : JobEvent → Phase
  | .queued _ => phase
  | .started other => if other = id then .started else phase
  | .changed other source target =>
    if other = id ∧ source = .running ∧ target = .interrupted ∧ phase = .started then .interrupted
    else if other = id ∧ source = .interrupted ∧ target = .queued ∧ phase = .interrupted then .idle
    else phase

theorem phaseStep_changed (id other : MemoryJobId) (phase : Phase) (source target : MemoryJobStatus) :
    phaseStep id phase (.changed other source target) =
      if other = id ∧ source = .running ∧ target = .interrupted ∧ phase = .started then .interrupted
      else if other = id ∧ source = .interrupted ∧ target = .queued ∧ phase = .interrupted then .idle
      else phase := rfl

/-- The phase of a job after the log. -/
def phaseAfter (id : MemoryJobId) (log : List JobEvent) : Phase := log.foldl (phaseStep id) .idle

/-- The events of an interruption and a new queueing, in this order. -/
def Requeued (id : MemoryJobId) (events : List JobEvent) : Prop :=
  ∃ before between after, events = before ++ JobEvent.changed id .running .interrupted :: between ++
    JobEvent.changed id .interrupted .queued :: after

/-- A job that was started and is idle again was interrupted and queued. -/
theorem requeued_of_phase {id : MemoryJobId} {events : List JobEvent} :
    (events.foldl (phaseStep id) .started = .idle → Requeued id events) ∧
      (events.foldl (phaseStep id) .interrupted = .idle → ∃ between after,
        events = between ++ JobEvent.changed id .interrupted .queued :: after) := by
  induction events with
  | nil => exact ⟨by simp, by simp⟩
  | cons event events ih =>
    obtain ⟨ihStarted, ihInterrupted⟩ := ih
    have hstarted : events.foldl (phaseStep id) .started = .idle → Requeued id (event :: events) := by
      intro h
      obtain ⟨before, between, after, rfl⟩ := ihStarted h
      exact ⟨event :: before, between, after, rfl⟩
    have hinterrupted : events.foldl (phaseStep id) .interrupted = .idle → ∃ between after,
        event :: events = between ++ JobEvent.changed id .interrupted .queued :: after := by
      intro h
      obtain ⟨between, after, rfl⟩ := ihInterrupted h
      exact ⟨event :: between, after, rfl⟩
    simp only [List.foldl_cons]
    cases event with
    | queued other => exact ⟨hstarted, hinterrupted⟩
    | started other =>
      by_cases hid : other = id
      · simp only [phaseStep, if_pos hid]
        refine ⟨hstarted, fun h => ?_⟩
        obtain ⟨before, between, after, heq⟩ := hstarted h
        exact ⟨before ++ JobEvent.changed id .running .interrupted :: between, after, heq⟩
      · simp only [phaseStep, if_neg hid]
        exact ⟨hstarted, hinterrupted⟩
    | changed other source target =>
      refine ⟨?_, ?_⟩
      · by_cases hchange : other = id ∧ source = .running ∧ target = .interrupted
        · obtain ⟨rfl, rfl, rfl⟩ := hchange
          intro h
          obtain ⟨between, after, rfl⟩ := ihInterrupted (by simpa [phaseStep] using h)
          exact ⟨[], between, after, rfl⟩
        · intro h
          refine hstarted ?_
          have hstep : phaseStep id .started (.changed other source target) = .started := by
            rw [phaseStep_changed, if_neg fun hall => hchange ⟨hall.1, hall.2.1, hall.2.2.1⟩,
              if_neg (by simp)]
          rwa [hstep] at h
      · by_cases hchange : other = id ∧ source = .interrupted ∧ target = .queued
        · obtain ⟨rfl, rfl, rfl⟩ := hchange
          exact fun _ => ⟨[], events, rfl⟩
        · intro h
          refine hinterrupted ?_
          have hstep : phaseStep id .interrupted (.changed other source target) = .interrupted := by
            rw [phaseStep_changed, if_neg (by simp),
              if_neg fun hall => hchange ⟨hall.1, hall.2.1, hall.2.2.1⟩]
          rwa [hstep] at h

/-- Events of other jobs leave the phase. -/
theorem phaseStep_other {id : MemoryJobId} {phase : Phase} {event : JobEvent}
    (h : ∀ source target, event ≠ .started id ∧ event ≠ .changed id source target) :
    phaseStep id phase event = phase := by
  cases event with
  | queued other => rfl
  | started other =>
    have hne : other ≠ id := fun he => (h .queued .queued).1 (by rw [he])
    simp [phaseStep, hne]
  | changed other source target =>
    have hne : other ≠ id := fun he => (h source target).2 (by rw [he])
    simp [phaseStep, hne]

theorem phaseAfter_append (id : MemoryJobId) (log : List JobEvent) (event : JobEvent) :
    phaseAfter id (log ++ [event]) = phaseStep id (phaseAfter id log) event := by
  simp [phaseAfter]

/-- The statuses a job may have in a phase. -/
def Phase.Agrees : Phase → MemoryJobStatus → Prop
  | .idle, _ => True
  | .started, status => status ≠ .queued ∧ status ≠ .interrupted
  | .interrupted, status => status = .interrupted ∨ status = .cancelled

/-- A change of status keeps phase and status together. -/
theorem Phase.Agrees.change {id : MemoryJobId} {phase : Phase} {source target : MemoryJobStatus}
    (h : phase.Agrees source) (hallowed : allowedTransition source target = true) :
    (phaseStep id phase (.changed id source target)).Agrees target := by
  cases phase with
  | idle => simp [phaseStep_changed, Agrees]
  | started =>
    obtain ⟨hqueued, hinterrupted⟩ := h
    cases source <;> cases target <;> simp_all [allowedTransition, phaseStep_changed, Agrees]
  | interrupted =>
    rcases h with rfl | rfl
    · cases target <;> simp_all [allowedTransition, phaseStep_changed, Agrees]
    · cases target <;> simp_all [allowedTransition]

/-- The log and the jobs together: a start finds its job idle, an unknown job is idle, and with
distinct ids every job's status agrees with its phase. -/
structure Logged (board : JobBoard) : Prop where
  starts : ∀ before id after, board.log = before ++ JobEvent.started id :: after →
    phaseAfter id before = .idle
  unknown : ∀ id, id ∉ board.jobs.map (·.id) → phaseAfter id board.log = .idle
  agrees : (board.jobs.map (·.id)).Nodup → ∀ job ∈ board.jobs,
    (phaseAfter job.id board.log).Agrees job.status

/-- Where a start stands in a longer log. -/
theorem starts_append {log : List JobEvent} {event : JobEvent}
    (h : ∀ before id after, log = before ++ JobEvent.started id :: after → phaseAfter id before = .idle)
    (hevent : ∀ id, event = .started id → phaseAfter id log = .idle) :
    ∀ before id after, log ++ [event] = before ++ JobEvent.started id :: after →
      phaseAfter id before = .idle := by
  intro before id after hsplit
  rcases List.eq_nil_or_concat after with rfl | ⟨after', last, rfl⟩
  · obtain ⟨rfl, hlast⟩ := List.append_inj' hsplit rfl
    exact hevent id (by simpa using hlast)
  · rw [List.concat_eq_append, ← List.cons_append, ← List.append_assoc] at hsplit
    obtain ⟨hlog, -⟩ := List.append_inj' hsplit rfl
    exact h before id after' hlog

/-- The starts of one dispatch, one after the other. -/
theorem starts_append_started {log : List JobEvent} {ids : List MemoryJobId} (hnd : ids.Nodup)
    (h : ∀ before id after, log = before ++ JobEvent.started id :: after → phaseAfter id before = .idle)
    (hidle : ∀ id ∈ ids, phaseAfter id log = .idle) :
    (∀ before id after, log ++ ids.map JobEvent.started = before ++ JobEvent.started id :: after →
      phaseAfter id before = .idle) ∧
    ∀ id, phaseAfter id (log ++ ids.map JobEvent.started) =
      if id ∈ ids then .started else phaseAfter id log := by
  induction ids generalizing log with
  | nil => exact ⟨by simpa using h, by simp⟩
  | cons first rest ih =>
    obtain ⟨hfirst, hrest⟩ := List.nodup_cons.1 hnd
    have hphase : ∀ id, phaseAfter id (log ++ [JobEvent.started first]) =
        if first = id then .started else phaseAfter id log := by
      intro id
      rw [phaseAfter_append]
      rfl
    have hlog : log ++ (first :: rest).map JobEvent.started =
        (log ++ [JobEvent.started first]) ++ rest.map JobEvent.started := by simp
    rw [hlog]
    have hnext : ∀ id, JobEvent.started first = .started id → phaseAfter id log = .idle := by
      intro id he
      cases he
      exact hidle _ List.mem_cons_self
    have hidle' : ∀ id ∈ rest, phaseAfter id (log ++ [JobEvent.started first]) = .idle := by
      intro id hid
      have hne : first ≠ id := fun he => hfirst (by rw [he]; exact hid)
      rw [hphase, if_neg hne]
      exact hidle id (List.mem_cons_of_mem _ hid)
    obtain ⟨hstarts, hphases⟩ := ih hrest (starts_append h hnext) hidle'
    refine ⟨hstarts, fun id => ?_⟩
    rw [hphases, hphase]
    by_cases hin : id ∈ rest
    · simp [hin]
    · by_cases he : first = id
      · simp [he]
      · simp [hin, he, Ne.symm he]

/-! ## Invariants -/

theorem startJobs_ids (plan : MemoryJobDispatchPlan) (jobs : List MemoryJob) :
    (startJobs plan jobs).map (·.id) = jobs.map (·.id) := by
  unfold startJobs
  rw [List.map_map]
  refine List.map_congr_left fun job _ => ?_
  simp only [Function.comp, startJob]
  split <;> rfl

theorem startJobs_keys (plan : MemoryJobDispatchPlan) (jobs : List MemoryJob) :
    (startJobs plan jobs).map (·.idempotencyKey) = jobs.map (·.idempotencyKey) := by
  unfold startJobs
  rw [List.map_map]
  refine List.map_congr_left fun job _ => ?_
  simp only [Function.comp, startJob]
  split <;> rfl

/-- A request that creates a job brings a new key. -/
theorem decideMemoryJobEnqueue_create {jobs : List MemoryJob} {request : MemoryJobRequest}
    (h : decideMemoryJobEnqueue jobs request = .ok .create) :
    request.idempotencyKey ∉ jobs.map (·.idempotencyKey) := by
  obtain ⟨-, h⟩ := seq_eq_ok.1 h
  cases hfilter : jobs.filter fun job => job.idempotencyKey = request.idempotencyKey with
  | nil =>
    intro hmem
    obtain ⟨job, hjob, hkey⟩ := List.mem_map.1 hmem
    have hin : job ∈ jobs.filter fun job => job.idempotencyKey = request.idempotencyKey :=
      List.mem_filter.2 ⟨hjob, by simpa using hkey⟩
    rw [hfilter] at hin
    cases hin
  | cons job rest =>
    rw [hfilter] at h
    obtain ⟨-, h⟩ := seq_eq_ok.1 h
    obtain ⟨-, h⟩ := seq_eq_ok.1 h
    cases h

section Board

variable {profiles : MemoryJobKind → TaskProfile} {board board' : JobBoard}

/-- The log after a dispatch. -/
theorem Logged.dispatch (h : Logged board) {kind : MemoryJobKind} {plan : MemoryJobDispatchPlan}
    (hplan : planMemoryJobDispatch board.jobs kind (profiles kind)
      (UInt32.ofNat (board.started kind)) = .ok plan) (started : MemoryJobKind → Nat) :
    Logged ⟨startJobs plan board.jobs, started, board.log ++ plan.startJobIds.map .started⟩ := by
  obtain ⟨chosen, hplan⟩ := planMemoryJobDispatch_eq_ok hplan
  have hidle : ∀ id ∈ plan.startJobIds, phaseAfter id board.log = .idle := by
    intro id hid
    rw [hplan.ids] at hid
    obtain ⟨job, hjob, rfl⟩ := List.mem_map.1 hid
    obtain ⟨hmem, -, hqueued⟩ := hplan.chosen_mem job hjob
    have hagrees := h.agrees hplan.ids_nodup job hmem
    rw [hqueued] at hagrees
    cases hphase : phaseAfter job.id board.log with
    | idle => rfl
    | started => simp [hphase, Phase.Agrees] at hagrees
    | interrupted => simp [hphase, Phase.Agrees] at hagrees
  obtain ⟨hstarts, hphases⟩ := starts_append_started hplan.startIds_nodup h.starts hidle
  refine ⟨hstarts, ?_, ?_⟩
  · intro id hid
    have hid : id ∉ (startJobs plan board.jobs).map (·.id) := hid
    rw [startJobs_ids] at hid
    show phaseAfter id (board.log ++ _) = .idle
    have hout : id ∉ plan.startJobIds := by
      intro hin
      rw [hplan.ids] at hin
      obtain ⟨job, hjob, rfl⟩ := List.mem_map.1 hin
      exact hid (List.mem_map_of_mem (hplan.chosen_mem job hjob).1)
    rw [hphases, if_neg hout]
    exact h.unknown id hid
  · intro _ job hjob
    obtain ⟨before, hbefore, rfl⟩ := List.mem_map.1 hjob
    rw [hplan.startJob_eq hbefore]
    by_cases hchosen : before ∈ chosen
    · have hin := ((hplan.starts_iff hbefore).2 hchosen).1
      rw [if_pos hchosen, hphases, if_pos hin]
      simp [Phase.Agrees]
    · have hout : before.id ∉ plan.startJobIds := by
        intro hin
        rw [hplan.ids] at hin
        obtain ⟨other, hother, hid⟩ := List.mem_map.1 hin
        exact hchosen ((List.inj_on_of_nodup_map hplan.ids_nodup
          (hplan.chosen_mem other hother).1 hbefore hid) ▸ hother)
      rw [if_neg hchosen, hphases, if_neg hout]
      exact h.agrees hplan.ids_nodup before hbefore

/-- The log after a change of status. -/
theorem Logged.change (h : Logged board) {before after : List MemoryJob} {job : MemoryJob}
    {target : MemoryJobStatus} (hjobs : board.jobs = before ++ job :: after)
    (hallowed : allowedTransition job.status target = true) :
    Logged { board with
      jobs := before ++ { job with status := target } :: after
      log := board.log ++ [JobEvent.changed job.id job.status target] } := by
  have hids : (before ++ { job with status := target } :: after).map (·.id) =
      board.jobs.map (·.id) := by simp [hjobs]
  have hother : ∀ id, id ≠ job.id → phaseAfter id (board.log ++ [JobEvent.changed job.id job.status target]) =
      phaseAfter id board.log := by
    intro id hne
    rw [phaseAfter_append]
    refine phaseStep_other fun source target => ⟨by simp, fun he => ?_⟩
    cases he
    exact hne rfl
  refine ⟨starts_append h.starts (by simp), ?_, ?_⟩
  · intro id hid
    have hid : id ∉ (before ++ { job with status := target } :: after).map (·.id) := hid
    rw [hids, hjobs] at hid
    show phaseAfter id (board.log ++ _) = .idle
    rw [hother id fun he => hid (by simp [he])]
    exact h.unknown id (by rw [hjobs]; exact hid)
  · intro hnd item hitem
    have hnd : ((before ++ { job with status := target } :: after).map (·.id)).Nodup := hnd
    have hitem : item ∈ before ++ { job with status := target } :: after := hitem
    have hnd' : (board.jobs.map (·.id)).Nodup := hids ▸ hnd
    by_cases hid : item.id = job.id
    · have hsame : item = { job with status := target } :=
        List.inj_on_of_nodup_map hnd hitem (by simp) hid
      subst hsame
      show (phaseAfter job.id (board.log ++ _)).Agrees target
      rw [phaseAfter_append]
      exact (h.agrees hnd' job (by rw [hjobs]; simp)).change hallowed
    · show (phaseAfter item.id (board.log ++ _)).Agrees item.status
      rw [hother item.id hid]
      refine h.agrees hnd' item ?_
      rw [hjobs]
      simp only [List.mem_append, List.mem_cons] at hitem ⊢
      rcases hitem with hitem | rfl | hitem
      · exact .inl hitem
      · exact absurd rfl hid
      · exact .inr (.inr hitem)

/-- The log after an enqueue. -/
theorem Logged.create (h : Logged board) (job : MemoryJob) :
    Logged { board with jobs := board.jobs ++ [job], log := board.log ++ [JobEvent.queued job.id] } := by
  have hphase : ∀ id, phaseAfter id (board.log ++ [JobEvent.queued job.id]) = phaseAfter id board.log := by
    intro id
    rw [phaseAfter_append]
    rfl
  refine ⟨starts_append h.starts (by simp), ?_, ?_⟩
  · intro id hid
    show phaseAfter id (board.log ++ _) = .idle
    rw [hphase]
    exact h.unknown id fun hin => hid (by simp only [List.map_append, List.mem_append]; exact .inl hin)
  · intro hnd item hitem
    show (phaseAfter item.id (board.log ++ _)).Agrees item.status
    rw [hphase]
    have hnd : ((board.jobs ++ [job]).map (·.id)).Nodup := hnd
    rw [List.map_append, List.nodup_append] at hnd
    rcases List.mem_append.1 hitem with hitem | hitem
    · exact h.agrees hnd.1 item hitem
    · rw [List.mem_singleton.1 hitem, h.unknown]
      · trivial
      · intro hin
        exact hnd.2.2 _ hin job.id (by simp) rfl

/-- The limits of the task profiles. -/
structure WithinLimits (profiles : MemoryJobKind → TaskProfile) (board : JobBoard) : Prop where
  concurrency : ∀ kind, (jobsIn kind .running board.jobs).length ≤
    (profiles kind).concurrencyLimit.toNat
  rate : ∀ kind, board.started kind ≤ (profiles kind).rateLimit.requests.toNat

theorem WithinLimits.dispatch (h : WithinLimits profiles board) {kind : MemoryJobKind}
    {plan : MemoryJobDispatchPlan}
    (hplan : planMemoryJobDispatch board.jobs kind (profiles kind)
      (UInt32.ofNat (board.started kind)) = .ok plan) (log : List JobEvent) :
    WithinLimits profiles ⟨startJobs plan board.jobs, fun other =>
      board.started other + if other = kind then plan.startJobIds.length else 0, log⟩ := by
  obtain ⟨chosen, hplan⟩ := planMemoryJobDispatch_eq_ok hplan
  have hmax : ∀ value : UInt32, value.toNat ≤ u32Max := toNat_le_u32Max
  refine ⟨fun other => ?_, fun other => ?_⟩
  · show (jobsIn other .running (startJobs plan board.jobs)).length ≤ _
    rw [hplan.running]
    by_cases hother : other = kind
    · subst hother
      have hlimit := h.concurrency other
      have hslots := hplan.concurrency (hlimit.trans (hmax _))
      rw [if_pos rfl]
      omega
    · rw [if_neg hother]
      exact h.concurrency other
  · show board.started other + _ ≤ _
    by_cases hother : other = kind
    · subst hother
      have hlimit := h.rate other
      have hslots := hplan.rate
      rw [toNat_ofNat_le (hlimit.trans (hmax _))] at hslots
      rw [if_pos rfl, hplan.ids, List.length_map]
      omega
    · rw [if_neg hother]
      exact h.rate other

/-- A change of status that does not lead to running leaves no more jobs running. -/
theorem WithinLimits.change (h : WithinLimits profiles board) {before after : List MemoryJob}
    {job : MemoryJob} {target : MemoryJobStatus} (hjobs : board.jobs = before ++ job :: after)
    (htarget : target ≠ .running) (log : List JobEvent) :
    WithinLimits profiles ⟨before ++ { job with status := target } :: after, board.started, log⟩ := by
  refine ⟨fun kind => ?_, h.rate⟩
  have hlimit := h.concurrency kind
  rw [hjobs] at hlimit
  refine le_trans ?_ hlimit
  simp only [jobsIn, List.filter_append, List.length_append, List.filter_cons, htarget]
  simp only [decide_false, Bool.and_false, Bool.false_eq_true, if_false]
  split
  · rw [List.length_cons]
    omega
  · exact le_rfl

theorem WithinLimits.create (h : WithinLimits profiles board) {job : MemoryJob}
    (hqueued : job.status = .queued) (log : List JobEvent) :
    WithinLimits profiles ⟨board.jobs ++ [job], board.started, log⟩ := by
  refine ⟨fun kind => ?_, h.rate⟩
  have hlimit := h.concurrency kind
  simpa [jobsIn, List.filter_append, hqueued] using hlimit

/-- **One step** keeps the limits and the log. -/
theorem jobStep_keeps (hstep : JobStep profiles board board')
    (h : WithinLimits profiles board ∧ Logged board) :
    WithinLimits profiles board' ∧ Logged board' := by
  obtain ⟨hlimits, hlogged⟩ := h
  cases hstep with
  | dispatch kind plan hplan => exact ⟨hlimits.dispatch hplan _, hlogged.dispatch hplan _⟩
  | change before job after target hjobs hvalid htarget =>
    rw [validateMemoryJobStatusTransition, rejectIf_eq_ok, Bool.not_eq_false] at hvalid
    exact ⟨hlimits.change hjobs htarget _, hlogged.change hjobs hvalid⟩
  | create request id attempt createdAt hcreate =>
    exact ⟨hlimits.create rfl _, hlogged.create (createdJob request id attempt createdAt)⟩
  | reuse request id status attempt hreuse => exact ⟨hlimits, hlogged⟩
  | window kind =>
    refine ⟨⟨hlimits.concurrency, fun other => ?_⟩, hlogged.starts, hlogged.unknown, hlogged.agrees⟩
    show (if other = kind then 0 else board.started other) ≤ _
    by_cases hother : other = kind
    · rw [if_pos hother]
      exact Nat.zero_le _
    · rw [if_neg hother]
      exact hlimits.rate other

/-- **One step** keeps the keys distinct. -/
theorem jobStep_keys (hstep : JobStep profiles board board')
    (h : (board.jobs.map (·.idempotencyKey)).Nodup) : (board'.jobs.map (·.idempotencyKey)).Nodup := by
  cases hstep with
  | dispatch kind plan hplan =>
    show ((startJobs plan board.jobs).map (·.idempotencyKey)).Nodup
    rw [startJobs_keys]
    exact h
  | change before job after target hjobs hvalid htarget => simpa [hjobs] using h
  | create request id attempt createdAt hcreate =>
    have hnew := decideMemoryJobEnqueue_create hcreate
    simp only [List.map_append, List.map_singleton, List.nodup_append]
    refine ⟨h, by simp, ?_⟩
    intro a ha b hb hab
    rw [List.mem_singleton] at hb
    rw [hab, hb] at ha
    exact hnew ha
  | reuse request id status attempt hreuse => exact h
  | window kind => exact h

end Board

/-- **Dispatch safety.** In every board that a run reaches from one without running jobs: the running
jobs of a kind and the requests started in its window are within the limits, two starts of a job have
an interruption and a new queueing between them, and a plan starts no job while an older queued one of
its kind waits. Keys that are distinct stay distinct. -/
theorem jobs_safe (profiles : MemoryJobKind → TaskProfile) (initial board : JobBoard)
    (hrunning : ∀ job ∈ initial.jobs, job.status ≠ .running)
    (hstarted : ∀ kind, initial.started kind = 0) (hlog : initial.log = [])
    (hrun : ReflTransGen (JobStep profiles) initial board) :
    (∀ kind, (jobsIn kind .running board.jobs).length ≤ (profiles kind).concurrencyLimit.toNat) ∧
    (∀ kind, board.started kind ≤ (profiles kind).rateLimit.requests.toNat) ∧
    ((initial.jobs.map (·.idempotencyKey)).Nodup → (board.jobs.map (·.idempotencyKey)).Nodup) ∧
    (∀ id before between after,
      board.log = before ++ JobEvent.started id :: between ++ JobEvent.started id :: after →
        Requeued id between) ∧
    (∀ kind started plan, planMemoryJobDispatch board.jobs kind (profiles kind) started = .ok plan →
      ∀ job ∈ board.jobs, job.id ∈ plan.startJobIds → job.kind = kind ∧ job.status = .queued ∧
        ∀ older ∈ board.jobs, older.kind = kind → older.status = .queued → olderJob older job →
          older.id ∈ plan.startJobIds) := by
  have hinit : WithinLimits profiles initial ∧ Logged initial := by
    refine ⟨⟨fun kind => ?_, fun kind => ?_⟩, ?_, ?_, ?_⟩
    · have hnone : jobsIn kind .running initial.jobs = [] := by
        rw [jobsIn, List.filter_eq_nil_iff]
        intro job hjob
        simp [hrunning job hjob]
      rw [hnone]
      exact Nat.zero_le _
    · rw [hstarted]
      exact Nat.zero_le _
    · simp [hlog]
    · simp [hlog, phaseAfter]
    · simp [hlog, phaseAfter, Phase.Agrees]
  obtain ⟨hlimits, hlogged⟩ := run_inv (fun _ _ h hstep => jobStep_keeps hstep h) hrun hinit
  refine ⟨hlimits.concurrency, hlimits.rate, ?_, ?_, ?_⟩
  · exact run_inv (I := fun board : JobBoard => (board.jobs.map (·.idempotencyKey)).Nodup)
      (fun _ _ h hstep => jobStep_keys hstep h) hrun
  · intro id before between after hsplit
    have hidle := hlogged.starts (before ++ JobEvent.started id :: between) id after hsplit
    refine requeued_of_phase.1 ?_
    have hphase : phaseAfter id (before ++ JobEvent.started id :: between) =
        between.foldl (phaseStep id) .started := by
      simp [phaseAfter, phaseStep]
    rw [← hphase]
    exact hidle
  · intro kind started plan hplan job hjob hid
    obtain ⟨chosen, hplan⟩ := planMemoryJobDispatch_eq_ok hplan
    have hchosen : job ∈ chosen := by
      rw [hplan.ids] at hid
      obtain ⟨other, hother, hid⟩ := List.mem_map.1 hid
      rwa [← List.inj_on_of_nodup_map hplan.ids_nodup (hplan.chosen_mem other hother).1 hjob hid]
    obtain ⟨-, hkind, hqueued⟩ := hplan.chosen_mem job hchosen
    refine ⟨hkind, hqueued, fun older holder hsame hwaiting hlt => ?_⟩
    rw [hplan.ids]
    exact List.mem_map_of_mem (hplan.oldest job hchosen older holder hsame hwaiting hlt)

def sampleJob (id : MemoryJobId) (createdAt : Int) : MemoryJob where
  id := id
  idempotencyKey := id
  kind := .summary
  conversationId := "harbor"
  branchId := "main"
  sourceStartMessageId := "m1"
  sourceEndMessageId := "m2"
  status := .queued
  attempt := 0
  createdAt := createdAt

/-- Two queued jobs, the younger one first. -/
def sampleBoard : JobBoard where
  jobs := [sampleJob "late" 2, sampleJob "early" 1]
  started := fun _ => 0
  log := []

/-- One summary at a time, at most five in a window. -/
def sampleTaskProfile (_ : MemoryJobKind) : TaskProfile := ⟨.memorySummary, ⟨5, 60⟩, 1⟩

theorem jobs_safe_sampleBoard : ∃ plan,
    planMemoryJobDispatch sampleBoard.jobs .summary (sampleTaskProfile .summary) 0 = .ok plan ∧
      plan.startJobIds = ["early"] ∧
      (jobsIn .summary .running (startJobs plan sampleBoard.jobs)).length ≤ 1 := by
  let plan : MemoryJobDispatchPlan := ⟨["early"], 0, 5, false, false⟩
  have hplan : planMemoryJobDispatch sampleBoard.jobs .summary (sampleTaskProfile .summary) 0 =
      .ok plan := by decide +kernel
  have hsafe := jobs_safe sampleTaskProfile sampleBoard _ (by decide) (fun _ => rfl) rfl
    (.single (.dispatch .summary plan hplan))
  exact ⟨plan, hplan, rfl, hsafe.1 .summary⟩

end LorePia
