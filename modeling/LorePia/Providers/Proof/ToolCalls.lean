import LorePia.Providers.Stream
import LorePia.Chat.Proof.Generation

/-!
# The tool-call protocol of provider events

The protocol by itself: `ledger` reads the events of a provider one by one and keeps a record of each call;
it is defined as long as every call is started under a new identifier and its arguments and completion come
while it is open. The log of a call is then exactly the events of its record, so an adapter
whose events have a ledger reports every call started, then its arguments, then completed. The accumulator
of a generation knows the identifiers of the ledger and never refuses such events as a reused identifier
(`forward_not_reused`).
-/

namespace LorePia

open Base

/-- A tool call as its events tell it. -/
structure CallRecord where
  id : String
  name : String
  deltas : List String
  completed : Bool

section
variable {ω υ : Type}

/-- The events of a call, in order. -/
def CallRecord.events (call : CallRecord) : List (ProviderEvent ω) :=
  .toolCallStarted call.id call.name ::
    (call.deltas.map (ProviderEvent.toolCallArgumentsDelta call.id) ++
      if call.completed then [ProviderEvent.toolCallCompleted call.id] else [])

/-- The call that an event is about. -/
def ProviderEvent.callId : ProviderEvent ω → Option String
  | .toolCallStarted id _ => some id
  | .toolCallArgumentsDelta id _ => some id
  | .toolCallCompleted id => some id
  | _ => none

/-- The identifier that an event starts a call under. -/
def ProviderEvent.startedId : ProviderEvent ω → Option String
  | .toolCallStarted id _ => some id
  | _ => none

/-- The events about a call. -/
def callLog (id : String) (events : List (ProviderEvent ω)) : List (ProviderEvent ω) :=
  events.filter fun event => event.callId = some id

/-- The identifiers of the calls that are started, in order. -/
def startedIds (events : List (ProviderEvent ω)) : List String := events.filterMap (·.startedId)

theorem callLog_append (id : String) (events more : List (ProviderEvent ω)) :
    callLog id (events ++ more) = callLog id events ++ callLog id more := List.filter_append ..

theorem startedIds_append (events more : List (ProviderEvent ω)) :
    startedIds (events ++ more) = startedIds events ++ startedIds more := List.filterMap_append ..

/-! ## The ledger -/

/-- Changes the call of an identifier, which must be open. -/
def changeOpen (id : String) (change : CallRecord → CallRecord) (calls : List CallRecord) :
    Option (List CallRecord) :=
  if ∃ call ∈ calls, call.id = id ∧ call.completed = false then
    some (calls.map fun call => if call.id = id then change call else call)
  else none

/-- The call that was started last is changed alone. -/
theorem changeOpen_last {done : List CallRecord} {call : CallRecord} (change : CallRecord → CallRecord)
    (hdistinct : ((done ++ [call]).map (·.id)).Nodup) (hopen : call.completed = false) :
    changeOpen call.id change (done ++ [call]) = some (done ++ [change call]) := by
  have hother : ∀ earlier ∈ done, earlier.id ≠ call.id := by
    rw [List.map_append, List.nodup_append] at hdistinct
    exact fun earlier hearlier => hdistinct.2.2 _ (List.mem_map_of_mem hearlier) _ (List.mem_singleton_self _)
  have hdone : (done.map fun earlier => if earlier.id = call.id then change earlier else earlier) = done := by
    conv_rhs => rw [← List.map_id done]
    refine List.map_congr_left fun earlier hearlier => ?_
    rw [if_neg (hother earlier hearlier)]
    rfl
  have hthere : ∃ other ∈ done ++ [call], other.id = call.id ∧ other.completed = false :=
    ⟨call, List.mem_append_right _ (List.mem_singleton_self _), rfl, hopen⟩
  rw [changeOpen, if_pos hthere, List.map_append, hdone, List.map_singleton, if_pos rfl]

/-- Adds a piece of the arguments. -/
def CallRecord.addDelta (delta : String) (call : CallRecord) : CallRecord :=
  { call with deltas := call.deltas ++ [delta] }

/-- Completes the call. -/
def CallRecord.complete (call : CallRecord) : CallRecord := { call with completed := true }

/-- The records after one more event; nothing when the event breaks the protocol. -/
def takeCall (calls : List CallRecord) : ProviderEvent ω → Option (List CallRecord)
  | .toolCallStarted id name =>
    if ∃ call ∈ calls, call.id = id then none else some (calls ++ [⟨id, name, [], false⟩])
  | .toolCallArgumentsDelta id delta => changeOpen id (·.addDelta delta) calls
  | .toolCallCompleted id => changeOpen id (·.complete) calls
  | _ => some calls

/-- The records of the calls of the events. -/
def ledger (events : List (ProviderEvent ω)) : Option (List CallRecord) := events.foldlM takeCall []

theorem ledger_concat (events : List (ProviderEvent ω)) (event : ProviderEvent ω) :
    ledger (events ++ [event]) = (ledger events).bind fun calls => takeCall calls event := by
  rw [ledger, List.foldlM_append, ← ledger]
  cases ledger events with
  | none => rfl
  | some calls => simp [List.foldlM]

theorem ledger_concat_eq_some {events : List (ProviderEvent ω)} {event : ProviderEvent ω}
    {calls : List CallRecord} : ledger (events ++ [event]) = some calls ↔
      ∃ before, ledger events = some before ∧ takeCall before event = some calls := by
  rw [ledger_concat, Option.bind_eq_some_iff]

/-- What is told of the records. -/
structure Accounted (events : List (ProviderEvent ω)) (calls : List CallRecord) : Prop where
  started : startedIds events = calls.map (·.id)
  distinct : (calls.map (·.id)).Nodup
  log : ∀ call ∈ calls, callLog call.id events = call.events
  known : ∀ id, callLog id events ≠ [] → ∃ call ∈ calls, call.id = id

theorem Accounted.other {events : List (ProviderEvent ω)} {calls : List CallRecord} (h : Accounted events calls)
    {event : ProviderEvent ω} (hstart : event.startedId = none) (hid : event.callId = none) :
    Accounted (events ++ [event]) calls := by
  have hlog : ∀ id, callLog id (events ++ [event]) = callLog id events := fun id => by
    rw [callLog_append]
    simp [callLog, hid]
  refine ⟨?_, h.distinct, fun call hcall => (hlog call.id).trans (h.log call hcall), fun id hne => ?_⟩
  · rw [startedIds_append, h.started]
    simp [startedIds, hstart]
  · rw [hlog] at hne
    exact h.known id hne

/-- A call that is started. -/
theorem Accounted.start {events : List (ProviderEvent ω)} {calls : List CallRecord} (h : Accounted events calls)
    {id name : String} (hnew : ¬ ∃ call ∈ calls, call.id = id) :
    Accounted (events ++ [ProviderEvent.toolCallStarted id name]) (calls ++ [⟨id, name, [], false⟩]) := by
  have hempty : callLog id events = [] := by
    by_contra hne
    exact hnew (h.known id hne)
  refine ⟨?_, ?_, ?_, ?_⟩
  · rw [startedIds_append, h.started, List.map_append]
    rfl
  · rw [List.map_append, List.nodup_append]
    refine ⟨h.distinct, List.nodup_singleton _, ?_⟩
    intro a ha b hb hab
    obtain ⟨call, hcall, rfl⟩ := List.mem_map.1 ha
    exact hnew ⟨call, hcall, hab.trans (List.mem_singleton.1 hb)⟩
  · intro call hcall
    rw [callLog_append]
    rcases List.mem_append.1 hcall with hcall | hcall
    · have hne : id ≠ call.id := fun heq => hnew ⟨call, hcall, heq.symm⟩
      rw [h.log call hcall]
      simp [callLog, ProviderEvent.callId, hne]
    · cases List.mem_singleton.1 hcall
      rw [hempty]
      simp [callLog, ProviderEvent.callId, CallRecord.events]
  · intro other hne
    rw [callLog_append] at hne
    by_cases heq : id = other
    · exact ⟨_, List.mem_append_right _ (List.mem_singleton_self _), heq⟩
    · have hrest : callLog other [(.toolCallStarted id name : ProviderEvent ω)] = [] := by
        simp [callLog, ProviderEvent.callId, heq]
      rw [hrest, List.append_nil] at hne
      obtain ⟨call, hcall, hid⟩ := h.known other hne
      exact ⟨call, List.mem_append_left _ hcall, hid⟩

/-- An event of an open call. -/
theorem Accounted.change {events : List (ProviderEvent ω)} {calls after : List CallRecord}
    (h : Accounted events calls) {id : String} {change : CallRecord → CallRecord} {event : ProviderEvent ω}
    (hafter : changeOpen id change calls = some after) (hid : event.callId = some id)
    (hstart : event.startedId = none) (hkeep : ∀ call, (change call).id = call.id)
    (hevents : ∀ call, call.id = id → call.completed = false → (change call).events = call.events ++ [event]) :
    Accounted (events ++ [event]) after := by
  unfold changeOpen at hafter
  split at hafter
  case isFalse => cases hafter
  case isTrue hopen =>
    cases hafter
    have hids : (calls.map fun call => if call.id = id then change call else call).map (·.id) =
        calls.map (·.id) := by
      rw [List.map_map]
      refine List.map_congr_left fun call _ => ?_
      simp only [Function.comp_apply]
      split
      · exact hkeep call
      · rfl
    refine ⟨?_, hids ▸ h.distinct, ?_, ?_⟩
    · rw [startedIds_append, hids, h.started]
      simp [startedIds, hstart]
    · intro call hcall
      obtain ⟨old, hold, rfl⟩ := List.mem_map.1 hcall
      rw [callLog_append]
      split
      case isTrue heq =>
        obtain ⟨opened, hopened, hopenedId, hcompleted⟩ := hopen
        have hsame : opened = old := List.inj_on_of_nodup_map h.distinct hopened hold (hopenedId.trans heq.symm)
        subst hsame
        rw [hkeep, h.log opened hopened, hevents opened heq hcompleted]
        simp [callLog, hid, heq]
      case isFalse hne =>
        rw [h.log old hold]
        simp [callLog, hid, Ne.symm hne]
    · intro other hne
      have hmember : ∃ call ∈ calls, call.id = other := by
        by_cases heq : id = other
        · obtain ⟨opened, hopened, hopenedId, -⟩ := hopen
          exact ⟨opened, hopened, hopenedId.trans heq⟩
        · refine h.known other fun hempty => hne ?_
          rw [callLog_append, hempty]
          simp [callLog, hid, heq]
      obtain ⟨call, hcall, heq⟩ := hmember
      refine ⟨_, List.mem_map.2 ⟨call, hcall, rfl⟩, ?_⟩
      split
      · exact (hkeep call).trans heq
      · exact heq

/-- **The records tell the events of every call.** -/
theorem ledger_accounted : ∀ {events : List (ProviderEvent ω)} {calls : List CallRecord},
    ledger events = some calls → Accounted events calls := by
  intro events
  induction events using List.reverseRecOn with
  | nil =>
    intro calls h
    cases h
    exact ⟨rfl, List.nodup_nil, fun call hcall => (List.not_mem_nil hcall).elim, fun id hne => (hne rfl).elim⟩
  | append_singleton events event ih =>
    intro calls h
    obtain ⟨before, hbefore, hstep⟩ := ledger_concat_eq_some.1 h
    have hrec := ih hbefore
    cases event with
    | toolCallStarted id name =>
      simp only [takeCall] at hstep
      split at hstep
      case isTrue => cases hstep
      case isFalse hnew =>
        cases hstep
        exact hrec.start hnew
    | toolCallArgumentsDelta id delta =>
      refine hrec.change hstep rfl rfl (fun _ => rfl) fun call hid hopen => ?_
      simp [CallRecord.events, CallRecord.addDelta, hopen, hid]
    | toolCallCompleted id =>
      refine hrec.change hstep rfl rfl (fun _ => rfl) fun call hid hopen => ?_
      simp [CallRecord.events, CallRecord.complete, hopen, hid]
    | textDelta delta | reasoningDelta delta | opaqueReasoningState state =>
      cases hstep
      exact hrec.other rfl rfl

/-! ## The accumulator -/

def reusedIdError : ChatStop := toolProtocolError "provider reused a tool-call identifier"

/-- The accumulator knows these identifiers at most. -/
def KnowsOnly (ids : List String) (acc : GenerationAccumulator ω υ) : Prop := ∀ id, acc.known id → id ∈ ids

/-- It learns no identifier and refuses none as reused. -/
def Quiet {α : Type} (x : Accumulate ω υ α) : Prop :=
  ∀ ids, Stateful.Triple (KnowsOnly ids) x (fun _ => KnowsOnly ids) fun stop _ => stop ≠ reusedIdError

section
variable {α β : Type}

theorem Quiet.bind {x : Accumulate ω υ α} {f : α → Accumulate ω υ β} (hx : Quiet x) (hf : ∀ a, Quiet (f a)) :
    Quiet (x >>= f) := fun ids => (hx ids).bind fun a => hf a ids

theorem quiet_get_bind {f : GenerationAccumulator ω υ → Accumulate ω υ β} (hf : ∀ acc, Quiet (f acc)) :
    Quiet (Stateful.get >>= f) := fun ids acc hacc => hf acc ids acc hacc

theorem quiet_pure (a : α) : Quiet (pure a : Accumulate ω υ α) := fun _ _ hacc => hacc

theorem quiet_fail {stop : ChatStop} (h : stop ≠ reusedIdError) :
    Quiet (Stateful.fail stop : Accumulate ω υ α) := fun _ _ _ => h

theorem quiet_lift {x : Except ChatStop α} (h : ∀ stop, x = .error stop → stop ≠ reusedIdError) :
    Quiet (Stateful.lift x : Accumulate ω υ α) := by
  intro ids acc hacc
  cases x with
  | ok a => exact hacc
  | error stop => exact h stop rfl

theorem quiet_rejectIf {bad : Prop} [Decidable bad] {stop : ChatStop} (h : stop ≠ reusedIdError) :
    Quiet (Stateful.lift (rejectIf bad stop) : Accumulate ω υ Unit) := by
  refine quiet_lift fun stop' hstop => ?_
  unfold rejectIf at hstop
  split at hstop
  · cases hstop
    exact h
  · cases hstop

theorem quiet_okOr {value : Option α} {stop : ChatStop} (h : stop ≠ reusedIdError) :
    Quiet (Stateful.lift (okOr value stop) : Accumulate ω υ α) := by
  refine quiet_lift fun stop' hstop => ?_
  cases value with
  | none =>
    cases hstop
    exact h
  | some a => cases hstop

theorem quiet_modify {change : GenerationAccumulator ω υ → GenerationAccumulator ω υ}
    (h : ∀ acc id, (change acc).known id → acc.known id) :
    Quiet (Stateful.modify change : Accumulate ω υ Unit) := fun _ acc hacc id hid => hacc id (h acc id hid)

end

theorem quiet_emit (kind : ChatEventKind υ) : Quiet (emit kind : Accumulate ω υ Unit) :=
  quiet_modify fun _ _ hid => hid

theorem quiet_nextTotals {bytes chars maxBytes maxChars : Nat} {limitError : ChatStop} {delta : String}
    (h : limitError ≠ reusedIdError) :
    Quiet (Stateful.lift (nextTotals bytes chars maxBytes maxChars limitError delta) :
      Accumulate ω υ (Nat × Nat)) := by
  obtain heq | ⟨-, -, heq⟩ := nextTotals_cases bytes chars maxBytes maxChars limitError delta
  · rw [heq]
    exact quiet_fail h
  · rw [heq]
    exact quiet_pure _

theorem push_not_reused (fragment : String) (stream : ReflectionStream) {stop : ChatStop}
    (h : ((ReflectionStream.push fragment).run stream).1 = .error stop) : stop ≠ reusedIdError := by
  have hpanic : ChatStop.panicked ≠ reusedIdError := by decide
  unfold ReflectionStream.push Stateful.run at h
  cases hcredential : stream.guard.credential with
  | none =>
    simp only [hcredential] at h
    cases h
  | some credential =>
    simp only [hcredential] at h
    generalize (if stream.pending = "" then fragment else stream.pending ++ fragment) = pending at h
    split at h
    · cases h
      exact hpanic
    split at h
    · cases h
      exact hpanic
    · cases h
      decide
    split at h
    · cases h
    split at h
    · cases h
      exact hpanic
    · cases h

theorem quiet_push (view : GenerationAccumulator ω υ → ReflectionStream)
    {put : ReflectionStream → GenerationAccumulator ω υ → GenerationAccumulator ω υ}
    (hput : ∀ stream acc id, (put stream acc).known id → acc.known id) (fragment : String) :
    Quiet (Stateful.zoom view put (ReflectionStream.push fragment)) := by
  intro ids acc hacc
  rw [Stateful.run_zoom]
  have hknown : KnowsOnly ids (put ((ReflectionStream.push fragment).run (view acc)).2 acc) :=
    fun id hid => hacc id (hput _ acc id hid)
  cases hresult : ((ReflectionStream.push fragment).run (view acc)).1 with
  | ok a => exact hknown
  | error stop => exact push_not_reused fragment (view acc) hresult

theorem quiet_rejectReflected (values : List String) : Quiet (rejectReflected values : Accumulate ω υ Unit) :=
  quiet_get_bind fun _ => quiet_rejectIf (by decide)

theorem quiet_countNonProgress (event : ProviderEvent ω) :
    Quiet (countNonProgress event : Accumulate ω υ Unit) := by
  unfold countNonProgress
  split
  · exact quiet_pure _
  · refine Quiet.bind (quiet_modify fun _ _ hid => ?_) fun _ => quiet_get_bind fun _ => quiet_rejectIf ?_
    · exact hid
    · decide

theorem quiet_forwardOutput (view : GenerationAccumulator ω υ → ReflectionStream)
    {put : ReflectionStream → GenerationAccumulator ω υ → GenerationAccumulator ω υ}
    (hput : ∀ stream acc id, (put stream acc).known id → acc.known id)
    {release : String → Accumulate ω υ Unit} (hrelease : ∀ filtered, Quiet (release filtered)) (delta : String) :
    Quiet (forwardOutput view put release delta) := by
  refine Quiet.bind ?_ fun _ => (quiet_push view hput delta).bind fun filtered => quiet_get_bind fun acc => ?_
  · exact quiet_get_bind fun acc => (quiet_nextTotals (by decide)).bind fun _ => quiet_modify fun _ _ hid => hid
  · split
    · exact hrelease filtered
    · exact quiet_pure _

theorem quiet_forwardText (delta : String) : Quiet (forwardText delta : Accumulate ω υ Unit) := by
  unfold forwardText
  refine quiet_forwardOutput _ ?_ (fun filtered => Quiet.bind (quiet_modify ?_) fun _ => quiet_emit _) delta
  · exact fun _ _ _ hid => hid
  · exact fun _ _ hid => hid

theorem quiet_forwardReasoning (delta : String) : Quiet (forwardReasoning delta : Accumulate ω υ Unit) := by
  unfold forwardReasoning
  refine quiet_forwardOutput _ ?_ (fun filtered => quiet_emit _) delta
  exact fun _ _ _ hid => hid

theorem quiet_emitChunks (id : String) : ∀ (fuel : Nat) (remaining : String),
    Quiet (emitChunks id fuel remaining : Accumulate ω υ Unit) := by
  intro fuel
  induction fuel with
  | zero =>
    intro remaining
    unfold emitChunks
    split
    · exact quiet_pure _
    · exact quiet_fail (by decide)
  | succ fuel ih =>
    intro remaining
    unfold emitChunks
    split
    · exact quiet_pure _
    · refine (quiet_okOr (by decide)).bind fun parts => (quiet_lift fun stop hstop => ?_).bind fun _ =>
        (quiet_emit _).bind fun _ => ih parts.2
      cases hparse : parseToolCallArgumentsDelta parts.1 with
      | ok _ =>
        rw [hparse] at hstop
        cases hstop
      | error _ =>
        rw [hparse] at hstop
        cases hstop
        show toolProtocolError "provider tool-call argument filtering failed" ≠ reusedIdError
        decide

theorem quiet_forwardToolArguments (id delta : String) :
    Quiet (forwardToolArguments id delta : Accumulate ω υ Unit) := by
  refine (quiet_rejectReflected _).bind fun _ => quiet_get_bind fun acc => ?_
  split
  · split
    · exact quiet_fail (by decide)
    · exact quiet_fail (by decide)
  · refine Quiet.bind ?_ fun _ => Quiet.bind ?_ fun filtered => ?_
    · exact quiet_get_bind fun acc => (quiet_nextTotals (by decide)).bind fun _ => quiet_modify fun _ _ hid => hid
    · refine quiet_get_bind fun acc => (quiet_okOr (by decide)).bind fun stream => quiet_push _ ?_ delta
      exact fun _ _ _ hid => hid
    · split
      · exact quiet_pure _
      · exact quiet_emitChunks id _ filtered

theorem quiet_completeToolCall (id : String) : Quiet (completeToolCall id : Accumulate ω υ Unit) := by
  intro ids
  refine Stateful.Triple.bind (quiet_rejectReflected [id] ids) fun _ => Stateful.Triple.get_bind fun acc hacc => ?_
  by_cases hactive : id ∈ acc.activeToolCalls
  · -- the call moves from the active to the completed ones
    intro acc' hacc'
    subst hacc'
    rw [Stateful.run_rejectIf_bind, if_neg (not_not.2 hactive), Stateful.run_modify_bind, Stateful.run_lift_bind]
    cases acc'.toolArgumentReflections id with
    | none =>
      show toolProtocolError "provider tool-call argument stream was unavailable" ≠ reusedIdError
      decide
    | some stream =>
      rintro other (hother | hother)
      · exact hacc other (.inl (Finset.mem_of_mem_erase hother))
      · rcases Finset.mem_insert.1 hother with rfl | hother
        · exact hacc other (.inl hactive)
        · exact hacc other (.inr hother)
  · intro acc' hacc'
    subst hacc'
    rw [Stateful.run_rejectIf_bind, if_pos hactive]
    show toolProtocolError "provider completed a tool call that was not active" ≠ reusedIdError
    decide

theorem forwardToolStart_knows (ids : List String) (id name : String) :
    Stateful.Triple (KnowsOnly ids) (forwardToolStart id name : Accumulate ω υ Unit)
      (fun _ => KnowsOnly (ids ++ [id])) fun stop _ => stop = reusedIdError → id ∈ ids := by
  have hquiet : Stateful.Triple (KnowsOnly ids) (rejectReflected [id, name] : Accumulate ω υ Unit)
      (fun _ => KnowsOnly ids) fun stop _ => stop = reusedIdError → id ∈ ids :=
    (quiet_rejectReflected [id, name] ids).mono (fun _ h => h) (fun _ _ h => h) fun _ _ hne heq => (hne heq).elim
  refine hquiet.bind fun _ => Stateful.Triple.get_bind fun acc hacc acc' hacc' => ?_
  subst hacc'
  rw [Stateful.run_rejectIf_bind]
  split
  · intro heq
    exact absurd heq (by decide)
  rw [Stateful.run_rejectIf_bind]
  split
  case isTrue hused => exact fun _ => hacc id hused
  case isFalse =>
    rw [Stateful.run_modify_bind]
    rintro other (hother | hother)
    · rcases Finset.mem_insert.1 hother with rfl | hother
      · exact List.mem_append_right _ (List.mem_singleton_self _)
      · exact List.mem_append_left _ (hacc other (.inl hother))
    · exact List.mem_append_left _ (hacc other (.inr hother))

theorem Quiet.knows {x : Accumulate ω υ Unit} (h : Quiet x) (ids : List String) {event : ProviderEvent ω}
    (hstart : event.startedId = none) : Stateful.Triple (KnowsOnly ids) x
      (fun _ => KnowsOnly (ids ++ event.startedId.toList))
      fun stop _ => stop = reusedIdError → ∃ id ∈ ids, event.startedId = some id := by
  refine (h ids).mono (fun _ h => h) (fun _ acc hacc => ?_) fun _ _ hne heq => (hne heq).elim
  rw [hstart, Option.toList_none, List.append_nil]
  exact hacc

/-- An event is refused as a reused identifier only when it starts a call under a known one. -/
theorem forward_knows (context : GenerationContext ω υ) (ids : List String) {event : ProviderEvent ω}
    (hreasoning : ∀ state, event ≠ .opaqueReasoningState state) :
    Stateful.Triple (KnowsOnly ids) (forward context event)
      (fun _ => KnowsOnly (ids ++ event.startedId.toList))
      fun stop _ => stop = reusedIdError → ∃ id ∈ ids, event.startedId = some id := by
  have hcount : Stateful.Triple (KnowsOnly ids) (countNonProgress event : Accumulate ω υ Unit)
      (fun _ => KnowsOnly ids) fun stop _ => stop = reusedIdError → ∃ id ∈ ids, event.startedId = some id :=
    (quiet_countNonProgress event ids).mono (fun _ h => h) (fun _ _ h => h) fun _ _ hne heq => (hne heq).elim
  refine hcount.bind fun _ => ?_
  cases event with
  | textDelta delta => exact (quiet_forwardText delta).knows ids rfl
  | reasoningDelta delta => exact (quiet_forwardReasoning delta).knows ids rfl
  | toolCallStarted id name =>
    exact (forwardToolStart_knows ids id name).mono (fun _ h => h) (fun _ _ h => h)
      fun _ _ hid heq => ⟨id, hid heq, rfl⟩
  | toolCallArgumentsDelta id delta => exact (quiet_forwardToolArguments id delta).knows ids rfl
  | toolCallCompleted id => exact (quiet_completeToolCall id).knows ids rfl
  | opaqueReasoningState state => exact (hreasoning state rfl).elim

/-- **Events that start every call under an identifier of its own are never refused as reused.** -/
theorem forward_not_reused (context : GenerationContext ω υ) {events : List (ProviderEvent ω)}
    (hreasoning : ∀ state, .opaqueReasoningState state ∉ events) (hdistinct : (startedIds events).Nodup) :
    Stateful.Triple (KnowsOnly []) (events.forM (forward context)) (fun _ => KnowsOnly (startedIds events))
      fun stop _ => stop ≠ reusedIdError := by
  refine Stateful.Triple.forM (I := fun done => KnowsOnly (startedIds done)) fun done event rest hall => ?_
  have hevent : ∀ state, event ≠ .opaqueReasoningState state := by
    rintro state rfl
    exact hreasoning state (hall ▸ List.mem_append_right _ List.mem_cons_self)
  refine (forward_knows context (startedIds done) hevent).mono (fun _ h => h) (fun _ acc hacc => ?_)
    fun stop _ hreused heq => ?_
  · have hlast : startedIds [event] = event.startedId.toList := by
      cases hstart : event.startedId <;> simp [startedIds, hstart]
    rw [startedIds_append, hlast]
    exact hacc
  · obtain ⟨id, hid, hstart⟩ := hreused heq
    rw [hall, startedIds_append, List.nodup_append] at hdistinct
    refine hdistinct.2.2 id hid id ?_ rfl
    rw [startedIds, List.filterMap_cons, hstart]
    exact List.mem_cons_self

end

end LorePia
