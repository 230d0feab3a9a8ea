import LorePia.Providers.OpenAiResponses
import LorePia.Providers.Proof.ToolCalls

/-!
# The protocol of an OpenAI Responses stream

`Took` lists what one accepted event does to the state. `Tracked` ties the tracker to the events that were
accepted, keyed by the item; `Booked` ties it to the ledger of what was sent, keyed by the call. The second
needs calls of different items to have different identifiers, which the adapter does not check: the protocol
holds exactly for the streams in which they have (`responses_protocol_iff`).
-/

namespace LorePia.OpenAiResponses

open Base

variable {ω : Type}

/-! ## One event -/

/-- A piece of the arguments of a call. -/
def ResponsesState.grown (s : ResponsesState ω) (itemId : String) (call : ResponsesToolCall) (rest : String) :
    ResponsesState ω :=
  { s with
    toolCalls := s.toolCalls.insert itemId { call with arguments := call.arguments ++ rest }
    sent := s.sent ++ if rest = "" then [] else [ProviderEvent.toolCallArgumentsDelta call.id rest] }

/-- The end of a call. -/
def ResponsesState.closed (s : ResponsesState ω) (itemId : String) (call : ResponsesToolCall) :
    ResponsesState ω :=
  { s with
    toolCalls := s.toolCalls.insert itemId { call with completed := true }
    sent := s.sent ++ [ProviderEvent.toolCallCompleted call.id] }

/-- An open call of the tracker. -/
def ResponsesState.Open (s : ResponsesState ω) (itemId : String) (call : ResponsesToolCall) : Prop :=
  s.toolCalls.get? itemId = some call ∧ call.completed = false

/-- The text that an event adds. -/
def ResponsesEvent.textDelta : ResponsesEvent → Option String
  | .text delta => some delta
  | _ => none

/-- The reasoning that an event adds. -/
def ResponsesEvent.reasoningDelta : ResponsesEvent → Option String
  | .reasoning delta => some delta
  | _ => none

/-- What an accepted event does. -/
inductive Took (s : ResponsesState ω) : ResponsesEvent → FrameAction → ResponsesState ω → Prop
  | ignored : Took s .ignored .continue s
  | text (delta : String) : Took s (.text delta) .continue
      { s with sent := s.sent ++ if delta = "" then [] else [ProviderEvent.textDelta delta] }
  | reasoning (delta : String) : Took s (.reasoning delta) .continue
      { s with sent := s.sent ++ if delta = "" then [] else [ProviderEvent.reasoningDelta delta] }
  | added (itemId id name : String) : s.toolCalls.get? itemId = none →
      Took s (.functionCallAdded itemId id name) .continue
        { s with
          toolCalls := s.toolCalls.insert itemId ⟨id, name, "", false⟩
          sent := s.sent ++ [ProviderEvent.toolCallStarted id name] }
  | delta (itemId arguments : String) (call : ResponsesToolCall) : s.Open itemId call →
      (call.arguments ++ arguments).utf8ByteSize ≤ maxPendingToolArgumentBytes →
      Took s (.argumentsDelta itemId arguments) .continue (s.grown itemId call arguments)
  | done (itemId arguments rest : String) (call : ResponsesToolCall) : s.Open itemId call →
      arguments = call.arguments ++ rest →
      (rest ≠ "" → arguments.utf8ByteSize ≤ maxPendingToolArgumentBytes) →
      Took s (.argumentsDone itemId call.name arguments) .continue
        ((s.grown itemId call rest).closed itemId { call with arguments })
  | completed (source : Option ResponseUsage) : (∀ call ∈ s.toolCalls.values, call.completed = true) →
      Took s (.completed source) .done { s with usage := updateUsage source s.usage }

theorem appendToolArguments_eq_ok {target fragment appended : String} :
    appendToolArguments target fragment = .ok appended ↔
      appended = target ++ fragment ∧ (target ++ fragment).utf8ByteSize ≤ maxPendingToolArgumentBytes := by
  have hsize : (target ++ fragment).utf8ByteSize = target.utf8ByteSize + fragment.utf8ByteSize :=
    String.utf8ByteSize_append
  have hmax : maxPendingToolArgumentBytes ≤ usizeMax := by decide
  simp only [appendToolArguments, bind_eq_ok, okOr_eq_ok, Option.filter_eq_some_iff, checkedAdd_eq_some, hsize,
    decide_eq_true_eq]
  constructor
  · rintro ⟨_, ⟨⟨_, rfl⟩, hle⟩, h⟩
    cases h
    exact ⟨rfl, hle⟩
  · rintro ⟨rfl, hle⟩
    exact ⟨_, ⟨⟨by omega, rfl⟩, hle⟩, rfl⟩

theorem openCall_eq_ok {s s' : ResponsesState ω} {itemId : String} {accepts : ResponsesToolCall → Bool}
    {call : ResponsesToolCall} :
    (openCall itemId accepts : Respond ω ResponsesToolCall).run s = (.ok call, s') ↔
      s.Open itemId call ∧ accepts call = true ∧ s = s' := by
  unfold openCall ResponsesState.Open
  rw [Stateful.run_get_bind, Stateful.run_lift_eq_ok, okOr_eq_ok, Option.filter_eq_some_iff, Bool.and_eq_true,
    Bool.not_eq_true', and_assoc, and_assoc, and_assoc]

theorem sendArguments_eq_ok {s s' : ResponsesState ω} {id arguments : String} {u : Unit}
    (h : (sendArguments id arguments).run s = (.ok u, s')) :
    arguments ≠ "" ∧ s' = { s with sent := s.sent ++ [ProviderEvent.toolCallArgumentsDelta id arguments] } := by
  obtain ⟨_, t, hlift, hsend⟩ := Stateful.run_bind_eq_ok.1 h
  obtain ⟨hparse, rfl⟩ := Stateful.run_lift_eq_ok.1 hlift
  have hne := rejectIf_eq_ok.1 (seq_eq_ok.1 (mapErr_eq_ok.1 hparse)).1
  cases hsend
  exact ⟨hne, rfl⟩

theorem sendNonEmpty_run (delta : String) (event : ProviderEvent ω) (s : ResponsesState ω) :
    (sendNonEmpty delta event).run s =
      (.ok (), { s with sent := s.sent ++ if delta = "" then [] else [event] }) := by
  unfold sendNonEmpty
  split
  · rw [List.append_nil]
    rfl
  · rfl

theorem took_functionCallAdded {s s' : ResponsesState ω} {itemId id name : String} {u : Unit}
    (h : (takeFunctionCallAdded itemId id name).run s = (.ok u, s')) :
    Took s (.functionCallAdded itemId id name) .continue s' := by
  unfold takeFunctionCallAdded setCall at h
  rw [Stateful.run_get_bind, Stateful.run_modify_bind, Stateful.run_rejectIf_bind] at h
  split at h
  · cases h
  · rename_i hnew
    cases h
    refine .added itemId id name ?_
    rw [OrdMap.contains, Bool.not_eq_true, Option.isSome_eq_false_iff, Option.isNone_iff_eq_none] at hnew
    exact hnew

theorem took_argumentsDelta {s s' : ResponsesState ω} {itemId arguments : String} {u : Unit}
    (h : (takeArgumentsDelta itemId arguments).run s = (.ok u, s')) :
    Took s (.argumentsDelta itemId arguments) .continue s' := by
  obtain ⟨call, t, hcall, h⟩ := Stateful.run_bind_eq_ok.1 h
  obtain ⟨hopen, -, rfl⟩ := openCall_eq_ok.1 hcall
  obtain ⟨appended, t, hlift, h⟩ := Stateful.run_bind_eq_ok.1 h
  obtain ⟨happend, rfl⟩ := Stateful.run_lift_eq_ok.1 hlift
  obtain ⟨rfl, hle⟩ := appendToolArguments_eq_ok.1 happend
  have hgrown : s' = s.grown itemId call arguments := by
    rw [setCall, Stateful.run_modify_bind] at h
    unfold ResponsesState.grown
    split at h
    case isTrue hempty =>
      cases h
      rw [if_pos hempty, List.append_nil]
    case isFalse hne =>
      obtain ⟨-, rfl⟩ := sendArguments_eq_ok h
      rw [if_neg hne]
  exact hgrown ▸ .delta itemId arguments call hopen hle

theorem insert_grown (s : ResponsesState ω) (itemId : String) (call : ResponsesToolCall) (rest : String) :
    (s.grown itemId call rest).toolCalls.get? itemId = some { call with arguments := call.arguments ++ rest } := by
  rw [ResponsesState.grown, OrdMap.get?_insert, if_pos rfl]

theorem grown_nothing {s : ResponsesState ω} {itemId : String} {call : ResponsesToolCall}
    (h : s.Open itemId call) : s.grown itemId call "" = s := by
  have hsame : s.toolCalls.insert itemId call = s.toolCalls := OrdMap.ext_get? fun key => by
    rw [OrdMap.get?_insert]
    split
    · rename_i hkey
      rw [← hkey, h.1]
    · rfl
  rw [ResponsesState.grown, String.append_empty, if_pos rfl, List.append_nil, hsame]

theorem took_argumentsDone {s s' : ResponsesState ω} {itemId name arguments : String} {u : Unit}
    (h : (takeArgumentsDone itemId name arguments).run s = (.ok u, s')) :
    Took s (.argumentsDone itemId name arguments) .continue s' := by
  obtain ⟨call, t, hcall, hrest⟩ := Stateful.run_bind_eq_ok.1 h
  obtain ⟨hopen, haccepts, rfl⟩ := openCall_eq_ok.1 hcall
  obtain ⟨grown, t, hgrown, hlast⟩ := Stateful.run_bind_eq_ok.1 hrest
  have hname := of_decide_eq_true haccepts
  subst hname
  rw [setCall, Stateful.run_modify_bind] at hlast
  cases hlast
  unfold settleArguments at hgrown
  split at hgrown
  case isTrue hwhole =>
    obtain ⟨appended, t', hlift, hgrown⟩ := Stateful.run_bind_eq_ok.1 hgrown
    obtain ⟨happend, rfl⟩ := Stateful.run_lift_eq_ok.1 hlift
    obtain ⟨rfl, hle⟩ := appendToolArguments_eq_ok.1 happend
    have hall : call.arguments ++ arguments = arguments := by rw [hwhole.1, String.empty_append]
    rw [setCall, Stateful.run_modify_bind] at hgrown
    obtain ⟨_, t', hsend, hgrown⟩ := Stateful.run_bind_eq_ok.1 hgrown
    obtain ⟨-, rfl⟩ := sendArguments_eq_ok hsend
    cases hgrown
    have hdone := Took.done itemId arguments arguments call hopen hall.symm fun _ => hall ▸ hle
    rw [ResponsesState.closed, ResponsesState.grown, if_neg hwhole.2, hall] at hdone
    rw [hall]
    exact hdone
  case isFalse hwhole =>
    obtain ⟨_, t', hlift, hpure⟩ := Stateful.run_bind_eq_ok.1 hgrown
    obtain ⟨hcheck, rfl⟩ := Stateful.run_lift_eq_ok.1 hlift
    have hsame := not_not.1 (rejectIf_eq_ok.1 hcheck)
    subst hsame
    cases hpure
    have hdone := Took.done itemId call.arguments "" call hopen (String.append_empty).symm fun h => (h rfl).elim
    rw [grown_nothing hopen] at hdone
    exact hdone

theorem took_completed {s s' : ResponsesState ω} {source : Option ResponseUsage} {u : Unit}
    (h : (takeCompleted source).run s = (.ok u, s')) : Took s (.completed source) .done s' := by
  unfold takeCompleted at h
  rw [Stateful.run_get_bind, Stateful.run_rejectIf_bind] at h
  split at h
  · cases h
  · rename_i hall
    cases h
    refine .completed source fun call hcall => ?_
    rw [List.any_eq_true, not_exists] at hall
    have := hall call
    rw [not_and, Bool.not_eq_true, Bool.not_eq_false'] at this
    exact this hcall

/-- **An accepted event does what `Took` says.** -/
theorem takeEvent_took {s s' : ResponsesState ω} {event : ResponsesEvent} {action : FrameAction}
    (h : (takeEvent event).run s = (.ok action, s')) : Took s event action s' := by
  cases event with
  | ignored =>
    cases h
    exact .ignored
  | text delta =>
    rw [takeEvent, Stateful.run_bind, sendNonEmpty_run] at h
    cases h
    exact .text delta
  | reasoning delta =>
    rw [takeEvent, Stateful.run_bind, sendNonEmpty_run] at h
    cases h
    exact .reasoning delta
  | functionCallAdded itemId id name =>
    obtain ⟨_, t, htake, h⟩ := Stateful.run_bind_eq_ok.1 h
    cases h
    exact took_functionCallAdded htake
  | argumentsDelta itemId arguments =>
    obtain ⟨_, t, htake, h⟩ := Stateful.run_bind_eq_ok.1 h
    cases h
    exact took_argumentsDelta htake
  | argumentsDone itemId name arguments =>
    obtain ⟨_, t, htake, h⟩ := Stateful.run_bind_eq_ok.1 h
    cases h
    exact took_argumentsDone htake
  | completed source =>
    obtain ⟨_, t, htake, h⟩ := Stateful.run_bind_eq_ok.1 h
    cases h
    exact took_completed htake

/-! ## The tracker and the events -/

/-- The identifier of an added call. -/
def ResponsesEvent.addedId : ResponsesEvent → Option String
  | .functionCallAdded _ id _ => some id
  | _ => none

/-- The identifiers of the calls that are added, in order. -/
def addedIds (decoded : List ResponsesEvent) : List String := decoded.filterMap (·.addedId)

theorem addedIds_concat (decoded : List ResponsesEvent) (event : ResponsesEvent) :
    addedIds (decoded ++ [event]) = addedIds decoded ++ event.addedId.toList :=
  filterMap_concat _ decoded event

/-- What the tracker tells of the events that were accepted. -/
structure Tracked (decoded : List ResponsesEvent) (calls : OrdMap String ResponsesToolCall) : Prop where
  added : ∀ itemId id name, .functionCallAdded itemId id name ∈ decoded →
    ∃ call, calls.get? itemId = some call ∧ call.id = id ∧ call.name = name
  source : ∀ itemId call, calls.get? itemId = some call → .functionCallAdded itemId call.id call.name ∈ decoded
  done : ∀ itemId name arguments, .argumentsDone itemId name arguments ∈ decoded →
    ∃ call, calls.get? itemId = some call ∧ call.completed = true ∧ call.arguments = arguments
  finished : ∀ itemId call, calls.get? itemId = some call → call.completed = true →
    .argumentsDone itemId call.name call.arguments ∈ decoded
  bounded : ∀ itemId call, calls.get? itemId = some call →
    call.arguments.utf8ByteSize ≤ maxPendingToolArgumentBytes

section
variable {decoded : List ResponsesEvent} {calls : OrdMap String ResponsesToolCall} {event : ResponsesEvent}

theorem tracked_empty : Tracked [] .empty where
  added _ _ _ h := (List.not_mem_nil h).elim
  source _ _ h := nomatch h
  done _ _ _ h := (List.not_mem_nil h).elim
  finished _ _ h := nomatch h
  bounded _ _ h := nomatch h

theorem mem_concat_of_ne {a : ResponsesEvent} (hne : event ≠ a) (h : a ∈ decoded ++ [event]) : a ∈ decoded := by
  rcases List.mem_append.1 h with h | h
  · exact h
  · exact (hne (List.mem_singleton.1 h).symm).elim

/-- An event that is not about the calls. -/
theorem Tracked.other (h : Tracked decoded calls)
    (hadded : ∀ itemId id name, event ≠ .functionCallAdded itemId id name)
    (hdone : ∀ itemId name arguments, event ≠ .argumentsDone itemId name arguments) :
    Tracked (decoded ++ [event]) calls where
  added itemId id name hmem := h.added itemId id name (mem_concat_of_ne (hadded itemId id name) hmem)
  source itemId call hget := List.mem_append_left _ (h.source itemId call hget)
  done itemId name arguments hmem :=
    h.done itemId name arguments (mem_concat_of_ne (hdone itemId name arguments) hmem)
  finished itemId call hget hcompleted := List.mem_append_left _ (h.finished itemId call hget hcompleted)
  bounded := h.bounded

theorem Tracked.start (h : Tracked decoded calls) {itemId id name : String} (hnew : calls.get? itemId = none) :
    Tracked (decoded ++ [ResponsesEvent.functionCallAdded itemId id name])
      (calls.insert itemId ⟨id, name, "", false⟩) := by
  have hne : ∀ {other call}, calls.get? other = some call → itemId ≠ other := by
    rintro _ call hget rfl
    rw [hnew] at hget
    cases hget
  refine ⟨?_, ?_, ?_, ?_, ?_⟩
  · intro other id' name' hmem
    rcases List.mem_append.1 hmem with hmem | hmem
    · obtain ⟨call, hget, hcall⟩ := h.added other id' name' hmem
      exact ⟨call, by rw [OrdMap.get?_insert, if_neg (hne hget), hget], hcall⟩
    · cases List.mem_singleton.1 hmem
      exact ⟨_, by rw [OrdMap.get?_insert, if_pos rfl], rfl, rfl⟩
  · intro other call hget
    rw [OrdMap.get?_insert] at hget
    split at hget
    · rename_i heq
      cases hget
      exact List.mem_append_right _ (heq ▸ List.mem_singleton_self _)
    · exact List.mem_append_left _ (h.source other call hget)
  · intro other name' arguments hmem
    have hne' : ResponsesEvent.functionCallAdded itemId id name ≠ .argumentsDone other name' arguments := nofun
    obtain ⟨call, hget, hcall⟩ := h.done other name' arguments (mem_concat_of_ne hne' hmem)
    exact ⟨call, by rw [OrdMap.get?_insert, if_neg (hne hget), hget], hcall⟩
  · intro other call hget hcompleted
    rw [OrdMap.get?_insert] at hget
    split at hget
    · cases hget
      cases hcompleted
    · exact List.mem_append_left _ (h.finished other call hget hcompleted)
  · intro other call hget
    rw [OrdMap.get?_insert] at hget
    split at hget
    · cases hget
      exact Nat.zero_le _
    · exact h.bounded other call hget

/-- An event about an open call. -/
theorem Tracked.change (h : Tracked decoded calls) (event : ResponsesEvent) {itemId : String}
    {call : ResponsesToolCall} (call' : ResponsesToolCall)
    (hget : calls.get? itemId = some call) (hopen : call.completed = false) (hid : call'.id = call.id)
    (hname : call'.name = call.name) (hadded : ∀ itemId id name, event ≠ .functionCallAdded itemId id name)
    (hdone : ∀ other name arguments, event = .argumentsDone other name arguments →
      other = itemId ∧ call'.completed = true ∧ call'.arguments = arguments)
    (hfinished : call'.completed = true → event = .argumentsDone itemId call'.name call'.arguments)
    (hbounded : call'.arguments.utf8ByteSize ≤ maxPendingToolArgumentBytes) :
    Tracked (decoded ++ [event]) (calls.insert itemId call') := by
  refine ⟨?_, ?_, ?_, ?_, ?_⟩
  · intro other id name hmem
    obtain ⟨old, hold, hcall⟩ := h.added other id name (mem_concat_of_ne (hadded other id name) hmem)
    rw [OrdMap.get?_insert]
    split
    · rename_i heq
      subst heq
      rw [hget] at hold
      cases hold
      exact ⟨call', rfl, hid.trans hcall.1, hname.trans hcall.2⟩
    · exact ⟨old, hold, hcall⟩
  · intro other found hfound
    refine List.mem_append_left _ ?_
    rw [OrdMap.get?_insert] at hfound
    split at hfound
    · rename_i heq
      cases hfound
      rw [hid, hname, ← heq]
      exact h.source itemId call hget
    · exact h.source other found hfound
  · intro other name arguments hmem
    rw [OrdMap.get?_insert]
    rcases List.mem_append.1 hmem with hmem | hmem
    · obtain ⟨old, hold, hcompleted, harguments⟩ := h.done other name arguments hmem
      have hne : itemId ≠ other := by
        rintro rfl
        rw [hget] at hold
        cases hold
        rw [hopen] at hcompleted
        cases hcompleted
      rw [if_neg hne]
      exact ⟨old, hold, hcompleted, harguments⟩
    · obtain ⟨rfl, hcompleted, harguments⟩ := hdone other name arguments (List.mem_singleton.1 hmem).symm
      rw [if_pos rfl]
      exact ⟨call', rfl, hcompleted, harguments⟩
  · intro other found hfound hcompleted
    rw [OrdMap.get?_insert] at hfound
    split at hfound
    · rename_i heq
      cases hfound
      rw [hfinished hcompleted, heq]
      exact List.mem_append_right _ (List.mem_singleton_self _)
    · exact List.mem_append_left _ (h.finished other found hfound hcompleted)
  · intro other found hfound
    rw [OrdMap.get?_insert] at hfound
    split at hfound
    · cases hfound
      exact hbounded
    · exact h.bounded other found hfound

end

/-! ## The events sent -/

/-- What was sent, of the events that were accepted. -/
structure Sent (decoded : List ResponsesEvent) (sent : List (ProviderEvent ω)) : Prop where
  text : sentOn .text sent = textOf (decoded.filterMap (·.textDelta))
  reasoning : sentOn .reasoning sent = textOf (decoded.filterMap (·.reasoningDelta))
  started : startedIds sent = addedIds decoded
  transparent : ∀ state, .opaqueReasoningState state ∉ sent

theorem sent_nil : Sent [] ([] : List (ProviderEvent ω)) := ⟨rfl, rfl, rfl, fun _ => List.not_mem_nil⟩

theorem Sent.append {decoded : List ResponsesEvent} {sent : List (ProviderEvent ω)} {event : ResponsesEvent}
    (h : Sent decoded sent) (pieces : List (ProviderEvent ω)) (htext : sentOn .text pieces = event.textDelta.getD "")
    (hreasoning : sentOn .reasoning pieces = event.reasoningDelta.getD "")
    (hstarted : startedIds pieces = event.addedId.toList)
    (htransparent : ∀ state, .opaqueReasoningState state ∉ pieces) :
    Sent (decoded ++ [event]) (sent ++ pieces) := by
  refine ⟨?_, ?_, ?_, fun state hmem => ?_⟩
  · rw [sentOn_append, h.text, htext, filterMap_concat, textOf_append, textOf_toList]
  · rw [sentOn_append, h.reasoning, hreasoning, filterMap_concat, textOf_append, textOf_toList]
  · rw [startedIds_append, h.started, hstarted, addedIds_concat]
  · rcases List.mem_append.1 hmem with hmem | hmem
    · exact h.transparent state hmem
    · exact htransparent state hmem

theorem Took.tracked {decoded : List ResponsesEvent} {s s' : ResponsesState ω} {event : ResponsesEvent}
    {action : FrameAction} (h : Took s event action s') (ht : Tracked decoded s.toolCalls) :
    Tracked (decoded ++ [event]) s'.toolCalls := by
  cases h with
  | ignored | text delta | reasoning delta | completed source hall => exact ht.other nofun nofun
  | added itemId id name hnew => exact ht.start hnew
  | delta itemId arguments call hopen hle =>
    refine ht.change _ _ hopen.1 hopen.2 rfl rfl nofun nofun (fun hcompleted => ?_) hle
    rw [hopen.2] at hcompleted
    cases hcompleted
  | done itemId arguments rest call hopen hall hle =>
    have hinsert : (s.toolCalls.insert itemId { call with arguments := call.arguments ++ rest }).insert itemId
        { call with arguments, completed := true } =
        s.toolCalls.insert itemId { call with arguments, completed := true } :=
      OrdMap.ext_get? fun key => by
        simp only [OrdMap.get?_insert]
        split <;> rfl
    have hbounded : arguments.utf8ByteSize ≤ maxPendingToolArgumentBytes := by
      by_cases hrest : rest = ""
      · rw [hall, hrest, String.append_empty]
        exact ht.bounded itemId call hopen.1
      · exact hle hrest
    have hchange := ht.change (.argumentsDone itemId call.name arguments)
      { call with arguments, completed := true } hopen.1 hopen.2 rfl rfl nofun
      (fun other name arguments heq => by cases heq; exact ⟨rfl, rfl, rfl⟩) (fun _ => rfl) hbounded
    rw [← hinsert] at hchange
    exact hchange

theorem Took.sent {decoded : List ResponsesEvent} {s s' : ResponsesState ω} {event : ResponsesEvent}
    {action : FrameAction} (h : Took s event action s') (hs : Sent decoded s.sent) :
    Sent (decoded ++ [event]) s'.sent := by
  have hnothing : ∀ {event : ResponsesEvent}, event.textDelta.getD "" = "" → event.reasoningDelta.getD "" = "" →
      event.addedId = none → Sent (decoded ++ [event]) (s.sent ++ []) := fun htext hreasoning hadded =>
    hs.append [] htext.symm hreasoning.symm (by rw [hadded]; rfl) fun _ => List.not_mem_nil
  cases h with
  | ignored => exact List.append_nil s.sent ▸ hnothing rfl rfl rfl
  | completed source hall => exact List.append_nil s.sent ▸ hnothing rfl rfl rfl
  | text delta =>
    by_cases hempty : delta = ""
    · rw [hempty, if_pos rfl]
      exact hnothing rfl rfl rfl
    · rw [if_neg hempty]
      exact hs.append [.textDelta delta] String.append_empty rfl rfl (by simp)
  | reasoning delta =>
    by_cases hempty : delta = ""
    · rw [hempty, if_pos rfl]
      exact hnothing rfl rfl rfl
    · rw [if_neg hempty]
      exact hs.append [.reasoningDelta delta] rfl String.append_empty rfl (by simp)
  | added itemId id name hnew => exact hs.append _ rfl rfl rfl (by simp)
  | delta itemId arguments call hopen hle =>
    unfold ResponsesState.grown
    by_cases hempty : arguments = ""
    · rw [if_pos hempty]
      exact hnothing rfl rfl rfl
    · rw [if_neg hempty]
      exact hs.append [.toolCallArgumentsDelta call.id arguments] rfl rfl rfl (by simp)
  | done itemId arguments rest call hopen hall hle =>
    unfold ResponsesState.closed ResponsesState.grown
    rw [List.append_assoc]
    by_cases hempty : rest = ""
    · rw [if_pos hempty]
      exact hs.append [.toolCallCompleted call.id] rfl rfl rfl (by simp)
    · rw [if_neg hempty]
      exact hs.append [.toolCallArgumentsDelta call.id rest, .toolCallCompleted call.id] rfl rfl rfl (by simp)

/-! ## The tracker and the ledger -/

/-- The record of a call. -/
def Records (record : CallRecord) (call : ResponsesToolCall) : Prop :=
  record.id = call.id ∧ record.name = call.name ∧ record.completed = call.completed ∧
    textOf record.deltas = call.arguments

/-- The calls of different items have different identifiers. -/
def Separate (calls : OrdMap String ResponsesToolCall) : Prop :=
  ∀ itemId other call call', calls.get? itemId = some call → calls.get? other = some call' →
    call.id = call'.id → itemId = other

/-- What was sent has a ledger with a record of every call of the tracker. -/
def Booked (s : ResponsesState ω) : Prop :=
  ∃ records, ledger s.sent = some records ∧
    ∀ itemId call, s.toolCalls.get? itemId = some call → ∃ record ∈ records, Records record call

theorem eq_of_nodup_filterMap {α β : Type} {f : α → Option β} : ∀ {l : List α}, (l.filterMap f).Nodup →
    ∀ {a a' : α} {b : β}, a ∈ l → a' ∈ l → f a = some b → f a' = some b → a = a'
  | [], _, _, _, _, ha, _, _, _ => (List.not_mem_nil ha).elim
  | c :: l, h, a, a', b, ha, ha', hb, hb' => by
    have htail : (l.filterMap f).Nodup := h.sublist ((List.sublist_cons_self c l).filterMap f)
    have hhead : ∀ {x}, f c = some b → x ∈ l → f x ≠ some b := by
      intro x hc hx hxb
      rw [List.filterMap_cons, hc] at h
      exact (List.nodup_cons.1 h).1 (List.mem_filterMap.2 ⟨x, hx, hxb⟩)
    rcases List.mem_cons.1 ha with hc | ha
    · rcases List.mem_cons.1 ha' with hc' | ha'
      · rw [hc, hc']
      · exact (hhead (hc ▸ hb) ha' hb').elim
    · rcases List.mem_cons.1 ha' with hc' | ha'
      · exact (hhead (hc' ▸ hb') ha hb).elim
      · exact eq_of_nodup_filterMap htail ha ha' hb hb'

theorem Tracked.separate {decoded : List ResponsesEvent} {calls : OrdMap String ResponsesToolCall}
    (h : Tracked decoded calls) (hdistinct : (addedIds decoded).Nodup) : Separate calls := by
  intro itemId other call call' hget hget' hid
  have heq := eq_of_nodup_filterMap hdistinct (h.source itemId call hget) (h.source other call' hget')
    (rfl : _ = some call.id) (by rw [hid]; rfl)
  injection heq

theorem Separate.insert {calls : OrdMap String ResponsesToolCall} (h : Separate calls) {itemId : String}
    {call call' : ResponsesToolCall} (hget : calls.get? itemId = some call) (hid : call'.id = call.id) :
    Separate (calls.insert itemId call') := by
  have hold : ∀ {key found}, (calls.insert itemId call').get? key = some found →
      ∃ old, calls.get? key = some old ∧ old.id = found.id := by
    intro key found hfound
    rw [OrdMap.get?_insert] at hfound
    split at hfound
    · rename_i heq
      cases hfound
      exact ⟨call, heq ▸ hget, hid.symm⟩
    · exact ⟨found, hfound, rfl⟩
  intro key other found found' hfound hfound' heq
  obtain ⟨old, hold₁, hid₁⟩ := hold hfound
  obtain ⟨old', hold₂, hid₂⟩ := hold hfound'
  exact h key other old old' hold₁ hold₂ (hid₁.trans (heq.trans hid₂.symm))

/-- A change of an open call, in the tracker and in the ledger. -/
theorem Booked.change {s s' : ResponsesState ω} (h : Booked s) (hseparate : Separate s.toolCalls) {itemId : String}
    {call call' : ResponsesToolCall} {change : CallRecord → CallRecord} {event : ProviderEvent ω}
    (hopen : s.Open itemId call)
    (hchange : ∀ record, Records record call → Records (change record) call')
    (htake : ∀ records, takeCall records event = changeOpen call.id change records)
    (hcalls : s'.toolCalls = s.toolCalls.insert itemId call') (hsent : s'.sent = s.sent ++ [event]) : Booked s' := by
  obtain ⟨records, hledger, hrecords⟩ := h
  obtain ⟨record, hmem, hrecord⟩ := hrecords itemId call hopen.1
  have hfound : ∃ record ∈ records, record.id = call.id ∧ record.completed = false :=
    ⟨record, hmem, hrecord.1, hrecord.2.2.1.trans hopen.2⟩
  refine ⟨_, hsent ▸ ledger_concat_eq_some.2 ⟨records, hledger, (htake records).trans (if_pos hfound)⟩, ?_⟩
  intro other found hget
  rw [hcalls, OrdMap.get?_insert] at hget
  split at hget
  · cases hget
    refine ⟨_, List.mem_map.2 ⟨record, hmem, rfl⟩, ?_⟩
    rw [if_pos hrecord.1]
    exact hchange record hrecord
  · rename_i hne
    obtain ⟨record', hmem', hrecord'⟩ := hrecords other found hget
    refine ⟨_, List.mem_map.2 ⟨record', hmem', rfl⟩, ?_⟩
    have hother : record'.id ≠ call.id := fun heq =>
      hne (hseparate itemId other call found hopen.1 hget (heq.symm.trans hrecord'.1))
    rw [if_neg hother]
    exact hrecord'

theorem Booked.grown {s : ResponsesState ω} (h : Booked s) (hseparate : Separate s.toolCalls) {itemId : String}
    {call : ResponsesToolCall} (hopen : s.Open itemId call) (rest : String) : Booked (s.grown itemId call rest) := by
  by_cases hempty : rest = ""
  · rw [hempty, grown_nothing hopen]
    exact h
  · have hsent : (s.grown itemId call rest).sent = s.sent ++ [ProviderEvent.toolCallArgumentsDelta call.id rest] := by
      rw [ResponsesState.grown, if_neg hempty]
    refine h.change hseparate hopen (fun record hrecord => ?_) (fun _ => rfl) rfl hsent
    refine ⟨hrecord.1, hrecord.2.1, hrecord.2.2.1, ?_⟩
    rw [CallRecord.addDelta, textOf_append, hrecord.2.2.2, textOf, textOf, String.append_empty]

theorem Booked.closed {s : ResponsesState ω} (h : Booked s) (hseparate : Separate s.toolCalls) {itemId : String}
    {call : ResponsesToolCall} (hopen : s.Open itemId call) : Booked (s.closed itemId call) := by
  have hsent : (s.closed itemId call).sent = s.sent ++ [ProviderEvent.toolCallCompleted call.id] := rfl
  refine h.change hseparate hopen (fun record hrecord => ?_) (fun _ => rfl) rfl hsent
  exact ⟨hrecord.1, hrecord.2.1, rfl, hrecord.2.2.2⟩

theorem Booked.send {s s' : ResponsesState ω} (h : Booked s) {pieces : List (ProviderEvent ω)}
    (hpieces : ∀ event ∈ pieces, event.callId = none) (hcalls : s'.toolCalls = s.toolCalls)
    (hsent : s'.sent = s.sent ++ pieces) : Booked s' := by
  obtain ⟨records, hledger, hrecords⟩ := h
  refine ⟨records, ?_, hcalls ▸ hrecords⟩
  rw [hsent, ledger, List.foldlM_append, ← ledger, hledger]
  clear hsent
  induction pieces with
  | nil => rfl
  | cons event pieces ih =>
    have htake : takeCall records event = some records := by
      have := hpieces event List.mem_cons_self
      cases event <;> first | rfl | cases this
    rw [Option.bind_eq_bind, Option.bind_some, List.foldlM_cons, htake]
    exact ih fun event hmem => hpieces event (List.mem_cons_of_mem _ hmem)

theorem Booked.start {s : ResponsesState ω} (h : Booked s) {itemId id name : String}
    (hid : id ∉ startedIds s.sent) : Booked
      { s with
        toolCalls := s.toolCalls.insert itemId ⟨id, name, "", false⟩
        sent := s.sent ++ [ProviderEvent.toolCallStarted id name] } := by
  obtain ⟨records, hledger, hrecords⟩ := h
  have hnew : ¬ ∃ record ∈ records, record.id = id := by
    rintro ⟨record, hmem, rfl⟩
    rw [(ledger_accounted hledger).started] at hid
    exact hid (List.mem_map.2 ⟨record, hmem, rfl⟩)
  refine ⟨_, ledger_concat_eq_some.2 ⟨records, hledger, if_neg hnew⟩, ?_⟩
  intro other found hget
  rw [OrdMap.get?_insert] at hget
  split at hget
  · cases hget
    exact ⟨_, List.mem_append_right _ (List.mem_singleton_self _), rfl, rfl, rfl, rfl⟩
  · obtain ⟨record, hmem, hrecord⟩ := hrecords other found hget
    exact ⟨record, List.mem_append_left _ hmem, hrecord⟩

/-- As long as the calls are added under different identifiers, what is sent keeps a ledger. -/
theorem Took.booked {decoded : List ResponsesEvent} {s s' : ResponsesState ω} {event : ResponsesEvent}
    {action : FrameAction} (h : Took s event action s') (ht : Tracked decoded s.toolCalls)
    (hs : Sent decoded s.sent) (hdistinct : (addedIds (decoded ++ [event])).Nodup) (hb : Booked s) : Booked s' := by
  rw [addedIds_concat, List.nodup_append] at hdistinct
  have hseparate := ht.separate hdistinct.1
  cases h with
  | ignored => exact hb
  | completed source hall => exact hb
  | text delta => exact hb.send (by split <;> simp [ProviderEvent.callId]) rfl rfl
  | reasoning delta => exact hb.send (by split <;> simp [ProviderEvent.callId]) rfl rfl
  | added itemId id name hnew =>
    refine hb.start fun hid => ?_
    rw [hs.started] at hid
    exact hdistinct.2.2 id hid id (List.mem_singleton_self _) rfl
  | delta itemId arguments call hopen hle => exact hb.grown hseparate hopen arguments
  | done itemId arguments rest call hopen hall hle =>
    refine Booked.closed (hb.grown hseparate hopen rest) (hseparate.insert hopen.1 rfl) ⟨?_, hopen.2⟩
    rw [hall]
    exact insert_grown s itemId call rest

/-! ## Streams -/

/-- A stream of accepted events, before its completion. -/
inductive Accepted : List ResponsesEvent → ResponsesState ω → Prop
  | empty : Accepted [] .empty
  | step {decoded : List ResponsesEvent} {event : ResponsesEvent} {s s' : ResponsesState ω} :
      Accepted decoded s → Took s event .continue s' → Accepted (decoded ++ [event]) s'

/-- The events as they are read. -/
def decodedEvents (parseJson : String → Option Json) (events : List (List Byte)) : List ResponsesEvent :=
  events.filterMap fun event => (decodeEvent parseJson event).toOption

theorem processEvent_took {parseJson : String → Option Json} {event : List Byte} {s s' : ResponsesState ω}
    {action : FrameAction} (h : (processEvent parseJson event).run s = (.ok action, s')) :
    ∃ decoded, decodeEvent parseJson event = .ok decoded ∧ Took s decoded action s' := by
  obtain ⟨decoded, t, hlift, htake⟩ := Stateful.run_bind_eq_ok.1 h
  obtain ⟨hdecode, rfl⟩ := Stateful.run_lift_eq_ok.1 hlift
  exact ⟨decoded, hdecode, takeEvent_took htake⟩

theorem processEvents_accepted {parseJson : String → Option Json} : ∀ {events : List (List Byte)}
    {before : List ResponsesEvent} {s s' : ResponsesState ω}, Accepted before s →
    (processEvents parseJson events).run s = (.ok .continue, s') →
    Accepted (before ++ decodedEvents parseJson events) s'
  | [], before, s, s', hbefore, h => by
    cases h
    exact (List.append_nil before).symm ▸ hbefore
  | event :: events, before, s, s', hbefore, h => by
    obtain ⟨action, t, hevent, hrest⟩ := Stateful.run_bind_eq_ok.1 h
    cases action with
    | done => cases hrest
    | «continue» =>
      obtain ⟨decoded, hdecode, htook⟩ := processEvent_took hevent
      have hall := processEvents_accepted (hbefore.step htook) hrest
      rw [List.append_assoc] at hall
      rw [decodedEvents, List.filterMap_cons, hdecode]
      exact hall

theorem Accepted.tracked {decoded : List ResponsesEvent} {s : ResponsesState ω} (h : Accepted decoded s) :
    Tracked decoded s.toolCalls := by
  induction h with
  | empty => exact tracked_empty
  | step _ htook ih => exact htook.tracked ih

theorem Accepted.sent {decoded : List ResponsesEvent} {s : ResponsesState ω} (h : Accepted decoded s) :
    Sent decoded s.sent := by
  induction h with
  | empty => exact sent_nil
  | step _ htook ih => exact htook.sent ih

theorem Accepted.booked {decoded : List ResponsesEvent} {s : ResponsesState ω} (h : Accepted decoded s)
    (hdistinct : (addedIds decoded).Nodup) : Booked s := by
  induction h with
  | empty => exact ⟨[], rfl, fun _ _ hget => nomatch hget⟩
  | step hbefore htook ih =>
    have hprefix := hdistinct
    rw [addedIds_concat, List.nodup_append] at hprefix
    exact htook.booked hbefore.tracked hbefore.sent hdistinct (ih hprefix.1)

/-- No delta of arguments is accepted before its item is added or after it is done. -/
theorem Accepted.delta_open {decoded : List ResponsesEvent} {s : ResponsesState ω} (h : Accepted decoded s)
    {before after : List ResponsesEvent} {itemId arguments : String}
    (hdecoded : decoded = before ++ .argumentsDelta itemId arguments :: after) :
    (∃ id name, .functionCallAdded itemId id name ∈ before) ∧
      ∀ name whole, .argumentsDone itemId name whole ∉ before := by
  induction h generalizing after with
  | empty =>
    have := congrArg List.length hdecoded
    simp at this
  | @step decoded event s s' hbefore htook ih =>
    rcases List.eq_nil_or_concat after with rfl | ⟨after, last, rfl⟩
    · obtain ⟨rfl, heq⟩ := List.append_inj' hdecoded rfl
      cases heq
      cases htook with
      | delta _ _ call hopen hle =>
        refine ⟨⟨_, _, hbefore.tracked.source itemId call hopen.1⟩, fun name whole hdone => ?_⟩
        obtain ⟨found, hfound, hcompleted, -⟩ := hbefore.tracked.done itemId name whole hdone
        rw [hopen.1] at hfound
        cases hfound
        rw [hopen.2] at hcompleted
        cases hcompleted
    · rw [List.concat_eq_append, ← List.cons_append, ← List.append_assoc] at hdecoded
      exact ih (List.append_inj' hdecoded rfl).1

/-- The protocol of a completed stream: what was accepted up to the completion, and the state after it. -/
structure ResponsesProtocol (decoded : List ResponsesEvent) (final : ResponsesState ω) : Prop where
  call : ∀ itemId id name, .functionCallAdded itemId id name ∈ decoded → ∃ deltas : List String,
    callLog id final.sent =
      .toolCallStarted id name :: (deltas.map (.toolCallArgumentsDelta id) ++ [ProviderEvent.toolCallCompleted id]) ∧
    .argumentsDone itemId name (textOf deltas) ∈ decoded ∧
    (∀ name' arguments, .argumentsDone itemId name' arguments ∈ decoded → arguments = textOf deltas) ∧
    (textOf deltas).utf8ByteSize ≤ maxPendingToolArgumentBytes
  known : ∀ id, callLog id final.sent ≠ [] → ∃ itemId name, .functionCallAdded itemId id name ∈ decoded
  distinct : (startedIds final.sent).Nodup
  deltaOpen : ∀ before itemId arguments after, decoded = before ++ .argumentsDelta itemId arguments :: after →
    (∃ id name, .functionCallAdded itemId id name ∈ before) ∧
      ∀ name whole, .argumentsDone itemId name whole ∉ before
  text : sentOn .text final.sent = textOf (decoded.filterMap (·.textDelta))
  reasoning : sentOn .reasoning final.sent = textOf (decoded.filterMap (·.reasoningDelta))
  completed : ∀ call ∈ final.toolCalls.values, call.completed = true

/-- The accumulator of a generation never refuses the events as a reused identifier. -/
def NeverReused (events : List (ProviderEvent ω)) : Prop :=
  ∀ (υ : Type) (context : GenerationContext ω υ) (guard : CredentialReflectionGuard) (stop : ChatStop)
    (acc : GenerationAccumulator ω υ),
    (events.forM (forward context)).run (.start guard) = (.error stop, acc) → stop ≠ reusedIdError

theorem Accepted.protocol {decoded : List ResponsesEvent} {s : ResponsesState ω} (h : Accepted decoded s)
    (hdistinct : (addedIds decoded).Nodup) (hcompleted : ∀ call ∈ s.toolCalls.values, call.completed = true) :
    ResponsesProtocol decoded s := by
  obtain ⟨records, hledger, hrecords⟩ := h.booked hdistinct
  have haccounted := ledger_accounted hledger
  refine ⟨fun itemId id name hadded => ?_, fun id hne => ?_, ?_, ?_, h.sent.text, h.sent.reasoning, hcompleted⟩
  · obtain ⟨call, hget, rfl, rfl⟩ := h.tracked.added itemId id name hadded
    obtain ⟨record, hmem, hrecord⟩ := hrecords itemId call hget
    have hdone := hcompleted call (OrdMap.mem_values.2 ⟨itemId, hget⟩)
    refine ⟨record.deltas, ?_, ?_, fun name' arguments hdone' => ?_, ?_⟩
    · rw [← hrecord.1, haccounted.log record hmem, CallRecord.events, hrecord.2.1, hrecord.2.2.1, hdone]
      rfl
    · rw [hrecord.2.2.2]
      exact h.tracked.finished itemId call hget hdone
    · obtain ⟨found, hfound, -, rfl⟩ := h.tracked.done itemId name' arguments hdone'
      rw [hget] at hfound
      cases hfound
      exact hrecord.2.2.2.symm
    · rw [hrecord.2.2.2]
      exact h.tracked.bounded itemId call hget
  · obtain ⟨record, hmem, rfl⟩ := haccounted.known id hne
    have hstarted : record.id ∈ addedIds decoded := by
      rw [← h.sent.started, haccounted.started]
      exact List.mem_map_of_mem hmem
    obtain ⟨event, hevent, hid⟩ := List.mem_filterMap.1 hstarted
    cases event with
    | functionCallAdded itemId id name =>
      cases hid
      exact ⟨itemId, name, hevent⟩
    | _ => cases hid
  · rw [h.sent.started]
    exact hdistinct
  · exact fun before itemId arguments after hdecoded => h.delta_open hdecoded

theorem neverReused_of_distinct {events : List (ProviderEvent ω)}
    (htransparent : ∀ state, .opaqueReasoningState state ∉ events) (hdistinct : (startedIds events).Nodup) :
    NeverReused events := by
  intro υ context guard stop acc hrun
  have hknows : KnowsOnly [] (GenerationAccumulator.start guard : GenerationAccumulator ω υ) := by
    rintro id (hid | hid)
    · exact absurd hid (Finset.notMem_empty id)
    · exact absurd hid (Finset.notMem_empty id)
  have hends := forward_not_reused context htransparent hdistinct _ hknows
  rw [hrun] at hends
  exact hends

/-- **A completed stream keeps the protocol exactly when its calls are added under different identifiers.** -/
theorem responses_protocol_iff (parseJson : String → Option Json) {events : List (List Byte)} {last : List Byte}
    {s final : ResponsesState ω} (h : (processEvents parseJson events).run .empty = (.ok .continue, s))
    (hlast : (processEvent parseJson last).run s = (.ok .done, final)) :
    (ResponsesProtocol (decodedEvents parseJson events) final ∧ NeverReused final.sent) ↔
      (addedIds (decodedEvents parseJson events)).Nodup := by
  have haccepted : Accepted (decodedEvents parseJson events) s := processEvents_accepted .empty h
  obtain ⟨decoded, -, htook⟩ := processEvent_took hlast
  cases htook with
  | completed source hall =>
    constructor
    · rintro ⟨hprotocol, -⟩
      rw [← haccepted.sent.started]
      exact hprotocol.distinct
    · intro hdistinct
      obtain ⟨hcall, hknown, hids, hopen, htext, hreasoning, hcompleted⟩ := haccepted.protocol hdistinct hall
      exact ⟨⟨hcall, hknown, hids, hopen, htext, hreasoning, hcompleted⟩,
        neverReused_of_distinct haccepted.sent.transparent hids⟩

/-! ## Samples -/

theorem toList_of_eq {text : String} {l : List Char} (h : text = String.ofList l) : text.toList = l := by
  rw [h, String.toList_ofList]

theorem fromUTF8?_utf8Bytes (text : String) : String.fromUTF8? ⟨(utf8Bytes text).toArray⟩ = some text := by
  rw [utf8Bytes, Array.toArray_toList]
  exact dif_pos text.isValidUTF8

theorem lineData_data (l : List Char) : lineData (String.ofList ("data: ".toList ++ l)) = some (String.ofList l) := by
  have hdata : "data:".toList = ['d', 'a', 't', 'a', ':'] := toList_of_eq rfl
  have hspace : " ".toList = [' '] := toList_of_eq rfl
  have hboth : "data: ".toList = ['d', 'a', 't', 'a', ':', ' '] := toList_of_eq rfl
  have hlength : "data:".length = 5 := by decide
  have hlength' : " ".length = 1 := by decide
  simp [lineData, afterStart, hdata, hspace, hboth, hlength, hlength']

/-- An event of a single line of data. -/
theorem eventData_line {text : String} {l : List Char} (htext : text = String.ofList l)
    (hplain : l.all (fun c => c ≠ '\r' ∧ c ≠ '\n') = true)
    (htrim : ((l.dropWhile isWhitespace).reverse.dropWhile isWhitespace).reverse = l) (hne : l ≠ []) :
    eventData (utf8Bytes ("data: " ++ text)) = .ok (some text) := by
  have hlist : ("data: " ++ text).toList = "data: ".toList ++ l := by rw [String.toList_append, toList_of_eq htext]
  have hbreak : ∀ c ∈ ("data: " ++ text).toList, decide (c = '\r' ∨ c = '\n') = false := by
    intro c hc
    rw [hlist, List.mem_append] at hc
    have hc' : c ≠ '\r' ∧ c ≠ '\n' := by
      rcases hc with hc | hc
      · have hboth : "data: ".toList = ['d', 'a', 't', 'a', ':', ' '] := toList_of_eq rfl
        have hall : ['d', 'a', 't', 'a', ':', ' '].all (fun c => c ≠ '\r' ∧ c ≠ '\n') = true := by decide
        exact of_decide_eq_true (List.all_eq_true.1 hall c (hboth ▸ hc))
      · exact of_decide_eq_true (List.all_eq_true.1 hplain c hc)
    rw [decide_eq_false_iff_not, not_or]
    exact hc'
  have hlines : (eventLines ("data: " ++ text)).filterMap lineData = [text] := by
    rw [eventLines, List.splitOnP_eq_singleton hbreak, hlist, List.map_singleton, List.filterMap_cons, lineData_data,
      ← htext]
    rfl
  have hjoin : trim ("\n".intercalate [text]) = text := by
    show trim text = text
    rw [trim, toList_of_eq htext, htrim, ← htext]
  have hnonempty : ¬ ([text] = [] ∨ text = "") := by
    rintro (h | h)
    · cases h
    · exact hne (by rw [← toList_of_eq htext, h]; rfl)
  rw [eventData, fromUTF8?_utf8Bytes]
  show Except.ok (if (eventLines ("data: " ++ text)).filterMap lineData = [] ∨
    trim ("\n".intercalate ((eventLines ("data: " ++ text)).filterMap lineData)) = "" then none else
      some (trim ("\n".intercalate ((eventLines ("data: " ++ text)).filterMap lineData)))) = _
  rw [hlines, hjoin, if_neg hnonempty]

def firstAddedText : String :=
  "\x7b\"type\":\"response.output_item.added\",\"item\":\x7b\"type\":\"function_call\",\"id\":\"fc_1\",\"call_id\":\"call_1\",\"name\":\"tide\"\x7d\x7d"

def firstDoneText : String :=
  "\x7b\"type\":\"response.function_call_arguments.done\",\"item_id\":\"fc_1\",\"name\":\"tide\",\"arguments\":\"[]\"\x7d"

def secondAddedText : String :=
  "\x7b\"type\":\"response.output_item.added\",\"item\":\x7b\"type\":\"function_call\",\"id\":\"fc_2\",\"call_id\":\"call_1\",\"name\":\"tide\"\x7d\x7d"

def secondDoneText : String :=
  "\x7b\"type\":\"response.function_call_arguments.done\",\"item_id\":\"fc_2\",\"name\":\"tide\",\"arguments\":\"[]\"\x7d"

def completedText : String :=
  "\x7b\"type\":\"response.completed\",\"response\":\x7b\"status\":\"completed\"\x7d\x7d"

/-- A function call that is added. -/
def addedValue (itemId callId : String) : Json :=
  .object [("item", .object [("call_id", .string callId), ("id", .string itemId), ("name", .string "tide"),
    ("type", .string "function_call")]), ("type", .string "response.output_item.added")]

/-- A call whose arguments are done. -/
def doneValue (itemId : String) : Json :=
  .object [("arguments", .string "[]"), ("item_id", .string itemId), ("name", .string "tide"),
    ("type", .string "response.function_call_arguments.done")]

def completedValue : Json :=
  .object [("response", .object [("status", .string "completed")]), ("type", .string "response.completed")]

/-- What the sample texts parse to. -/
def sampleParse (text : String) : Option Json :=
  if text = firstAddedText then some (addedValue "fc_1" "call_1")
  else if text = firstDoneText then some (doneValue "fc_1")
  else if text = secondAddedText then some (addedValue "fc_2" "call_1")
  else if text = secondDoneText then some (doneValue "fc_2")
  else if text = completedText then some completedValue
  else none

/-- The bytes of an event with a line of data. -/
def dataEvent (text : String) : List Byte := utf8Bytes ("data: " ++ text)

/-- The samples, read. -/
theorem decode_samples :
    decodeEvent sampleParse (dataEvent firstAddedText) = .ok (.functionCallAdded "fc_1" "call_1" "tide") ∧
    decodeEvent sampleParse (dataEvent firstDoneText) = .ok (.argumentsDone "fc_1" "tide" "[]") ∧
    decodeEvent sampleParse (dataEvent secondAddedText) = .ok (.functionCallAdded "fc_2" "call_1" "tide") ∧
    decodeEvent sampleParse (dataEvent secondDoneText) = .ok (.argumentsDone "fc_2" "tide" "[]") ∧
    decodeEvent sampleParse (dataEvent completedText) = .ok (.completed none) := by
  have hread : ∀ {text : String} {l : List Char} (value : Json) {event : ResponsesEvent}, text = String.ofList l →
      (l.all (fun c => c ≠ '\r' ∧ c ≠ '\n') = true ∧
        ((l.dropWhile isWhitespace).reverse.dropWhile isWhitespace).reverse = l ∧ l ≠ [] ∧ l.head? ≠ some '[') →
      sampleParse text = some value → decodeValue value = .ok event →
      decodeEvent sampleParse (dataEvent text) = .ok event := by
    intro text l value event htext ⟨hplain, htrim, hne, hhead⟩ hparse hvalue
    have hmarker : text ≠ "[DONE]" := by
      rintro rfl
      rw [← toList_of_eq htext] at hhead
      exact hhead rfl
    rw [decodeEvent, dataEvent, eventData_line htext hplain htrim hne]
    show (rejectIf (text = "[DONE]") _ >>= fun _ => okOr (sampleParse text) _ >>= decodeValue) = _
    rw [rejectIf, if_neg hmarker, hparse]
    exact hvalue
  refine ⟨hread (addedValue "fc_1" "call_1") rfl ?_ ?_ rfl, hread (doneValue "fc_1") rfl ?_ ?_ rfl,
    hread (addedValue "fc_2" "call_1") rfl ?_ ?_ rfl, hread (doneValue "fc_2") rfl ?_ ?_ rfl,
    hread completedValue rfl ?_ ?_ rfl⟩
  all_goals first | decide | simp [sampleParse, firstAddedText, firstDoneText, secondAddedText, secondDoneText, completedText]

theorem run_processEvents_cons {parseJson : String → Option Json} {event : List Byte} {decoded : ResponsesEvent}
    {s t : ResponsesState ω} (hdecode : decodeEvent parseJson event = .ok decoded)
    (htake : (takeEvent decoded).run s = (.ok .continue, t)) (events : List (List Byte)) :
    (processEvents parseJson (event :: events)).run s = (processEvents parseJson events).run t := by
  rw [processEvents, Stateful.run_bind, processEvent, Stateful.run_bind, hdecode, Stateful.run_lift]
  dsimp only
  rw [htake]

theorem run_processEvent {parseJson : String → Option Json} {event : List Byte} {decoded : ResponsesEvent}
    (hdecode : decodeEvent parseJson event = .ok decoded) (s : ResponsesState ω) :
    (processEvent parseJson event).run s = (takeEvent decoded).run s := by
  rw [processEvent, Stateful.run_bind, hdecode, Stateful.run_lift]

/-- One call, added and done. -/
def singleStream : List (List Byte) := [dataEvent firstAddedText, dataEvent firstDoneText]

/-- Two items under one call identifier. -/
def reusedStream : List (List Byte) :=
  [dataEvent firstAddedText, dataEvent firstDoneText, dataEvent secondAddedText, dataEvent secondDoneText]

/-- What is sent of a call. -/
def sampleCall : List (ProviderEvent Unit) :=
  [.toolCallStarted "call_1" "tide", .toolCallArgumentsDelta "call_1" "[]", .toolCallCompleted "call_1"]

def singleState : ResponsesState Unit :=
  ⟨.empty, OrdMap.empty.insert "fc_1" ⟨"call_1", "tide", "[]", true⟩, sampleCall⟩

def reusedState : ResponsesState Unit :=
  ⟨.empty, singleState.toolCalls.insert "fc_2" ⟨"call_1", "tide", "[]", true⟩, sampleCall ++ sampleCall⟩

theorem run_singleStream (events : List (List Byte)) :
    (processEvents sampleParse (dataEvent firstAddedText :: dataEvent firstDoneText :: events)).run .empty =
      (processEvents sampleParse events).run singleState := by
  obtain ⟨hadded, hdone, -, -, -⟩ := decode_samples
  rw [run_processEvents_cons hadded rfl, run_processEvents_cons hdone rfl]
  rfl

theorem run_reusedStream :
    (processEvents sampleParse reusedStream).run .empty = (.ok .continue, reusedState) := by
  obtain ⟨-, -, hadded, hdone, -⟩ := decode_samples
  rw [reusedStream, run_singleStream, run_processEvents_cons hadded rfl, run_processEvents_cons hdone rfl]
  rfl

theorem responses_protocol_iff_tide :
    (ResponsesProtocol (decodedEvents sampleParse singleStream) singleState ∧ NeverReused singleState.sent) ↔
      (addedIds (decodedEvents sampleParse singleStream)).Nodup := by
  obtain ⟨-, -, -, -, hcompleted⟩ := decode_samples
  have hlast : (processEvent sampleParse (dataEvent completedText)).run singleState = (.ok .done, singleState) := by
    rw [run_processEvent hcompleted]
    rfl
  exact responses_protocol_iff sampleParse (run_singleStream []) hlast

/-- A generation without anything to check of opaque states and usage records. -/
def sampleContext : GenerationContext Unit Unit where
  validateGenerationRequest := .ok ()
  preserveOpaqueReasoningState := false
  opaqueStateContainsExact _ _ := false
  opaqueStateFamilyMatches _ := true
  validateOpaqueReasoningStates _ := .ok ()
  usageContainsExact _ _ := false

/-- A second item under the identifier of an earlier call is accepted, and the stream completes; the accumulator
refuses what was sent. -/
theorem responses_call_reused : ∃ final : ResponsesState Unit,
    (processEvents sampleParse reusedStream).run .empty = (.ok .continue, final) ∧
    (processEvent sampleParse (dataEvent completedText)).run final = (.ok .done, final) ∧
    ¬ ResponsesProtocol (decodedEvents sampleParse reusedStream) final ∧ ¬ NeverReused final.sent := by
  obtain ⟨-, -, -, -, hcompleted⟩ := decode_samples
  refine ⟨reusedState, run_reusedStream, ?_, fun hprotocol => ?_, fun hnever => ?_⟩
  · rw [run_processEvent hcompleted]
    rfl
  · exact absurd hprotocol.distinct (by decide)
  · exact hnever Unit sampleContext ⟨none, none⟩ reusedIdError _ rfl rfl

end LorePia.OpenAiResponses
