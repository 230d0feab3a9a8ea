import LorePia.ShellApi.Stream

/-!
# What a stream gives back

`Protocol routes sent` is what the publishers guarantee of the event bus: every event has a registered route, and
the events of one generation are numbered upwards with the terminal one at their end. A stream that reads such a bus
gives back, after its snapshot, exactly the events of its generation from where it started on, in their order,
until it asks for a reconciliation (`Following.recv`); and it does so for an event that another transport version or
route has, or when it was more than the channel's capacity behind (`Justified`).
-/

namespace LorePia.Delivery

open Base

variable {υ : Type}

/-! ## The events of one generation -/

def eventsOf (generation : GenerationId) (events : List (ChatEvent υ)) : List (ChatEvent υ) :=
  events.filter (·.generationId = generation)

@[simp] theorem eventsOf_append (generation : GenerationId) (events more : List (ChatEvent υ)) :
    eventsOf generation (events ++ more) = eventsOf generation events ++ eventsOf generation more :=
  List.filter_append ..

theorem mem_eventsOf {generation : GenerationId} {events : List (ChatEvent υ)} {event : ChatEvent υ} :
    event ∈ eventsOf generation events ↔ event ∈ events ∧ event.generationId = generation := by
  unfold eventsOf
  rw [List.mem_filter, decide_eq_true_iff]

theorem eventsOf_singleton {generation : GenerationId} {event : ChatEvent υ} (h : event.generationId = generation) :
    eventsOf generation [event] = [event] := by
  simp [eventsOf, h]

theorem eventsOf_singleton_other {generation : GenerationId} {event : ChatEvent υ}
    (h : event.generationId ≠ generation) : eventsOf generation [event] = [] := by
  simp [eventsOf, h]

theorem eventsOf_take_subset (generation : GenerationId) (sent : List (ChatEvent υ)) {stop next : Nat}
    (h : stop ≤ next) : eventsOf generation (sent.take stop) ⊆ eventsOf generation (sent.take next) := by
  intro e he
  rw [mem_eventsOf] at he ⊢
  exact ⟨List.take_subset_take_left _ h he.1, he.2⟩

/-- The text that a reader of the events shows. -/
def displayText (events : List (ChatEvent υ)) : String :=
  .join (events.map fun event => match event.kind with | .textDelta delta => delta | _ => "")

def reasoningText (events : List (ChatEvent υ)) : String :=
  .join (events.map fun event => match event.kind with | .reasoningDelta delta => delta | _ => "")

/-- The sequence of the last event. -/
def lastSequence (events : List (ChatEvent υ)) : Nat := (events.getLast?.map (·.sequence)).getD 0

theorem displayText_append (events more : List (ChatEvent υ)) :
    displayText (events ++ more) = displayText events ++ displayText more := by
  unfold displayText
  rw [List.map_append, String.join_append]

theorem reasoningText_append (events more : List (ChatEvent υ)) :
    reasoningText (events ++ more) = reasoningText events ++ reasoningText more := by
  unfold reasoningText
  rw [List.map_append, String.join_append]

theorem lastSequence_concat (events : List (ChatEvent υ)) (event : ChatEvent υ) :
    lastSequence (events ++ [event]) = event.sequence := by
  simp [lastSequence]

theorem lastSequence_cases (events : List (ChatEvent υ)) :
    lastSequence events = 0 ∨ ∃ e ∈ events, e.sequence = lastSequence events := by
  rcases events.eq_nil_or_concat with rfl | ⟨rest, last, rfl⟩
  · exact .inl rfl
  · rw [List.concat_eq_append, lastSequence_concat]
    exact .inr ⟨last, List.mem_append_right _ (List.mem_singleton_self last), rfl⟩

/-- Where every generation with an event was registered, and how its events follow one another. -/
structure Protocol (routes : List (GenerationId × GenerationRoute)) (sent : List (ChatEvent υ)) : Prop where
  routed : ∀ event ∈ sent, ∃ route, (event.generationId, route) ∈ routes ∧
    event.conversationId = route.conversation ∧ event.branchId = some route.branch ∧
    event.assistantMessageId = some route.assistantMessage
  positive : ∀ event ∈ sent, 0 < event.sequence
  ordered : ∀ generation, (eventsOf generation sent).Pairwise fun e f =>
    e.sequence < f.sequence ∧ e.kind.isTerminal = false

/-- A generation that was registered once has one route. -/
theorem routes_eq {routes : List (GenerationId × GenerationRoute)} (hfresh : (routes.map (·.1)).Nodup)
    {generation : GenerationId} {route route' : GenerationRoute} (h : (generation, route) ∈ routes)
    (h' : (generation, route') ∈ routes) : route' = route :=
  (Prod.ext_iff.1 (List.inj_on_of_nodup_map hfresh h' h rfl)).2

/-- An event of the log comes after every event of its generation before it. -/
theorem Protocol.before {routes : List (GenerationId × GenerationRoute)} {sent : List (ChatEvent υ)}
    (h : Protocol routes sent) {stop : Nat} {event : ChatEvent υ} (hevent : sent[stop]? = some event) :
    ∀ e ∈ eventsOf event.generationId (sent.take stop),
      e.sequence < event.sequence ∧ e.kind.isTerminal = false := by
  obtain ⟨hlength, hget⟩ := List.getElem?_eq_some_iff.1 hevent
  intro e he
  have hordered := h.ordered event.generationId
  rw [← List.take_append_drop stop sent, List.drop_eq_getElem_cons hlength, hget, eventsOf_append,
    List.pairwise_append] at hordered
  refine hordered.2.2 e he event ?_
  exact mem_eventsOf.2 ⟨List.mem_cons_self, rfl⟩

/-! ## One turn -/

/-- The items of the snapshot, when it was given back. -/
def Reader.taken (reader : Reader υ) : List (ChatStreamItem υ) :=
  match reader.stream.initialControl with
  | some _ => []
  | none => reader.snapshot.toList.map .reconciliationRequired

/-- Why a stream asks for a reconciliation that has given back the events up to a position. -/
def Justified (bus : Broadcast (ChatEvent υ)) (generation : GenerationId) (conversation : ConversationId)
    (branch : ConversationBranchId) (upto : Nat) : ReconcileReason → Prop
  | .broadcastLagged => upto + bus.capacity < bus.sent.length
  | .unsupportedEventVersion => ∃ event, bus.sent[upto]? = some event ∧ event.generationId = generation ∧
    event.eventVersion ≠ chatEventVersion
  | .routeMismatch => ∃ event, bus.sent[upto]? = some event ∧ event.generationId = generation ∧
    ¬ (event.conversationId = conversation ∧ event.branchId = some branch)
  | _ => False

/-- What a reader has given back after its snapshot: the events of its generation up to a position, and an end. -/
def Gave (bus : Broadcast (ChatEvent υ)) (reader : Reader υ) (upto : Nat) (ending : List (ChatStreamItem υ)) : Prop :=
  reader.start ≤ upto ∧ upto ≤ bus.sent.length ∧
    reader.items = reader.taken ++
      (eventsOf reader.stream.generationId (stretch bus.sent reader.start upto)).map .event ++ ending

/-- What is known of a reader at every moment. -/
structure Following (bus : Broadcast (ChatEvent υ)) (routes : List (GenerationId × GenerationRoute))
    (reader : Reader υ) : Prop where
  pending : reader.stream.initialControl ≠ none → reader.stream.initialControl = reader.snapshot ∧
    reader.items = [] ∧ reader.stream.receiver = reader.start ∧ reader.stream.reconciliationRequired = false
  within : reader.start ≤ reader.stream.receiver ∧ reader.stream.receiver ≤ bus.sent.length
  live : reader.stream.reconciliationRequired = false → ∃ n,
    Gave bus reader reader.stream.receiver (.replicate n .closed) ∧
      (0 < n → bus.closed = true ∧ bus.sent.length ≤ reader.stream.receiver)
  stopped : reader.stream.reconciliationRequired = true → ∃ upto required n,
    Gave bus reader upto (.reconciliationRequired required :: .replicate n .closed) ∧
      Justified bus reader.stream.generationId reader.stream.conversationId reader.stream.branchId upto
        required.reason
  last : ∃ l, reader.stream.lastSequence = some l ∧ (l = 0 ∨
    ∃ e ∈ eventsOf reader.stream.generationId (bus.sent.take reader.stream.receiver), e.sequence = l)
  terminal : reader.stream.terminalSeen = true →
    ∃ e ∈ eventsOf reader.stream.generationId (bus.sent.take reader.stream.receiver), e.kind.isTerminal = true
  assistant : ∀ assistant, reader.stream.assistantMessageId = some assistant →
    ∃ route, (reader.stream.generationId, route) ∈ routes ∧ route.assistantMessage = assistant

namespace Following

variable {bus : Broadcast (ChatEvent υ)} {routes : List (GenerationId × GenerationRoute)} {reader : Reader υ}

/-- What `receive` makes of the next event of the stream's generation. -/
theorem receive_cases (stream : ChatEventStream) {event : ChatEvent υ} {upto l : Nat} {assistant : MessageId}
    (hnext : bus.sent[upto]? = some event) (hgeneration : event.generationId = stream.generationId)
    (hassistant : event.assistantMessageId = some assistant)
    (hbound : ∀ m, stream.assistantMessageId = some m → m = assistant) (hterminal : stream.terminalSeen = false)
    (hlast : stream.lastSequence = some l) (hsequence : l < event.sequence) :
    (∃ reason, Justified bus stream.generationId stream.conversationId stream.branchId upto reason ∧
      stream.receive event = stream.requireReconciliation reason (some event.sequence) none) ∨
    stream.receive event =
      ({ stream with
          assistantMessageId := some assistant
          lastSequence := some event.sequence
          terminalSeen := event.kind.isTerminal },
        some (.event event)) := by
  unfold ChatEventStream.receive
  rw [if_neg (not_not_intro hgeneration)]
  by_cases hversion : event.eventVersion ≠ chatEventVersion
  · rw [if_pos hversion]
    exact .inl ⟨.unsupportedEventVersion, ⟨event, hnext, hgeneration, hversion⟩, rfl⟩
  rw [if_neg hversion]
  by_cases hroute : event.conversationId ≠ stream.conversationId ∨ event.branchId ≠ some stream.branchId
  · rw [if_pos hroute]
    refine .inl ⟨.routeMismatch, ⟨event, hnext, hgeneration, ?_⟩, rfl⟩
    rwa [not_and_or]
  have hor : stream.assistantMessageId.or (some assistant) = some assistant := by
    cases hm : stream.assistantMessageId with
    | none => rfl
    | some m => rw [hbound m hm]; rfl
  have hany : stream.assistantMessageId.any (· ≠ assistant) = false := by
    cases hm : stream.assistantMessageId with
    | none => rfl
    | some m => rw [hbound m hm]; simp
  rw [if_neg hroute, hassistant]
  dsimp only
  rw [hany, hterminal, hlast, hor]
  simp [hsequence]

theorem gave_taken (h : Following bus routes reader) {control : ReconciliationRequired}
    (hcontrol : reader.stream.initialControl = some control) :
    Following bus routes
      { reader with
        stream := { reader.stream with initialControl := none }
        items := reader.items ++ [.reconciliationRequired control] } := by
  obtain ⟨hsnapshot, hitems, hreceiver, hrequired⟩ := h.pending (by simp [hcontrol])
  refine ⟨fun hpending => absurd rfl hpending, h.within, fun _ => ⟨0, ⟨h.within.1, h.within.2, ?_⟩, by simp⟩,
    fun hstopped => ?_, h.last, h.terminal, h.assistant⟩
  · rw [hitems, show reader.stream.receiver = reader.start from hreceiver, stretch_self]
    simp [Reader.taken, ← hsnapshot, hcontrol, eventsOf]
  · rw [show reader.stream.reconciliationRequired = false from hrequired] at hstopped
    cases hstopped

/-- A stream that has nothing to say of a closed bus: it is read to its end. -/
theorem live_open (h : Following bus routes reader) (hlive : reader.stream.reconciliationRequired = false)
    (hbehind : reader.stream.receiver < bus.sent.length) :
    Gave bus reader reader.stream.receiver [] := by
  obtain ⟨n, hgave, hdrained⟩ := h.live hlive
  cases n with
  | zero => exact hgave
  | succ n => exact absurd (hdrained (Nat.succ_pos n)).2 (Nat.not_le.2 hbehind)

/-- The stream asks for a reconciliation, which leaves the events that it has given back. -/
theorem stop (h : Following bus routes reader) {required : ReconciliationRequired} {receiver : Nat}
    (hnone : reader.stream.initialControl = none) (hlive : reader.stream.reconciliationRequired = false)
    (hjustified : Justified bus reader.stream.generationId reader.stream.conversationId reader.stream.branchId
      reader.stream.receiver required.reason)
    (hwithin : reader.stream.receiver ≤ receiver ∧ receiver ≤ bus.sent.length)
    (hbehind : reader.stream.receiver < bus.sent.length) :
    Following bus routes
      { reader with
        stream := { reader.stream with receiver, reconciliationRequired := true }
        items := reader.items ++ [.reconciliationRequired required] } := by
  obtain ⟨hstart, hupto, hitems⟩ := h.live_open hlive hbehind
  have hgrown := eventsOf_take_subset reader.stream.generationId bus.sent hwithin.1
  refine ⟨fun hpending => absurd hnone hpending, ⟨Nat.le_trans h.within.1 hwithin.1, hwithin.2⟩, nofun, fun _ => ?_,
    ?_, ?_, h.assistant⟩
  · refine ⟨reader.stream.receiver, required, 0, ⟨hstart, hupto, ?_⟩, hjustified⟩
    rw [hitems, List.append_nil]
    rfl
  · obtain ⟨l, hl, hseen⟩ := h.last
    exact ⟨l, hl, hseen.imp_right fun ⟨e, he, hsequence⟩ => ⟨e, hgrown he, hsequence⟩⟩
  · intro hterminal
    obtain ⟨e, he, hkind⟩ := h.terminal hterminal
    exact ⟨e, hgrown he, hkind⟩

/-- The event of another generation is passed over. -/
theorem skip (h : Following bus routes reader) {event : ChatEvent υ}
    (hnone : reader.stream.initialControl = none) (hlive : reader.stream.reconciliationRequired = false)
    (hnext : bus.sent[reader.stream.receiver]? = some event)
    (hother : event.generationId ≠ reader.stream.generationId) :
    Following bus routes { reader with stream := { reader.stream with receiver := reader.stream.receiver + 1 } } := by
  have hbehind := (List.getElem?_eq_some_iff.1 hnext).1
  obtain ⟨hstart, hupto, hitems⟩ := h.live_open hlive hbehind
  have hgrown := eventsOf_take_subset reader.stream.generationId bus.sent (Nat.le_succ reader.stream.receiver)
  refine ⟨fun hpending => absurd hnone hpending, ⟨Nat.le_succ_of_le hstart, hbehind⟩, fun _ => ⟨0, ?_, by simp⟩,
    fun hstopped => ?_, ?_, ?_, h.assistant⟩
  · refine ⟨Nat.le_succ_of_le hstart, hbehind, ?_⟩
    dsimp only
    rw [hitems, stretch_succ hstart hnext, eventsOf_append, eventsOf_singleton_other hother, List.append_nil,
      List.append_nil]
    exact (List.append_nil _).symm
  · cases hlive.symm.trans hstopped
  · obtain ⟨l, hl, hseen⟩ := h.last
    exact ⟨l, hl, hseen.imp_right fun ⟨e, he, hsequence⟩ => ⟨e, hgrown he, hsequence⟩⟩
  · intro hterminal
    obtain ⟨e, he, hkind⟩ := h.terminal hterminal
    exact ⟨e, hgrown he, hkind⟩

/-- The next event of the stream's generation is given back. -/
theorem give (h : Following bus routes reader) {event : ChatEvent υ} {route : GenerationRoute}
    (hnone : reader.stream.initialControl = none) (hlive : reader.stream.reconciliationRequired = false)
    (hnext : bus.sent[reader.stream.receiver]? = some event)
    (hgeneration : event.generationId = reader.stream.generationId)
    (hroute : (reader.stream.generationId, route) ∈ routes) :
    Following bus routes
      { reader with
        stream := { reader.stream with
          receiver := reader.stream.receiver + 1
          assistantMessageId := some route.assistantMessage
          lastSequence := some event.sequence
          terminalSeen := event.kind.isTerminal }
        items := reader.items ++ [.event event] } := by
  have hbehind := (List.getElem?_eq_some_iff.1 hnext).1
  obtain ⟨hstart, hupto, hitems⟩ := h.live_open hlive hbehind
  have hseen : event ∈ eventsOf reader.stream.generationId (bus.sent.take (reader.stream.receiver + 1)) := by
    rw [mem_eventsOf, List.take_add_one, hnext]
    exact ⟨List.mem_append_right _ (List.mem_singleton_self event), hgeneration⟩
  refine ⟨fun hpending => absurd hnone hpending, ⟨Nat.le_succ_of_le hstart, hbehind⟩, fun _ => ⟨0, ?_, by simp⟩,
    fun hstopped => ?_, ⟨event.sequence, rfl, .inr ⟨event, hseen, rfl⟩⟩, fun hterminal => ⟨event, hseen, hterminal⟩,
    fun assistant hassistant => ?_⟩
  · refine ⟨Nat.le_succ_of_le hstart, hbehind, ?_⟩
    dsimp only
    rw [hitems, stretch_succ hstart hnext, eventsOf_append, eventsOf_singleton hgeneration, List.map_append]
    simp only [List.append_assoc, List.append_nil, List.replicate_zero, List.map_cons, List.map_nil, Reader.taken]
  · cases hlive.symm.trans hstopped
  · cases hassistant
    exact ⟨route, hroute, rfl⟩

/-- The bus is closed and read to its end, or the stream has stopped. -/
theorem close (h : Following bus routes reader) (hnone : reader.stream.initialControl = none)
    (hend : reader.stream.reconciliationRequired = true ∨
      bus.closed = true ∧ bus.sent.length ≤ reader.stream.receiver) :
    Following bus routes { reader with items := reader.items ++ [.closed] } := by
  refine ⟨fun hpending => absurd hnone hpending, h.within, fun hlive => ?_, fun hstopped => ?_, h.last, h.terminal,
    h.assistant⟩
  · obtain ⟨n, ⟨hstart, hupto, hitems⟩, -⟩ := h.live hlive
    refine ⟨n + 1, ⟨hstart, hupto, ?_⟩, fun _ => hend.resolve_left fun hstopped => ?_⟩
    · dsimp only
      rw [hitems, List.replicate_succ', List.append_assoc]
      rfl
    · cases hlive.symm.trans hstopped
  · obtain ⟨upto, required, n, ⟨hstart, hupto, hitems⟩, hjustified⟩ := h.stopped hstopped
    refine ⟨upto, required, n + 1, ⟨hstart, hupto, ?_⟩, hjustified⟩
    dsimp only
    rw [hitems, List.replicate_succ', List.append_assoc]
    rfl

/-- A turn that reads the bus. -/
theorem stream_recv {stream : ChatEventStream} (hnone : stream.initialControl = none)
    (hlive : stream.reconciliationRequired = false) : stream.recv bus =
      match bus.recv stream.receiver with
      | none => (stream, none)
      | some (.value event, next) => ChatEventStream.receive { stream with receiver := next } event
      | some (.lagged missed, next) =>
        ChatEventStream.requireReconciliation { stream with receiver := next } .broadcastLagged none (some missed)
      | some (.closed, next) => ({ stream with receiver := next }, some .closed) := by
  cases stream
  dsimp only at hnone hlive
  subst hnone hlive
  rfl

/-- **One turn of a stream** that reads an event. -/
theorem receive (h : Following bus routes reader) (hprotocol : Protocol routes bus.sent)
    (hfresh : (routes.map (·.1)).Nodup) {event : ChatEvent υ} (hnone : reader.stream.initialControl = none)
    (hlive : reader.stream.reconciliationRequired = false)
    (hnext : bus.sent[reader.stream.receiver]? = some event) :
    Following bus routes
      { reader with
        stream := (ChatEventStream.receive { reader.stream with receiver := reader.stream.receiver + 1 } event).1
        items := reader.items ++ (ChatEventStream.receive
          { reader.stream with receiver := reader.stream.receiver + 1 } event).2.toList } := by
  by_cases hgeneration : event.generationId = reader.stream.generationId
  · obtain ⟨route, hroute, -, -, hassistant⟩ := hprotocol.routed event (List.mem_of_getElem? hnext)
    rw [hgeneration] at hroute
    have hbefore := hprotocol.before hnext
    rw [hgeneration] at hbefore
    obtain ⟨l, hl, hseen⟩ := h.last
    have hbound : ∀ m, reader.stream.assistantMessageId = some m → m = route.assistantMessage := by
      intro m hm
      obtain ⟨route', hroute', rfl⟩ := h.assistant m hm
      rw [routes_eq hfresh hroute hroute']
    have hterminal : reader.stream.terminalSeen = false := by
      rw [Bool.eq_false_iff]
      intro hterminal
      obtain ⟨e, he, hkind⟩ := h.terminal hterminal
      cases (hbefore e he).2.symm.trans hkind
    have hsequence : l < event.sequence := by
      rcases hseen with rfl | ⟨e, he, rfl⟩
      · exact hprotocol.positive event (List.mem_of_getElem? hnext)
      · exact (hbefore e he).1
    rcases receive_cases { reader.stream with receiver := reader.stream.receiver + 1 } hnext hgeneration hassistant
      hbound hterminal hl hsequence with ⟨reason, hjustified, hreceive⟩ | hreceive
    · rw [hreceive]
      have hlength := (List.getElem?_eq_some_iff.1 hnext).1
      exact h.stop hnone hlive hjustified ⟨Nat.le_succ _, hlength⟩ hlength
    · rw [hreceive]
      exact h.give hnone hlive hnext hgeneration hroute
  · unfold ChatEventStream.receive
    rw [if_pos hgeneration]
    dsimp only [Option.toList_none]
    rw [List.append_nil]
    exact h.skip hnone hlive hnext hgeneration

/-- **One turn of a stream.** -/
theorem recv (h : Following bus routes reader) (hprotocol : Protocol routes bus.sent)
    (hfresh : (routes.map (·.1)).Nodup) : Following bus routes (reader.recv bus) := by
  unfold Reader.recv
  rcases reader.stream.initialControl.eq_none_or_eq_some with hnone | ⟨control, hcontrol⟩
  · by_cases hlive : reader.stream.reconciliationRequired = false
    · rw [stream_recv hnone hlive]
      rcases bus.recv_cases reader.stream.receiver with ⟨hrecv, -⟩ | ⟨event, hnext, hrecv⟩ | ⟨hbehind, hrecv⟩ |
        ⟨hclosed, hend, hrecv⟩
      · rw [hrecv]
        dsimp only [Option.toList_none]
        rwa [List.append_nil]
      · rw [hrecv]
        exact h.receive hprotocol hfresh hnone hlive hnext
      · rw [hrecv]
        have hwithin : reader.stream.receiver ≤ bus.oldest ∧ bus.oldest ≤ bus.sent.length := by
          unfold Broadcast.oldest
          omega
        exact h.stop hnone hlive (show Justified _ _ _ _ _ .broadcastLagged from hbehind) hwithin (by omega)
      · rw [hrecv]
        exact h.close hnone (.inr ⟨hclosed, hend⟩)
    · have hstopped := Bool.not_eq_false _ ▸ hlive
      have hrecv : reader.stream.recv bus = (reader.stream, some .closed) := by
        unfold ChatEventStream.recv
        rw [hnone, hstopped, if_pos rfl]
      rw [hrecv]
      exact h.close hnone (.inl hstopped)
  · have hrecv : reader.stream.recv bus =
        ({ reader.stream with initialControl := none }, some (.reconciliationRequired control)) := by
      unfold ChatEventStream.recv
      rw [hcontrol]
    rw [hrecv]
    exact h.gave_taken hcontrol

/-! ## The bus grows -/

theorem justified_append {bus bus' : Broadcast (ChatEvent υ)} {more : List (ChatEvent υ)}
    (hsent : bus'.sent = bus.sent ++ more) (hcapacity : bus'.capacity = bus.capacity) {generation : GenerationId}
    {conversation : ConversationId} {branch : ConversationBranchId} {upto : Nat} {reason : ReconcileReason}
    (h : Justified bus generation conversation branch upto reason) :
    Justified bus' generation conversation branch upto reason := by
  have hget : ∀ event, bus.sent[upto]? = some event → bus'.sent[upto]? = some event := by
    intro event hevent
    rw [hsent, List.getElem?_append_left (List.getElem?_eq_some_iff.1 hevent).1]
    exact hevent
  cases reason with
  | broadcastLagged =>
    show upto + bus'.capacity < bus'.sent.length
    rw [hcapacity, hsent, List.length_append]
    exact Nat.lt_add_right _ h
  | unsupportedEventVersion =>
    obtain ⟨event, hevent, hrest⟩ := h
    exact ⟨event, hget event hevent, hrest⟩
  | routeMismatch =>
    obtain ⟨event, hevent, hrest⟩ := h
    exact ⟨event, hget event hevent, hrest⟩
  | duplicateOrDecreasingSequence => exact h
  | sequenceGap => exact h
  | liveSnapshot => exact h
  | eventAfterTerminal => exact h

theorem gave_append {bus bus' : Broadcast (ChatEvent υ)} {more : List (ChatEvent υ)}
    (hsent : bus'.sent = bus.sent ++ more) {upto : Nat} {ending : List (ChatStreamItem υ)}
    (h : Gave bus reader upto ending) : Gave bus' reader upto ending := by
  obtain ⟨hstart, hupto, hitems⟩ := h
  refine ⟨hstart, ?_, ?_⟩
  · rw [hsent, List.length_append]
    exact Nat.le_add_right_of_le hupto
  · rw [hsent, stretch_append more hupto]
    exact hitems

/-- A reader is where it was while others publish and register. -/
theorem append (h : Following bus routes reader) {bus' : Broadcast (ChatEvent υ)} {more : List (ChatEvent υ)}
    {routes' : List (GenerationId × GenerationRoute)} (hsent : bus'.sent = bus.sent ++ more)
    (hcapacity : bus'.capacity = bus.capacity) (hclosed : bus.closed = true → bus'.closed = true ∧ more = [])
    (hroutes : routes ⊆ routes') : Following bus' routes' reader := by
  have htake : bus'.sent.take reader.stream.receiver = bus.sent.take reader.stream.receiver := by
    rw [hsent, List.take_append_of_le_length h.within.2]
  refine ⟨h.pending, ⟨h.within.1, ?_⟩, fun hlive => ?_, fun hstopped => ?_, ?_, ?_, fun assistant hassistant => ?_⟩
  · rw [hsent, List.length_append]
    exact Nat.le_add_right_of_le h.within.2
  · obtain ⟨n, hgave, hdrained⟩ := h.live hlive
    refine ⟨n, gave_append hsent hgave, fun hn => ?_⟩
    obtain ⟨hclosed', rfl⟩ := hclosed (hdrained hn).1
    rw [hsent, List.append_nil]
    exact ⟨hclosed', (hdrained hn).2⟩
  · obtain ⟨upto, required, n, hgave, hjustified⟩ := h.stopped hstopped
    exact ⟨upto, required, n, gave_append hsent hgave, justified_append hsent hcapacity hjustified⟩
  · rw [htake]
    exact h.last
  · rw [htake]
    exact h.terminal
  · obtain ⟨route, hroute, hm⟩ := h.assistant assistant hassistant
    exact ⟨route, hroutes hroute, hm⟩

end Following

/-! ## Snapshots -/

/-- A turn leaves a stream's route. -/
theorem recv_ids (stream : ChatEventStream) (bus : Broadcast (ChatEvent υ)) :
    (stream.recv bus).1.generationId = stream.generationId ∧
      (stream.recv bus).1.conversationId = stream.conversationId ∧
      (stream.recv bus).1.branchId = stream.branchId := by
  unfold ChatEventStream.recv ChatEventStream.receive ChatEventStream.requireReconciliation
  repeat' split
  all_goals exact ⟨rfl, rfl, rfl⟩

/-- The events of a reader's generation before its start. -/
def Reader.before (reader : Reader υ) (sent : List (ChatEvent υ)) : List (ChatEvent υ) :=
  eventsOf reader.stream.generationId (sent.take reader.start)

/-- A snapshot of the events so far. -/
structure Snapshot (before : List (ChatEvent υ)) (snapshot : ReconciliationRequired) : Prop where
  reason : snapshot.reason = .liveSnapshot
  observed : snapshot.observedSequence = some (lastSequence before)
  baseline : ∃ baseline, snapshot.lastSequence = some baseline ∧ baseline ≤ lastSequence before
  display : snapshot.displayPrefix = some (displayText before)
  reasoning : snapshot.reasoningPrefix = some (reasoningText before)

/-- A reader that was made with a snapshot has the registered route of its generation. -/
def Attached (sent : List (ChatEvent υ)) (routes : List (GenerationId × GenerationRoute)) (reader : Reader υ) : Prop :=
  ∀ snapshot, reader.snapshot = some snapshot → Snapshot (reader.before sent) snapshot ∧
    ∃ route, (reader.stream.generationId, route) ∈ routes ∧ route.conversation = reader.stream.conversationId ∧
      route.branch = reader.stream.branchId

theorem Attached.recv {sent : List (ChatEvent υ)} {routes : List (GenerationId × GenerationRoute)}
    {reader : Reader υ} (bus : Broadcast (ChatEvent υ)) (h : Attached sent routes reader) :
    Attached sent routes (reader.recv bus) := by
  obtain ⟨hgeneration, hconversation, hbranch⟩ := recv_ids reader.stream bus
  intro snapshot hsnapshot
  unfold Reader.recv Reader.before
  dsimp only
  rw [hgeneration, hconversation, hbranch]
  exact h snapshot hsnapshot

theorem Attached.append {sent more : List (ChatEvent υ)} {routes routes' : List (GenerationId × GenerationRoute)}
    {reader : Reader υ} (h : Attached sent routes reader) (hstart : reader.start ≤ sent.length)
    (hroutes : routes ⊆ routes') : Attached (sent ++ more) routes' reader := by
  intro snapshot hsnapshot
  obtain ⟨hshows, route, hroute, hrest⟩ := h snapshot hsnapshot
  refine ⟨?_, route, hroutes hroute, hrest⟩
  unfold Reader.before
  rw [List.take_append_of_le_length hstart]
  exact hshows

end LorePia.Delivery
