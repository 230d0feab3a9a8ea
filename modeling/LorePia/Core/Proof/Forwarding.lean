import LorePia.Core.GenerationWorkflow
import LorePia.Core.Proof.Delivery

/-!
# What the forwarder publishes and stores

The forwarder publishes the events that it receives in their order, without the text when that is deferred. What it
has stored is a beginning of the text that it has published, and after every turn that succeeds less than
`partialCheckpointBytes` of it are left to be stored (`forwarder_run`).
-/

namespace LorePia.Delivery

open Base

variable {υ : Type}

/-- The events among the inputs. -/
def inputEvents (inputs : List (ForwarderInput υ × ForwarderAnswers)) : List (ChatEvent υ) :=
  inputs.filterMap fun input => match input.1 with
    | .event event => some event
    | _ => none

/-- What is published of the events of a task. -/
def GenerationTask.shows (task : GenerationTask) (events : List (ChatEvent υ)) : List (ChatEvent υ) :=
  (events.filter fun event => task.outputTransforms.isNone || !event.kind.isTextDelta).map task.routed

/-- What the forwarder keeps of the text. -/
def GenerationTask.keeps (task : GenerationTask) (events : List (ChatEvent υ)) : String :=
  if task.outputTransforms.isNone && task.preservePartial then displayText events else ""

/-- The forwarder between two turns: it has published `handled` and appended the text of `seen`. -/
structure Forwarded (task : GenerationTask) (handled seen : List (ChatEvent υ)) (forwarder : Forwarder υ) : Prop where
  published : forwarder.published = task.shows handled
  content : forwarder.content = task.assistant.content ++ task.keeps seen
  stored : ∀ text, forwarder.stored = some text →
    text.utf8ByteSize = forwarder.lastCheckpointBytes ∧
      ∃ later, text ++ later = task.assistant.content ++ task.keeps handled
  unstored : forwarder.stored = none → forwarder.lastCheckpointBytes = 0
  clean : forwarder.dirty = false → forwarder.stored = some forwarder.content ∨
    forwarder.stored = none ∧ forwarder.content = task.assistant.content

/-- Little is left to be stored. -/
def Bounded (task : GenerationTask) (forwarder : Forwarder υ) : Prop :=
  (task.preservePartial && forwarder.dirty) = true →
    forwarder.content.utf8ByteSize - forwarder.lastCheckpointBytes < partialCheckpointBytes

/-- What the storage holds of the assistant's message. -/
def Forwarder.held (task : GenerationTask) (forwarder : Forwarder υ) : String :=
  forwarder.stored.getD task.assistant.content

namespace Forwarded

variable {task : GenerationTask} {handled seen : List (ChatEvent υ)} {forwarder : Forwarder υ}

theorem start (task : GenerationTask) : Forwarded task [] [] (.start task : Forwarder υ) where
  published := rfl
  content := by
    have hkeeps : task.keeps ([] : List (ChatEvent υ)) = "" := by
      unfold GenerationTask.keeps
      split <;> rfl
    rw [hkeeps]
    exact String.append_empty.symm
  stored _ hstored := by cases hstored
  unstored _ := rfl
  clean _ := .inr ⟨rfl, rfl⟩

theorem keeps_append (task : GenerationTask) (events more : List (ChatEvent υ)) :
    task.keeps (events ++ more) = task.keeps events ++ task.keeps more := by
  unfold GenerationTask.keeps
  split
  · exact displayText_append events more
  · rfl

/-- A checkpoint stores all that there is. -/
theorem checkpoint (h : Forwarded task handled handled forwarder) (answers : ForwarderAnswers) :
    Forwarded task handled handled (forwarder.checkpoint answers).1 ∧
      ((forwarder.checkpoint answers).2 = .ok () → (forwarder.checkpoint answers).1.dirty = false) := by
  unfold Forwarder.checkpoint
  cases answers.checkpoint with
  | error error => exact ⟨h, fun hok => by cases hok⟩
  | ok =>
    refine ⟨⟨h.published, h.content, fun text htext => ?_, fun hnone => absurd hnone (Option.some_ne_none _),
      fun _ => .inl rfl⟩, fun _ => rfl⟩
    cases htext
    exact ⟨rfl, "", by rw [String.append_empty, h.content]⟩

/-- The text of an event is appended, when it is kept. -/
theorem append (h : Forwarded task handled seen forwarder) (event : ChatEvent υ) :
    Forwarded task handled (seen ++ [event])
      (if task.outputTransforms.isNone && task.preservePartial then forwarder.append event.kind else forwarder) := by
  have hkeeps := keeps_append task seen [event]
  by_cases hkept : (task.outputTransforms.isNone && task.preservePartial) = true
  · have hone : task.keeps [event] = displayText [event] := by
      unfold GenerationTask.keeps
      rw [if_pos hkept]
    rw [if_pos hkept]
    cases hkind : event.kind with
    | textDelta delta =>
      have hdelta : task.keeps [event] = delta := by
        rw [hone]
        simp [displayText, hkind]
      refine ⟨h.published, ?_, h.stored, h.unstored, fun hdirty => by cases hdirty⟩
      show forwarder.content ++ delta = _
      rw [hkeeps, hdelta, h.content, String.append_assoc]
    | _ =>
      have hsilent : task.keeps [event] = "" := by
        rw [hone]
        simp [displayText, hkind]
      refine ⟨h.published, ?_, h.stored, h.unstored, h.clean⟩
      rw [hkeeps, hsilent, String.append_empty]
      exact h.content
  · have hnone : task.keeps [event] = "" := by
      unfold GenerationTask.keeps
      rw [if_neg hkept]
    rw [if_neg hkept]
    refine ⟨h.published, ?_, h.stored, h.unstored, h.clean⟩
    rw [hkeeps, hnone, String.append_empty]
    exact h.content

/-- The event is published, unless its text is deferred or the publication fails. -/
theorem publish (h : Forwarded task handled seen forwarder) (event : ChatEvent υ) (answers : ForwarderAnswers) :
    (∃ error, (forwarder.publish task event answers).2 = .error error ∧
      Forwarded task handled seen (forwarder.publish task event answers).1) ∨
    ((forwarder.publish task event answers).2 = .ok () ∧
      Forwarded task (handled ++ [event]) seen (forwarder.publish task event answers).1) := by
  unfold Forwarder.publish
  have hshows : task.shows (handled ++ [event]) = task.shows handled ++ task.shows [event] := by
    unfold GenerationTask.shows
    rw [List.filter_append, List.map_append]
  have hstored : ∀ text, forwarder.stored = some text → text.utf8ByteSize = forwarder.lastCheckpointBytes ∧
      ∃ later, text ++ later = task.assistant.content ++ task.keeps (handled ++ [event]) := by
    intro text htext
    obtain ⟨hbytes, later, hlater⟩ := h.stored text htext
    refine ⟨hbytes, later ++ task.keeps [event], ?_⟩
    rw [keeps_append, ← String.append_assoc, hlater, String.append_assoc]
  by_cases hvisible : (task.outputTransforms.isNone || !event.kind.isTextDelta) = true
  · have hone : task.shows [event] = [task.routed event] := by
      unfold GenerationTask.shows
      rw [List.filter_cons, if_pos hvisible]
      rfl
    rw [if_pos hvisible]
    cases answers.publish with
    | error error => exact .inl ⟨error, rfl, h⟩
    | ok =>
      refine .inr ⟨rfl, ?_, h.content, hstored, h.unstored, h.clean⟩
      rw [hshows, hone, ← h.published]
  · have hnone : task.shows [event] = [] := by
      unfold GenerationTask.shows
      rw [List.filter_cons, if_neg hvisible]
      rfl
    rw [if_neg hvisible]
    refine .inr ⟨rfl, ?_, h.content, hstored, h.unstored, h.clean⟩
    rw [hshows, hnone, List.append_nil]
    exact h.published

/-- **A turn that handles an event.** An error leaves at most its text behind. -/
theorem turn_event (h : Forwarded task handled handled forwarder) (event : ChatEvent υ)
    (answers : ForwarderAnswers) :
    ((forwarder.turn task (.event event) answers).2 = .ok () →
      Forwarded task (handled ++ [event]) (handled ++ [event]) (forwarder.turn task (.event event) answers).1 ∧
        Bounded task (forwarder.turn task (.event event) answers).1) ∧
    ∃ handled', (handled' = handled ∨ handled' = handled ++ [event]) ∧
      Forwarded task handled' (handled ++ [event]) (forwarder.turn task (.event event) answers).1 := by
  unfold Forwarder.turn
  dsimp only
  have happend := h.append event
  generalize (if task.outputTransforms.isNone && task.preservePartial then forwarder.append event.kind
    else forwarder) = appended at happend ⊢
  have hpublish := happend.publish event answers
  generalize appended.publish task event answers = published at hpublish ⊢
  obtain ⟨published, outcome⟩ := published
  rcases hpublish with ⟨error, houtcome, hpublished⟩ | ⟨houtcome, hpublished⟩
  · dsimp only at houtcome hpublished
    subst houtcome
    exact ⟨fun hok => (by cases hok), handled, .inl rfl, hpublished⟩
  · dsimp only at houtcome hpublished
    subst houtcome
    dsimp only
    by_cases hdue : (task.preservePartial && published.dirty && Forwarder.partialCheckpointDue
        published.content.utf8ByteSize published.lastCheckpointBytes) = true
    · rw [if_pos hdue]
      obtain ⟨hstored, hclean⟩ := hpublished.checkpoint answers
      refine ⟨fun hok => ⟨hstored, fun hdirty => ?_⟩, handled ++ [event], .inr rfl, hstored⟩
      rw [hclean hok, Bool.and_false] at hdirty
      cases hdirty
    · rw [if_neg hdue]
      refine ⟨fun _ => ⟨hpublished, fun hdirty => ?_⟩, handled ++ [event], .inr rfl, hpublished⟩
      rw [hdirty, Bool.true_and] at hdue
      unfold Forwarder.partialCheckpointDue at hdue
      rw [decide_eq_true_iff] at hdue
      exact Nat.lt_of_not_le hdue

/-- What the storage holds is a beginning of the text that was handled. -/
theorem behind (h : Forwarded task handled seen forwarder) :
    ∃ later, forwarder.held task ++ later = task.assistant.content ++ task.keeps handled := by
  unfold Forwarder.held
  cases hstored : forwarder.stored with
  | none => exact ⟨task.keeps handled, rfl⟩
  | some text => exact (h.stored text hstored).2

/-- What the storage is missing between two turns. -/
theorem missing (h : Forwarded task handled handled forwarder) (hpreserve : task.preservePartial = true)
    (hbounded : Bounded task forwarder) :
    ∃ later, forwarder.held task ++ later = task.assistant.content ++ task.keeps handled ∧
      later.utf8ByteSize < partialCheckpointBytes := by
  obtain ⟨later, hlater⟩ := h.behind
  refine ⟨later, hlater, ?_⟩
  have hbytes : forwarder.content.utf8ByteSize = (forwarder.held task).utf8ByteSize + later.utf8ByteSize := by
    rw [h.content, ← hlater, String.utf8ByteSize_append]
  cases hdirty : forwarder.dirty with
  | true =>
    have hsmall := hbounded (by rw [hpreserve, hdirty]; rfl)
    have hheld : forwarder.lastCheckpointBytes ≤ (forwarder.held task).utf8ByteSize := by
      unfold Forwarder.held
      cases hstored : forwarder.stored with
      | none =>
        rw [h.unstored hstored]
        exact Nat.zero_le _
      | some text => exact Nat.le_of_eq (h.stored text hstored).1.symm
    omega
  | false =>
    have hheld : forwarder.held task = forwarder.content := by
      unfold Forwarder.held
      rcases h.clean hdirty with hstored | ⟨hstored, hcontent⟩
      · rw [hstored]
        rfl
      · rw [hstored, hcontent]
        rfl
    rw [hheld] at hbytes
    unfold partialCheckpointBytes
    omega

/-- A turn that only stores. -/
theorem turn_store (h : Forwarded task handled handled forwarder) {input : ForwarderInput υ}
    (hinput : ∀ event, input ≠ .event event) (answers : ForwarderAnswers) :
    Forwarded task handled handled (forwarder.turn task input answers).1 ∧
      ((forwarder.turn task input answers).2 = .ok () →
        (task.preservePartial && (forwarder.turn task input answers).1.dirty) = false) := by
  have hturn : forwarder.turn task input answers =
      if task.preservePartial && forwarder.dirty then forwarder.checkpoint answers else (forwarder, .ok ()) := by
    cases input with
    | event event => exact absurd rfl (hinput event)
    | tick => rfl
    | closed => rfl
  rw [hturn]
  by_cases hdirty : (task.preservePartial && forwarder.dirty) = true
  · rw [if_pos hdirty]
    obtain ⟨hstored, hclean⟩ := h.checkpoint answers
    exact ⟨hstored, fun hok => by rw [hclean hok, Bool.and_false]⟩
  · rw [if_neg hdirty]
    exact ⟨h, fun _ => Bool.eq_false_iff.2 hdirty⟩

/-- The run from between two turns. -/
theorem run (h : Forwarded task handled handled forwarder) (hbounded : Bounded task forwarder)
    (inputs : List (ForwarderInput υ × ForwarderAnswers)) :
    ((forwarder.run task inputs).2 = .ok () →
      Forwarded task (handled ++ inputEvents inputs) (handled ++ inputEvents inputs) (forwarder.run task inputs).1 ∧
        Bounded task (forwarder.run task inputs).1) ∧
    ∃ published seen, published <+: handled ++ inputEvents inputs ∧
      Forwarded task published seen (forwarder.run task inputs).1 := by
  induction inputs generalizing forwarder handled with
  | nil =>
    have hall : handled ++ inputEvents ([] : List (ForwarderInput υ × ForwarderAnswers)) = handled :=
      List.append_nil _
    rw [hall]
    exact ⟨fun _ => ⟨h, hbounded⟩, handled, handled, List.prefix_rfl, h⟩
  | cons entry inputs ih =>
    obtain ⟨input, answers⟩ := entry
    unfold Forwarder.run
    by_cases hevent : ∃ event, input = .event event
    · obtain ⟨event, rfl⟩ := hevent
      have hevents : handled ++ inputEvents ((.event event, answers) :: inputs) =
          (handled ++ [event]) ++ inputEvents inputs := by
        rw [List.append_assoc]
        rfl
      rw [hevents]
      obtain ⟨hok, handled', hhandled', hforwarded⟩ := h.turn_event event answers
      generalize forwarder.turn task (.event event) answers = turned at hok hforwarded ⊢
      obtain ⟨next, outcome⟩ := turned
      cases outcome with
      | ok =>
        obtain ⟨hnext, hnextBounded⟩ := hok rfl
        exact ih hnext hnextBounded
      | error error =>
        refine ⟨fun hok => (by cases hok), handled', handled ++ [event], ?_, hforwarded⟩
        rcases hhandled' with rfl | rfl
        · rw [List.append_assoc]
          exact List.prefix_append _ _
        · exact List.prefix_append _ _
    · have hinput : ∀ event, input ≠ .event event := fun event hinput => hevent ⟨event, hinput⟩
      have hevents : inputEvents ((input, answers) :: inputs) = inputEvents inputs := by
        cases input with
        | event event => exact absurd rfl (hinput event)
        | tick => rfl
        | closed => rfl
      rw [hevents]
      obtain ⟨hnext, hclean⟩ := h.turn_store hinput answers
      generalize forwarder.turn task input answers = turned at hnext hclean ⊢
      obtain ⟨next, outcome⟩ := turned
      cases outcome with
      | ok =>
        refine ih hnext fun hdirty => ?_
        rw [hclean rfl] at hdirty
        cases hdirty
      | error error =>
        exact ⟨fun hok => (by cases hok), handled, handled, List.prefix_append _ _, hnext⟩

end Forwarded

/-- **Partial text is kept**: what was published is a beginning of what was received, what the storage holds is a
beginning of the text that was published, and as long as no turn has failed less than 64 KiB of it are missing. -/
theorem forwarder_run (task : GenerationTask) (hnone : task.outputTransforms = none)
    (hpreserve : task.preservePartial = true) (inputs : List (ForwarderInput υ × ForwarderAnswers)) :
    ∃ handled later, handled <+: inputEvents inputs ∧
      (Forwarder.run task (.start task) inputs).1.published = handled.map task.routed ∧
      (Forwarder.run task (.start task) inputs).1.held task ++ later =
        task.assistant.content ++ displayText (Forwarder.run task (.start task) inputs).1.published ∧
      ((Forwarder.run task (.start task) inputs).2 = .ok () →
        handled = inputEvents inputs ∧ later.utf8ByteSize < partialCheckpointBytes) := by
  have hbounded : Bounded task (.start task : Forwarder υ) := by
    intro hdirty
    rw [hpreserve] at hdirty
    cases hdirty
  have hshows : ∀ events : List (ChatEvent υ), task.shows events = events.map task.routed := by
    intro events
    unfold GenerationTask.shows
    have hall : events.filter (fun event => task.outputTransforms.isNone || !event.kind.isTextDelta) = events := by
      rw [hnone]
      exact List.filter_eq_self.2 fun _ _ => rfl
    rw [hall]
  have hkeeps : ∀ events : List (ChatEvent υ), task.keeps events = displayText (events.map task.routed) := by
    intro events
    unfold GenerationTask.keeps displayText
    rw [hnone, hpreserve, List.map_map]
    rfl
  obtain ⟨hok, handled, seen, hhandled, hforwarded⟩ := (Forwarded.start task).run hbounded inputs
  rw [List.nil_append] at hok hhandled
  generalize Forwarder.run task (.start task) inputs = run at hok hforwarded ⊢
  by_cases houtcome : run.2 = .ok ()
  · obtain ⟨hall, hsmall⟩ := hok houtcome
    obtain ⟨later, hlater, hbytes⟩ := hall.missing hpreserve hsmall
    refine ⟨inputEvents inputs, later, List.prefix_rfl, hall.published.trans (hshows _), ?_, fun _ => ⟨rfl, hbytes⟩⟩
    rw [hall.published, hshows, ← hkeeps]
    exact hlater
  · obtain ⟨later, hlater⟩ := hforwarded.behind
    refine ⟨handled, later, hhandled, hforwarded.published.trans (hshows _), ?_, fun hok => absurd hok houtcome⟩
    rw [hforwarded.published, hshows, ← hkeeps]
    exact hlater

def innTask : GenerationTask :=
  ⟨"g1", "tavern", "main", ⟨"reply", "tavern", none, .assistant, "", .pending, some "g1", 0⟩, true, none⟩

/-- The second checkpoint fails. -/
def innInputs : List (ForwarderInput Unit × ForwarderAnswers) :=
  [(.event (.new "g1" "tavern" 1 (.textDelta "The door ")), ⟨.ok (), .ok ()⟩), (.tick, ⟨.ok (), .ok ()⟩),
    (.event (.new "g1" "tavern" 2 (.textDelta "opens.")), ⟨.ok (), .ok ()⟩),
    (.tick, ⟨.ok (), .error (internal "locked")⟩), (.closed, ⟨.ok (), .ok ()⟩)]

theorem forwarder_run_inn :
    (Forwarder.run innTask (.start innTask) innInputs).1.held innTask = "The door " ∧
    ∃ handled later, handled <+: inputEvents innInputs ∧
      (Forwarder.run innTask (.start innTask) innInputs).1.published = handled.map innTask.routed ∧
      (Forwarder.run innTask (.start innTask) innInputs).1.held innTask ++ later =
        innTask.assistant.content ++
          displayText (Forwarder.run innTask (.start innTask) innInputs).1.published ∧
      ((Forwarder.run innTask (.start innTask) innInputs).2 = .ok () →
        handled = inputEvents innInputs ∧ later.utf8ByteSize < partialCheckpointBytes) :=
  ⟨by decide +kernel, forwarder_run innTask rfl rfl innInputs⟩

end LorePia.Delivery
