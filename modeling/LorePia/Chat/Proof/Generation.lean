import LorePia.Chat.Generation
import LorePia.Chat.Proof.Reflection

/-!
# A generation keeps its stream protocol

Text, reasoning and the arguments of each tool call are channels. While events are forwarded
(`Accumulated`), what was emitted on a channel and what its filter holds back are what the provider sent on
it, the emitted events are numbered from one on, and a tool call has its start and then its arguments. A step
that fails leaves what was emitted consistent (`ConsistentLog`); a success flushes every channel.
-/

namespace LorePia

open Base

/-! ## One channel -/

/-- The credential that is protected: the empty one is not. -/
def protectedCredential (credential : Option String) : Option String := credential.filter (· ≠ "")

/-- The guard of the credential. -/
def GuardFor (credential : Option String) (guard : CredentialReflectionGuard) : Prop :=
  match protectedCredential credential with
  | none => guard.credential = none
  | some c => Guards guard c

/-- A channel: without a credential everything sent is emitted. -/
def Channel (credential : Option String) (guard : CredentialReflectionGuard) (sent emitted : String)
    (stream : ReflectionStream) : Prop :=
  stream.guard = guard ∧ match protectedCredential credential with
    | none => stream.guard.credential = none ∧ stream.pending = "" ∧ emitted = sent
    | some c => Filtered c sent emitted stream

section
variable {credential : Option String} {guard : CredentialReflectionGuard} {sent emitted : String}
  {stream : ReflectionStream}

theorem guard_new_ok (credential : Option String) :
    ∃ guard, CredentialReflectionGuard.new credential = .ok guard ∧ GuardFor credential guard := by
  unfold GuardFor
  cases hprotected : protectedCredential credential with
  | none =>
    unfold protectedCredential at hprotected
    unfold CredentialReflectionGuard.new
    rw [hprotected]
    exact ⟨_, rfl, rfl⟩
  | some c =>
    unfold protectedCredential at hprotected
    obtain ⟨rfl, hne⟩ := Option.filter_eq_some_iff.1 hprotected
    exact guard_new (of_decide_eq_true hne)

theorem channel_new (h : GuardFor credential guard) : Channel credential guard "" "" (.new guard) := by
  unfold GuardFor at h
  unfold Channel
  refine ⟨rfl, ?_⟩
  split at h
  · exact ⟨h, rfl, rfl⟩
  · exact filtered_new h

/-- One fragment on a channel. -/
theorem channel_push (h : Channel credential guard sent emitted stream) (fragment : String) :
    (∃ stream', (ReflectionStream.push fragment).run stream =
        (.error (.failed credentialReflectionError), stream')) ∨
      ∃ piece stream', (ReflectionStream.push fragment).run stream = (.ok piece, stream') ∧
        Channel credential guard (sent ++ fragment) (emitted ++ piece) stream' := by
  unfold Channel at h ⊢
  obtain ⟨hguard, h⟩ := h
  split at h
  · obtain ⟨hnone, hpending, rfl⟩ := h
    refine .inr ⟨fragment, stream, ?_, hguard, hnone, hpending, rfl⟩
    unfold ReflectionStream.push
    simp only [Stateful.run, hnone]
  · obtain ⟨-, hpush⟩ | ⟨piece, stream', hpush, hguard', hfiltered⟩ := push_spec h fragment
    · exact .inl ⟨_, hpush⟩
    · exact .inr ⟨piece, stream', hpush, hguard'.trans hguard, hfiltered⟩

/-- What was emitted and what is held back are what was sent. -/
theorem Channel.whole (h : Channel credential guard sent emitted stream) :
    emitted ++ stream.pending = sent := by
  obtain ⟨-, h⟩ := h
  split at h
  · obtain ⟨-, hpending, rfl⟩ := h
    rw [hpending, String.append_empty]
  · exact h.whole

/-- What was sent has no credential. -/
theorem Channel.clean (h : Channel credential guard sent emitted stream) {c : String}
    (hc : protectedCredential credential = some c) : ¬ Contains c sent := by
  obtain ⟨-, h⟩ := h
  rw [hc] at h
  exact h.clean

theorem not_contains_of_append {c emitted rest : String} (h : ¬ Contains c (emitted ++ rest)) :
    ¬ Contains c emitted := by
  intro hcontains
  refine h (hcontains.trans ?_)
  rw [utf8Bytes_append]
  exact (List.prefix_append _ _).isInfix

end

theorem textOf_append (a b : List String) : textOf (a ++ b) = textOf a ++ textOf b := by
  induction a with
  | nil => rw [List.nil_append, textOf, String.empty_append]
  | cons text a ih => rw [List.cons_append, textOf, textOf, ih, String.append_assoc]

theorem filterMap_concat {α β : Type} (f : α → Option β) (l : List α) (a : α) :
    (l ++ [a]).filterMap f = l.filterMap f ++ (f a).toList := by
  rw [List.filterMap_append]
  cases h : f a with
  | none => rw [List.filterMap_cons_none h, List.filterMap_nil, Option.toList_none]
  | some b => rw [List.filterMap_cons_some h, List.filterMap_nil, Option.toList_some]

theorem getD_ite {p : Prop} [Decidable p] (text : String) :
    (if p then some text else none).getD "" = if p then text else "" := by
  split <;> rfl

theorem toList_ite {α : Type} {p : Prop} [Decidable p] (a : α) :
    (if p then some a else none).toList = if p then [a] else [] := by
  split <;> rfl

theorem textOf_toList (text : Option String) : textOf text.toList = text.getD "" := by
  cases text with
  | none => rfl
  | some text => exact String.append_empty

/-! ## Channels of events -/

/-- Where deltas are sent. -/
inductive StreamChannel
  | text
  | reasoning
  | arguments (id : String)
deriving DecidableEq

section
variable {ω υ : Type}

/-- The delta that the provider sends on a channel. -/
def ProviderEvent.sent (channel : StreamChannel) : ProviderEvent ω → Option String
  | .textDelta delta => if channel = .text then some delta else none
  | .reasoningDelta delta => if channel = .reasoning then some delta else none
  | .toolCallArgumentsDelta id delta => if channel = .arguments id then some delta else none
  | _ => none

/-- The delta that is emitted on a channel. -/
def ChatEventKind.delta (channel : StreamChannel) : ChatEventKind υ → Option String
  | .textDelta delta => if channel = .text then some delta else none
  | .reasoningDelta delta => if channel = .reasoning then some delta else none
  | .toolCallArgumentsDelta id delta => if channel = .arguments id then some delta else none
  | _ => none

/-- What the provider sent on a channel. -/
def sentOn (channel : StreamChannel) (events : List (ProviderEvent ω)) : String :=
  textOf (events.filterMap (·.sent channel))

/-- What was emitted on a channel. -/
def emittedOn (channel : StreamChannel) (events : List (ChatEvent υ)) : String :=
  textOf (events.filterMap (·.kind.delta channel))

theorem sentOn_concat (channel : StreamChannel) (events : List (ProviderEvent ω)) (event : ProviderEvent ω) :
    sentOn channel (events ++ [event]) = sentOn channel events ++ (event.sent channel).getD "" := by
  rw [sentOn, filterMap_concat, textOf_append, textOf_toList, ← sentOn]

theorem sentOn_append (channel : StreamChannel) (events more : List (ProviderEvent ω)) :
    sentOn channel (events ++ more) = sentOn channel events ++ sentOn channel more := by
  rw [sentOn, List.filterMap_append, textOf_append, ← sentOn, ← sentOn]

theorem emittedOn_concat (channel : StreamChannel) (events : List (ChatEvent υ)) (event : ChatEvent υ) :
    emittedOn channel (events ++ [event]) =
      emittedOn channel events ++ (event.kind.delta channel).getD "" := by
  rw [emittedOn, filterMap_concat, textOf_append, textOf_toList, ← emittedOn]

/-! ## Tool calls -/

/-- The marks of a tool call among the events. -/
inductive ToolMark
  | started
  | arguments
  | completed
deriving DecidableEq

def ChatEventKind.mark (id : String) : ChatEventKind υ → Option ToolMark
  | .toolCallStarted id' _ => if id' = id then some .started else none
  | .toolCallArgumentsDelta id' _ => if id' = id then some .arguments else none
  | .toolCallCompleted id' => if id' = id then some .completed else none
  | _ => none

def marksOf (id : String) (events : List (ChatEvent υ)) : List ToolMark :=
  events.filterMap (·.kind.mark id)

theorem marksOf_concat (id : String) (events : List (ChatEvent υ)) (event : ChatEvent υ) :
    marksOf id (events ++ [event]) = marksOf id events ++ (event.kind.mark id).toList :=
  filterMap_concat _ events event

/-- A call that is open: its start, then its arguments. -/
def OpenCall (marks : List ToolMark) : Prop := ∃ n, marks = .started :: List.replicate n .arguments

/-- A call that is complete. -/
def CompletedCall (marks : List ToolMark) : Prop :=
  ∃ n, marks = .started :: (List.replicate n .arguments ++ [ToolMark.completed])

/-- One start before the arguments, at most one completion after them. -/
def OrderedCall (marks : List ToolMark) : Prop := marks = [] ∨ OpenCall marks ∨ CompletedCall marks

theorem OpenCall.arguments {marks : List ToolMark} (h : OpenCall marks) (n : Nat) :
    OpenCall (marks ++ List.replicate n ToolMark.arguments) := by
  obtain ⟨m, rfl⟩ := h
  exact ⟨m + n, by rw [List.replicate_add, List.cons_append]⟩

theorem OpenCall.completed {marks : List ToolMark} (h : OpenCall marks) :
    CompletedCall (marks ++ [ToolMark.completed]) := by
  obtain ⟨n, rfl⟩ := h
  exact ⟨n, rfl⟩

/-! ## Limits -/

/-- The output of an event. -/
def ProviderEvent.output : ProviderEvent ω → String
  | .textDelta delta => delta
  | .reasoningDelta delta => delta
  | _ => ""

/-- The arguments of an event. -/
def ProviderEvent.arguments : ProviderEvent ω → String
  | .toolCallArgumentsDelta _ delta => delta
  | _ => ""

/-- The tool calls that an event starts. -/
def ProviderEvent.starts : ProviderEvent ω → Nat
  | .toolCallStarted _ _ => 1
  | _ => 0

/-- What a generation may use up. -/
inductive EventBudget
  | outputBytes
  | outputChars
  | argumentBytes
  | argumentChars
  | toolCalls
  | nonProgress

namespace EventBudget

def cost : EventBudget → ProviderEvent ω → Nat
  | .outputBytes, event => event.output.utf8ByteSize
  | .outputChars, event => event.output.length
  | .argumentBytes, event => event.arguments.utf8ByteSize
  | .argumentChars, event => event.arguments.length
  | .toolCalls, event => event.starts
  | .nonProgress, event => if event.progresses then 0 else 1

def limit : EventBudget → Nat
  | .outputBytes => maxGeneratedOutputBytes
  | .outputChars => maxGeneratedOutputChars
  | .argumentBytes => maxGeneratedToolArgumentBytes
  | .argumentChars => maxGeneratedToolArgumentChars
  | .toolCalls => maxGeneratedToolCalls
  | .nonProgress => maxGeneratedProviderEvents

/-- What the accumulator has counted. -/
def spent (acc : GenerationAccumulator ω υ) : EventBudget → Nat
  | .outputBytes => acc.outputBytes
  | .outputChars => acc.outputChars
  | .argumentBytes => acc.toolArgumentBytes
  | .argumentChars => acc.toolArgumentChars
  | .toolCalls => acc.activeToolCalls.card + acc.completedToolCalls.card
  | .nonProgress => acc.nonProgressEventCount

/-- What events cost. -/
def total (budget : EventBudget) (events : List (ProviderEvent ω)) : Nat := (events.map budget.cost).sum

theorem total_concat (budget : EventBudget) (events : List (ProviderEvent ω)) (event : ProviderEvent ω) :
    budget.total (events ++ [event]) = budget.total events + budget.cost event := by
  rw [total, List.map_append, List.sum_append, ← total, List.map_singleton, List.sum_singleton]

end EventBudget

/-- The events keep every limit. -/
def WithinEventLimits (events : List (ProviderEvent ω)) : Prop :=
  ∀ budget : EventBudget, budget.total events ≤ budget.limit

/-- An event uses up text, arguments or its share of the events without progress. -/
theorem one_le_cost (event : ProviderEvent ω) :
    1 ≤ EventBudget.nonProgress.cost event + EventBudget.outputBytes.cost event +
      EventBudget.argumentBytes.cost event := by
  have hbytes : ∀ delta : String, delta ≠ "" → 1 ≤ delta.utf8ByteSize := fun delta h =>
    Nat.one_le_iff_ne_zero.2 fun hzero => h (String.utf8ByteSize_eq_zero_iff.1 hzero)
  cases event with
  | textDelta delta | reasoningDelta delta | toolCallArgumentsDelta id delta =>
    by_cases hdelta : delta = ""
    · rw [hdelta]
      exact Nat.le_refl 1
    · have := hbytes delta hdelta
      simp only [EventBudget.cost, ProviderEvent.output, ProviderEvent.arguments]
      omega
  | _ => exact Nat.le_refl 1

/-- So the events are boundedly many. -/
theorem WithinEventLimits.length_le {events : List (ProviderEvent ω)} (h : WithinEventLimits events) :
    events.length ≤ maxGeneratedProviderEvents + maxGeneratedOutputBytes + maxGeneratedToolArgumentBytes := by
  have hcount : events.length ≤ EventBudget.nonProgress.total events + EventBudget.outputBytes.total events +
      EventBudget.argumentBytes.total events := by
    clear h
    induction events with
    | nil => exact Nat.zero_le _
    | cons event events ih =>
      have := one_le_cost event
      simp only [EventBudget.total, List.length_cons, List.map_cons, List.sum_cons] at ih ⊢
      omega
  have hnonProgress := h .nonProgress
  have houtput := h .outputBytes
  have harguments := h .argumentBytes
  simp only [EventBudget.limit] at hnonProgress houtput harguments
  omega

/-! ## The invariant -/

/-- The filter of a channel; the calls that were completed keep theirs until the end. -/
def GenerationAccumulator.stream (acc : GenerationAccumulator ω υ) : StreamChannel → ReflectionStream
  | .text => acc.textReflection
  | .reasoning => acc.reasoningReflection
  | .arguments id => (acc.toolArgumentReflections id).getD
      (((acc.pendingToolCompletions.find? (·.1 = id)).map Prod.snd).getD (.new acc.credentialGuard))

/-- What was emitted is numbered from one on, as far as the numbers go. -/
structure Numbered (acc : GenerationAccumulator ω υ) : Prop where
  sequences : acc.emitted.map ChatEvent.sequence =
    (List.range' 1 acc.emitted.length).map (min · (2 ^ 64 - 1))
  sequence : acc.sequence = min acc.emitted.length (2 ^ 64 - 1)

/-- What was emitted, with the text so far. -/
structure LogKept (acc : GenerationAccumulator ω υ) : Prop where
  numbered : Numbered acc
  started : acc.emitted ≠ []
  text : acc.text = emittedOn .text acc.emitted

/-- The most that is emitted for one event or completion. -/
def maxEmissions : Nat := 1 + maxGeneratedToolArgumentBytes

/-- What was emitted is consistent with the accepted events, also after a failure. -/
structure ConsistentLog (credential : Option String) (accepted : List (ProviderEvent ω))
    (acc : GenerationAccumulator ω υ) : Prop where
  logged : LogKept acc
  bounded : acc.emitted.length ≤ 4 + (accepted.length + maxGeneratedToolCalls) * maxEmissions
  beginning : ∀ channel, ∃ rest, emittedOn channel acc.emitted ++ rest = sentOn channel accepted
  clean : ∀ c, protectedCredential credential = some c → ∀ channel, ¬ Contains c (emittedOn channel acc.emitted)
  calls : ∀ id, OrderedCall (marksOf id acc.emitted)
  requested : ∀ id, marksOf id acc.emitted ≠ [] → ∃ name, .toolCallStarted id name ∈ accepted
  limits : WithinEventLimits accepted

/-- The tool calls that were started. -/
def GenerationAccumulator.known (acc : GenerationAccumulator ω υ) (id : String) : Prop :=
  id ∈ acc.activeToolCalls ∨ id ∈ acc.completedToolCalls

/-- What was emitted and the filters. -/
structure Streamed (credential : Option String) (guard : CredentialReflectionGuard)
    (events : List (ProviderEvent ω)) (acc : GenerationAccumulator ω υ) : Prop where
  guard_eq : acc.credentialGuard = guard
  logged : LogKept acc
  bounded : acc.emitted.length ≤ 1 + events.length * maxEmissions
  channels : ∀ channel, Channel credential guard (sentOn channel events) (emittedOn channel acc.emitted)
    (acc.stream channel)

/-- The books of the tool calls. -/
structure CallsKept (events : List (ProviderEvent ω)) (acc : GenerationAccumulator ω υ) : Prop where
  openCalls : ∀ id, acc.known id → OpenCall (marksOf id acc.emitted)
  noCalls : ∀ id, ¬ acc.known id → marksOf id acc.emitted = []
  requested : ∀ id, acc.known id → ∃ name, .toolCallStarted id name ∈ events
  active : ∀ id, id ∈ acc.activeToolCalls ↔ (acc.toolArgumentReflections id).isSome = true
  completed : ∀ id, id ∈ acc.completedToolCalls ↔ id ∈ acc.pendingToolCompletions.map Prod.fst
  completedOnce : (acc.pendingToolCompletions.map Prod.fst).Nodup
  apart : ∀ id ∈ acc.activeToolCalls, id ∉ acc.completedToolCalls

/-- The invariant while the events are forwarded. -/
structure Accumulated (credential : Option String) (guard : CredentialReflectionGuard)
    (events : List (ProviderEvent ω)) (acc : GenerationAccumulator ω υ) : Prop where
  guardFor : GuardFor credential guard
  streamed : Streamed credential guard events acc
  calls : CallsKept events acc
  counted : ∀ budget : EventBudget, budget.spent acc = budget.total events
  limits : WithinEventLimits events

variable {credential : Option String} {guard : CredentialReflectionGuard} {events : List (ProviderEvent ω)}
  {acc acc' : GenerationAccumulator ω υ}

theorem CallsKept.ordered (h : CallsKept events acc) (id : String) : OrderedCall (marksOf id acc.emitted) := by
  by_cases hknown : acc.known id
  · exact .inr (.inl (h.openCalls id hknown))
  · exact .inl (h.noCalls id hknown)

theorem CallsKept.requested_of_marks (h : CallsKept events acc) {id : String} (hid : marksOf id acc.emitted ≠ []) :
    ∃ name, .toolCallStarted id name ∈ events := by
  by_cases hknown : acc.known id
  · exact h.requested id hknown
  · exact absurd (h.noCalls id hknown) hid

/-- What was sent on a channel is free of the credential, so what was emitted is. -/
theorem emittedOn_clean (hbeginning : ∀ channel, ∃ rest, emittedOn channel acc.emitted ++ rest = sentOn channel events)
    (hclean : ∀ c, protectedCredential credential = some c → ∀ channel, ¬ Contains c (sentOn channel events)) :
    ∀ c, protectedCredential credential = some c → ∀ channel, ¬ Contains c (emittedOn channel acc.emitted) := by
  intro c hc channel
  obtain ⟨rest, hrest⟩ := hbeginning channel
  have hsent := hclean c hc channel
  rw [← hrest] at hsent
  exact not_contains_of_append hsent

/-- Before the end, the books of the tool calls are kept. -/
theorem consistentLog_of (hlogged : LogKept acc) (hbounded : acc.emitted.length ≤ 1 + events.length * maxEmissions)
    (hbeginning : ∀ channel, ∃ rest, emittedOn channel acc.emitted ++ rest = sentOn channel events)
    (hclean : ∀ c, protectedCredential credential = some c → ∀ channel, ¬ Contains c (sentOn channel events))
    (hcalls : CallsKept events acc) (hlimits : WithinEventLimits events) :
    ConsistentLog credential events acc where
  logged := hlogged
  bounded := by
    rw [Nat.add_mul]
    omega
  beginning := hbeginning
  clean := emittedOn_clean hbeginning hclean
  calls := hcalls.ordered
  requested _ := hcalls.requested_of_marks
  limits := hlimits

theorem Accumulated.consistent (h : Accumulated credential guard events acc) :
    ConsistentLog credential events acc :=
  consistentLog_of h.streamed.logged h.streamed.bounded
    (fun channel => ⟨(acc.stream channel).pending, (h.streamed.channels channel).whole⟩)
    (fun _ hc channel => (h.streamed.channels channel).clean hc) h.calls h.limits

/-- The part of the state that an observer sees. -/
def SameLog (acc acc' : GenerationAccumulator ω υ) : Prop :=
  acc'.emitted = acc.emitted ∧ acc'.text = acc.text ∧ acc'.sequence = acc.sequence

theorem sameLog_refl (acc : GenerationAccumulator ω υ) : SameLog acc acc := ⟨rfl, rfl, rfl⟩

theorem LogKept.congr (h : LogKept acc) (hsame : SameLog acc acc') : LogKept acc' := by
  obtain ⟨hemitted, htext, hsequence⟩ := hsame
  obtain ⟨⟨hsequences, hlast⟩, hstarted, htext'⟩ := h
  rw [← hemitted] at hsequences hlast hstarted htext'
  rw [← htext] at htext'
  rw [← hsequence] at hlast
  exact ⟨⟨hsequences, hlast⟩, hstarted, htext'⟩

theorem ConsistentLog.congr (h : ConsistentLog credential events acc) (hsame : SameLog acc acc') :
    ConsistentLog credential events acc' := by
  obtain ⟨hlogged, hbounded, hbeginning, hclean, hcalls, hrequested, hlimits⟩ := h
  have hemitted := hsame.1
  rw [← hemitted] at hbounded hbeginning hclean hcalls hrequested
  exact ⟨hlogged.congr hsame, hbounded, hbeginning, hclean, hcalls, hrequested, hlimits⟩

/-- A failure after some of the events. -/
def Refused (credential : Option String) (events : List (ProviderEvent ω)) (stop : ChatStop)
    (acc : GenerationAccumulator ω υ) : Prop :=
  (∃ error, stop = .failed error) ∧ ∃ accepted, accepted <+: events ∧ ConsistentLog credential accepted acc

/-- A failure before anything is emitted for the next event. -/
theorem Accumulated.refused (h : Accumulated credential guard events acc) (hsame : SameLog acc acc')
    {all : List (ProviderEvent ω)} (hall : events <+: all) (error : CoreError) :
    Refused credential all (.failed error) acc' :=
  ⟨⟨error, rfl⟩, events, hall, h.consistent.congr hsame⟩

/-! ## Emitting -/

theorem Numbered.send (h : Numbered acc) (kind : ChatEventKind υ) : Numbered (acc.send kind) := by
  have hsequence : min (acc.sequence + 1) (2 ^ 64 - 1) = min (acc.emitted.length + 1) (2 ^ 64 - 1) := by
    rw [h.sequence]
    omega
  refine ⟨?_, ?_⟩
  · simp only [GenerationAccumulator.send, hsequence, List.map_append, h.sequences, List.map_cons, List.map_nil,
      List.length_append, List.length_cons, List.length_nil, Nat.zero_add]
    rw [List.range'_concat, Nat.one_mul, Nat.add_comm 1, List.map_append, List.map_singleton]
  · simp only [GenerationAccumulator.send, hsequence, List.length_append, List.length_cons, List.length_nil]

@[simp] theorem emittedOn_send (channel : StreamChannel) (kind : ChatEventKind υ) :
    emittedOn channel (acc.send kind).emitted = emittedOn channel acc.emitted ++ (kind.delta channel).getD "" :=
  emittedOn_concat channel acc.emitted _

@[simp] theorem marksOf_send (id : String) (kind : ChatEventKind υ) :
    marksOf id (acc.send kind).emitted = marksOf id acc.emitted ++ (kind.mark id).toList :=
  marksOf_concat id acc.emitted _

@[simp] theorem length_send (kind : ChatEventKind υ) :
    (acc.send kind).emitted.length = acc.emitted.length + 1 := List.length_append

theorem send_ne_nil (kind : ChatEventKind υ) : (acc.send kind).emitted ≠ [] :=
  List.append_ne_nil_of_right_ne_nil _ (List.cons_ne_nil _ _)

/-! ## The steps of `forward` -/

/-- The next totals are the sums, within the limits. -/
theorem nextTotals_cases (bytes chars maxBytes maxChars : Nat) (limitError : ChatStop) (delta : String) :
    nextTotals bytes chars maxBytes maxChars limitError delta = .error limitError ∨
      (bytes + delta.utf8ByteSize ≤ maxBytes ∧ chars + delta.length ≤ maxChars ∧
        nextTotals bytes chars maxBytes maxChars limitError delta =
          .ok (bytes + delta.utf8ByteSize, chars + delta.length)) := by
  unfold nextTotals checkedAdd
  by_cases hbytes : bytes + delta.utf8ByteSize ≤ usizeMax
  · by_cases hchars : chars + delta.length ≤ usizeMax
    · rw [if_pos hbytes, if_pos hchars]
      by_cases hlimit : bytes + delta.utf8ByteSize > maxBytes ∨ chars + delta.length > maxChars
      · refine .inl ?_
        show (rejectIf (bytes + delta.utf8ByteSize > maxBytes ∨ chars + delta.length > maxChars) limitError
          >>= fun _ => pure _) = _
        rw [rejectIf, if_pos hlimit]
        rfl
      · have hlimit' := hlimit
        rw [not_or, Nat.not_lt, Nat.not_lt] at hlimit'
        refine .inr ⟨hlimit'.1, hlimit'.2, ?_⟩
        show (rejectIf (bytes + delta.utf8ByteSize > maxBytes ∨ chars + delta.length > maxChars) limitError
          >>= fun _ => pure _) = _
        rw [rejectIf, if_neg hlimit]
        rfl
    · rw [if_pos hbytes, if_neg hchars]
      exact .inl rfl
  · rw [if_neg hbytes]
    exact .inl rfl

/-- The accumulator after the count of an output delta. -/
def GenerationAccumulator.counted (acc : GenerationAccumulator ω υ) (delta : String) :
    GenerationAccumulator ω υ :=
  { acc with
    outputBytes := acc.outputBytes + delta.utf8ByteSize
    outputChars := acc.outputChars + delta.length }

/-- The accumulator after the count of an argument delta. -/
def GenerationAccumulator.countedArguments (acc : GenerationAccumulator ω υ) (delta : String) :
    GenerationAccumulator ω υ :=
  { acc with
    toolArgumentBytes := acc.toolArgumentBytes + delta.utf8ByteSize
    toolArgumentChars := acc.toolArgumentChars + delta.length }

theorem trackOutputDelta_cases (acc : GenerationAccumulator ω υ) (delta : String) :
    (∃ error, (trackOutputDelta delta).run acc = (.error (.failed error), acc)) ∨
      (acc.outputBytes + delta.utf8ByteSize ≤ maxGeneratedOutputBytes ∧
        acc.outputChars + delta.length ≤ maxGeneratedOutputChars ∧
        (trackOutputDelta delta).run acc = (.ok (), acc.counted delta)) := by
  unfold trackOutputDelta
  rw [Stateful.run_get_bind, Stateful.run_lift_bind]
  obtain htotals | ⟨hbytes, hchars, htotals⟩ := nextTotals_cases acc.outputBytes acc.outputChars
    maxGeneratedOutputBytes maxGeneratedOutputChars outputLimitError delta
  · rw [htotals]
    exact .inl ⟨_, rfl⟩
  · rw [htotals]
    exact .inr ⟨hbytes, hchars, rfl⟩

theorem trackToolArguments_cases (acc : GenerationAccumulator ω υ) (delta : String) :
    (∃ error, (trackToolArguments delta).run acc = (.error (.failed error), acc)) ∨
      (acc.toolArgumentBytes + delta.utf8ByteSize ≤ maxGeneratedToolArgumentBytes ∧
        acc.toolArgumentChars + delta.length ≤ maxGeneratedToolArgumentChars ∧
        (trackToolArguments delta).run acc = (.ok (), acc.countedArguments delta)) := by
  unfold trackToolArguments
  rw [Stateful.run_get_bind, Stateful.run_lift_bind]
  obtain htotals | ⟨hbytes, hchars, htotals⟩ := nextTotals_cases acc.toolArgumentBytes acc.toolArgumentChars
    maxGeneratedToolArgumentBytes maxGeneratedToolArgumentChars toolArgumentsLimitError delta
  · rw [htotals]
    exact .inl ⟨_, rfl⟩
  · rw [htotals]
    exact .inr ⟨hbytes, hchars, rfl⟩

/-- An output delta fails before anything is emitted, or is counted, filtered and released. -/
theorem forwardOutput_cases (view : GenerationAccumulator ω υ → ReflectionStream)
    (put : ReflectionStream → GenerationAccumulator ω υ → GenerationAccumulator ω υ)
    (release : String → Accumulate ω υ Unit) (acc : GenerationAccumulator ω υ) (delta : String)
    {sent emitted : String}
    (hview : view (acc.counted delta) = view acc) (hput : ∀ stream acc, SameLog acc (put stream acc))
    (h : Channel credential guard sent emitted (view acc)) :
    (∃ error acc', (forwardOutput view put release delta).run acc = (.error (.failed error), acc') ∧
        SameLog acc acc') ∨
      ∃ piece stream, acc.outputBytes + delta.utf8ByteSize ≤ maxGeneratedOutputBytes ∧
        acc.outputChars + delta.length ≤ maxGeneratedOutputChars ∧
        Channel credential guard (sent ++ delta) (emitted ++ piece) stream ∧
        ((piece = "" ∧ (forwardOutput view put release delta).run acc =
            (.ok (), put stream (acc.counted delta))) ∨
          (forwardOutput view put release delta).run acc =
            (release piece).run (put stream (acc.counted delta))) := by
  unfold forwardOutput
  rw [Stateful.run_bind]
  obtain ⟨error, htrack⟩ | ⟨hbytes, hchars, htrack⟩ := trackOutputDelta_cases acc delta
  · rw [htrack]
    exact .inl ⟨error, acc, rfl, sameLog_refl acc⟩
  · rw [htrack]
    dsimp only
    obtain ⟨stream, hpush⟩ | ⟨piece, stream, hpush, hchannel⟩ := channel_push h delta
    · exact .inl ⟨_, _, Stateful.run_zoom_bind_error hpush hview, hput stream (acc.counted delta)⟩
    · refine .inr ⟨piece, stream, hbytes, hchars, hchannel, ?_⟩
      rw [Stateful.run_zoom_bind hpush hview, Stateful.run_get_bind]
      split
      · exact .inr rfl
      · rename_i hpiece
        rw [not_or, not_not] at hpiece
        exact .inl ⟨hpiece.1, rfl⟩

/-- The count of an event without progress. -/
def GenerationAccumulator.ticked (acc : GenerationAccumulator ω υ) (event : ProviderEvent ω) :
    GenerationAccumulator ω υ :=
  { acc with nonProgressEventCount := acc.nonProgressEventCount + EventBudget.nonProgress.cost event }

theorem sameLog_ticked (acc : GenerationAccumulator ω υ) (event : ProviderEvent ω) :
    SameLog acc (acc.ticked event) := ⟨rfl, rfl, rfl⟩

theorem countNonProgress_cases (acc : GenerationAccumulator ω υ) {event : ProviderEvent ω}
    (hcount : acc.nonProgressEventCount ≤ maxGeneratedProviderEvents) :
    (∃ error acc', (countNonProgress event).run acc = (.error (.failed error), acc') ∧ SameLog acc acc') ∨
      ((acc.ticked event).nonProgressEventCount ≤ maxGeneratedProviderEvents ∧
        (countNonProgress event).run acc = (.ok (), acc.ticked event)) := by
  unfold countNonProgress GenerationAccumulator.ticked EventBudget.cost
  dsimp only
  by_cases hprogress : event.progresses = true
  · rw [if_pos hprogress, if_pos hprogress]
    exact .inr ⟨hcount, rfl⟩
  · rw [if_neg hprogress, if_neg hprogress, Stateful.run_modify_bind, Stateful.run_get_bind, Stateful.run_lift]
    dsimp only
    unfold rejectIf
    split
    · exact .inl ⟨_, _, rfl, rfl, rfl, rfl⟩
    · exact .inr ⟨by omega, rfl⟩

/-- What one step emits, all of it on one channel. -/
structure Emits (acc acc' : GenerationAccumulator ω υ) (channel : StreamChannel) (piece : String) : Prop where
  logged : LogKept acc'
  bounded : acc'.emitted.length ≤ acc.emitted.length + maxEmissions
  emitted : ∀ other, emittedOn other acc'.emitted =
    emittedOn other acc.emitted ++ if other = channel then piece else ""

theorem LogKept.emitsNothing (h : LogKept acc) (hsame : SameLog acc acc') (channel : StreamChannel) :
    Emits acc acc' channel "" := by
  refine ⟨h.congr hsame, ?_, ?_⟩
  · rw [hsame.1]
    exact Nat.le_add_right _ _
  · intro other
    rw [hsame.1, ite_self, String.append_empty]

/-- One event is emitted; its text was added to the text. -/
theorem LogKept.emitsSend (h : LogKept acc) (kind : ChatEventKind υ) (hemitted : acc'.emitted = acc.emitted)
    (hsequence : acc'.sequence = acc.sequence) (htext : acc'.text = acc.text ++ (kind.delta .text).getD "")
    {channel : StreamChannel} {piece : String}
    (hdelta : ∀ other, (kind.delta other).getD "" = if other = channel then piece else "") :
    Emits acc (acc'.send kind) channel piece := by
  have hnumbered : Numbered acc' := by
    constructor
    · rw [hemitted]
      exact h.numbered.sequences
    · rw [hemitted, hsequence]
      exact h.numbered.sequence
  refine ⟨⟨hnumbered.send kind, send_ne_nil kind, ?_⟩, ?_, ?_⟩
  · rw [emittedOn_send, hemitted, ← h.text]
    exact htext
  · rw [length_send, hemitted]
    exact Nat.add_le_add_left (Nat.le_add_right 1 _) _
  · intro other
    rw [emittedOn_send, hemitted, hdelta]

theorem Emits.length_le {channel : StreamChannel} {piece : String} (hemits : Emits acc acc' channel piece)
    (h : Streamed credential guard events acc) (event : ProviderEvent ω) :
    acc'.emitted.length ≤ 1 + (events ++ [event]).length * maxEmissions := by
  have hbefore := h.bounded
  have hstep := hemits.bounded
  rw [List.length_append, List.length_singleton, Nat.add_mul, Nat.one_mul]
  omega

theorem Accumulated.limits_concat (h : Accumulated credential guard events acc) {event : ProviderEvent ω}
    (hcost : ∀ budget : EventBudget, budget.spent acc' = budget.spent acc + budget.cost event ∧
      budget.spent acc' ≤ budget.limit) : WithinEventLimits (events ++ [event]) := by
  intro budget
  rw [budget.total_concat, ← h.counted budget, ← (hcost budget).1]
  exact (hcost budget).2

/-- The invariant after an event, from what the step did. -/
theorem Accumulated.advance (h : Accumulated credential guard events acc) {event : ProviderEvent ω}
    {channel : StreamChannel} {delta piece : String} (hemits : Emits acc acc' channel piece)
    (hguard : acc'.credentialGuard = acc.credentialGuard)
    (hsent : ∀ other, (event.sent other).getD "" = if other = channel then delta else "")
    (hstream : ∀ other, other ≠ channel → acc'.stream other = acc.stream other)
    (hchannel : Channel credential guard (sentOn channel events ++ delta) (emittedOn channel acc.emitted ++ piece)
      (acc'.stream channel))
    (hcalls : CallsKept (events ++ [event]) acc')
    (hcost : ∀ budget : EventBudget, budget.spent acc' = budget.spent acc + budget.cost event ∧
      budget.spent acc' ≤ budget.limit) :
    Accumulated credential guard (events ++ [event]) acc' where
  guardFor := h.guardFor
  streamed := {
    guard_eq := hguard.trans h.streamed.guard_eq
    logged := hemits.logged
    bounded := hemits.length_le h.streamed event
    channels := by
      intro other
      rw [sentOn_concat, hsent, hemits.emitted]
      by_cases hother : other = channel
      · rw [if_pos hother, if_pos hother, hother]
        exact hchannel
      · rw [if_neg hother, if_neg hother, String.append_empty, String.append_empty, hstream other hother]
        exact h.streamed.channels other }
  calls := hcalls
  counted := by
    intro budget
    rw [(hcost budget).1, h.counted budget, budget.total_concat]
  limits := h.limits_concat hcost

/-- The books of the tool calls are left alone. -/
theorem CallsKept.frame (h : CallsKept events acc) (more : List (ProviderEvent ω))
    (hactive : acc'.activeToolCalls = acc.activeToolCalls)
    (hcompleted : acc'.completedToolCalls = acc.completedToolCalls)
    (hpending : acc'.pendingToolCompletions = acc.pendingToolCompletions)
    (hstreams : ∀ id, (acc'.toolArgumentReflections id).isSome = (acc.toolArgumentReflections id).isSome)
    (hopen : ∀ id, OpenCall (marksOf id acc.emitted) → OpenCall (marksOf id acc'.emitted))
    (hnone : ∀ id, ¬ acc.known id → marksOf id acc'.emitted = marksOf id acc.emitted) :
    CallsKept (events ++ more) acc' := by
  have hknown : ∀ id, acc'.known id ↔ acc.known id := by
    intro id
    unfold GenerationAccumulator.known
    rw [hactive, hcompleted]
  refine ⟨?_, ?_, ?_, ?_, ?_, ?_, ?_⟩
  · intro id hid
    exact hopen id (h.openCalls id ((hknown id).1 hid))
  · intro id hid
    rw [hknown] at hid
    rw [hnone id hid, h.noCalls id hid]
  · intro id hid
    obtain ⟨name, hname⟩ := h.requested id ((hknown id).1 hid)
    exact ⟨name, List.mem_append_left _ hname⟩
  · intro id
    rw [hactive, hstreams]
    exact h.active id
  · rw [hcompleted, hpending]
    exact h.completed
  · rw [hpending]
    exact h.completedOnce
  · rw [hactive, hcompleted]
    exact h.apart

/-- The result of one step: the invariant with the event, or a failure after some of all events. -/
def Stepped (credential : Option String) (guard : CredentialReflectionGuard) (events all : List (ProviderEvent ω))
    (result : Except ChatStop Unit × GenerationAccumulator ω υ) : Prop :=
  Stateful.Ends (fun _ => Accumulated credential guard events) (Refused credential all) result

variable {all : List (ProviderEvent ω)} {delta : String}

/-- What an output delta costs. -/
theorem cost_output (h : Accumulated credential guard events acc) {event : ProviderEvent ω}
    (houtput : event.output = delta) (harguments : event.arguments = "") (hstarts : event.starts = 0)
    (htick : (acc.ticked event).nonProgressEventCount ≤ maxGeneratedProviderEvents)
    (hbytes : acc.outputBytes + delta.utf8ByteSize ≤ maxGeneratedOutputBytes)
    (hchars : acc.outputChars + delta.length ≤ maxGeneratedOutputChars) (budget : EventBudget) :
    budget.spent ((acc.ticked event).counted delta) = budget.spent acc + budget.cost event ∧
      budget.spent ((acc.ticked event).counted delta) ≤ budget.limit := by
  have hlimit := h.limits budget
  rw [← h.counted budget] at hlimit
  subst houtput
  cases budget with
  | outputBytes => exact ⟨rfl, hbytes⟩
  | outputChars => exact ⟨rfl, hchars⟩
  | nonProgress => exact ⟨rfl, htick⟩
  | argumentBytes | argumentChars =>
    rw [EventBudget.cost, harguments]
    exact ⟨rfl, hlimit⟩
  | toolCalls =>
    rw [EventBudget.cost, hstarts]
    exact ⟨rfl, hlimit⟩

theorem stream_congr (hguard : acc'.credentialGuard = acc.credentialGuard)
    (hstreams : acc'.toolArgumentReflections = acc.toolArgumentReflections)
    (hpending : acc'.pendingToolCompletions = acc.pendingToolCompletions) (id : String) :
    acc'.stream (.arguments id) = acc.stream (.arguments id) := by
  unfold GenerationAccumulator.stream
  rw [hguard, hstreams, hpending]

/-- The books of the tool calls after a delta of text or reasoning was emitted. -/
theorem CallsKept.send (h : CallsKept events acc) (more : List (ProviderEvent ω)) {kind : ChatEventKind υ}
    (hemitted : acc'.emitted = acc.emitted) (hactive : acc'.activeToolCalls = acc.activeToolCalls)
    (hcompleted : acc'.completedToolCalls = acc.completedToolCalls)
    (hpending : acc'.pendingToolCompletions = acc.pendingToolCompletions)
    (hstreams : acc'.toolArgumentReflections = acc.toolArgumentReflections) (hkind : ∀ id, kind.mark id = none) :
    CallsKept (events ++ more) (acc'.send kind) := by
  have hmarks : ∀ id, marksOf id (acc'.send kind).emitted = marksOf id acc.emitted := by
    intro id
    rw [marksOf_send, hemitted, hkind, Option.toList_none, List.append_nil]
  refine h.frame more hactive hcompleted hpending ?_ ?_ fun id _ => hmarks id
  · intro id
    rw [← hstreams]
    rfl
  · intro id hid
    rw [hmarks]
    exact hid

/-- A text delta. -/
theorem forwardText_stepped (h : Accumulated credential guard events acc) (hall : events <+: all)
    (htick : (acc.ticked (.textDelta delta)).nonProgressEventCount ≤ maxGeneratedProviderEvents) :
    Stepped credential guard (events ++ [ProviderEvent.textDelta delta]) all
      ((forwardText delta).run (acc.ticked (.textDelta delta))) := by
  unfold forwardText
  obtain ⟨error, acc', hrun, hsame⟩ | ⟨piece, stream, hbytes, hchars, hchannel, ⟨rfl, hrun⟩ | hrun⟩ :=
    forwardOutput_cases (fun acc => acc.textReflection) (fun stream acc => { acc with textReflection := stream })
      (fun filtered => do
        Stateful.modify fun acc => { acc with text := acc.text ++ filtered }
        emit (.textDelta filtered)) (acc.ticked (.textDelta delta)) delta rfl (fun _ _ => ⟨rfl, rfl, rfl⟩)
      (h.streamed.channels .text)
  · rw [hrun]
    exact h.refused hsame hall error
  · rw [hrun]
    have hemits : Emits acc { (acc.ticked (.textDelta delta)).counted delta with textReflection := stream }
        .text "" := by
      refine h.streamed.logged.emitsNothing ?_ .text
      exact ⟨rfl, rfl, rfl⟩
    refine h.advance hemits rfl (fun _ => getD_ite delta) ?_ hchannel
      (h.calls.frame _ rfl rfl rfl (fun _ => rfl) (fun _ h => h) (fun _ _ => rfl))
      (cost_output h rfl rfl rfl htick hbytes hchars)
    intro other hother
    cases other with
    | text => exact absurd rfl hother
    | reasoning => rfl
    | arguments id => exact stream_congr rfl rfl rfl id
  · rw [hrun]
    have hemits : Emits acc (GenerationAccumulator.send (.textDelta piece)
        { (acc.ticked (.textDelta delta)).counted delta with
          textReflection := stream, text := acc.text ++ piece }) .text piece := by
      refine h.streamed.logged.emitsSend (.textDelta piece) ?_ ?_ ?_ fun _ => getD_ite piece
      all_goals rfl
    refine h.advance hemits rfl (fun _ => getD_ite delta) ?_ hchannel (h.calls.send _ rfl rfl rfl rfl rfl fun _ => rfl)
      (cost_output h rfl rfl rfl htick hbytes hchars)
    intro other hother
    cases other with
    | text => exact absurd rfl hother
    | reasoning => rfl
    | arguments id => exact stream_congr rfl rfl rfl id

/-- A reasoning delta. -/
theorem forwardReasoning_stepped (h : Accumulated credential guard events acc) (hall : events <+: all)
    (htick : (acc.ticked (.reasoningDelta delta)).nonProgressEventCount ≤ maxGeneratedProviderEvents) :
    Stepped credential guard (events ++ [ProviderEvent.reasoningDelta delta]) all
      ((forwardReasoning delta).run (acc.ticked (.reasoningDelta delta))) := by
  unfold forwardReasoning
  obtain ⟨error, acc', hrun, hsame⟩ | ⟨piece, stream, hbytes, hchars, hchannel, ⟨rfl, hrun⟩ | hrun⟩ :=
    forwardOutput_cases (fun acc => acc.reasoningReflection)
      (fun stream acc => { acc with reasoningReflection := stream }) (fun filtered => emit (.reasoningDelta filtered))
      (acc.ticked (.reasoningDelta delta)) delta rfl (fun _ _ => ⟨rfl, rfl, rfl⟩) (h.streamed.channels .reasoning)
  · rw [hrun]
    exact h.refused hsame hall error
  · rw [hrun]
    have hemits : Emits acc { (acc.ticked (.reasoningDelta delta)).counted delta with
        reasoningReflection := stream } .reasoning "" := by
      refine h.streamed.logged.emitsNothing ?_ .reasoning
      exact ⟨rfl, rfl, rfl⟩
    refine h.advance hemits rfl (fun _ => getD_ite delta) ?_ hchannel
      (h.calls.frame _ rfl rfl rfl (fun _ => rfl) (fun _ h => h) (fun _ _ => rfl))
      (cost_output h rfl rfl rfl htick hbytes hchars)
    intro other hother
    cases other with
    | text => rfl
    | reasoning => exact absurd rfl hother
    | arguments id => exact stream_congr rfl rfl rfl id
  · rw [hrun]
    have hemits : Emits acc (GenerationAccumulator.send (.reasoningDelta piece)
        { (acc.ticked (.reasoningDelta delta)).counted delta with reasoningReflection := stream })
        .reasoning piece := by
      refine h.streamed.logged.emitsSend (.reasoningDelta piece) ?_ ?_ ?_ fun _ => getD_ite piece
      · rfl
      · rfl
      · exact String.append_empty.symm
    refine h.advance hemits rfl (fun _ => getD_ite delta) ?_ hchannel
      (h.calls.send _ rfl rfl rfl rfl rfl fun _ => rfl) (cost_output h rfl rfl rfl htick hbytes hchars)
    intro other hother
    cases other with
    | text => rfl
    | reasoning => exact absurd rfl hother
    | arguments id => exact stream_congr rfl rfl rfl id

/-! ## Tool calls -/

/-- What other events than deltas cost. -/
theorem cost_other (h : Accumulated credential guard events acc) (event : ProviderEvent ω)
    (houtput : event.output = "") (harguments : event.arguments = "") (hstarts : event.starts = 0)
    (htick : (acc.ticked event).nonProgressEventCount ≤ maxGeneratedProviderEvents) (budget : EventBudget) :
    budget.spent (acc.ticked event) = budget.spent acc + budget.cost event ∧
      budget.spent (acc.ticked event) ≤ budget.limit := by
  have hlimit := h.limits budget
  rw [← h.counted budget] at hlimit
  cases budget with
  | outputBytes | outputChars =>
    rw [EventBudget.cost, houtput]
    exact ⟨rfl, hlimit⟩
  | argumentBytes | argumentChars =>
    rw [EventBudget.cost, harguments]
    exact ⟨rfl, hlimit⟩
  | toolCalls =>
    rw [EventBudget.cost, hstarts]
    exact ⟨rfl, hlimit⟩
  | nonProgress => exact ⟨rfl, htick⟩

/-- A check of what was read. -/
theorem run_rejectReflected_bind (values : List String) {β : Type} (next : Unit → Accumulate ω υ β) :
    (rejectReflected values >>= next).run acc =
      if values.any acc.credentialGuard.contains = true then (.error (.failed credentialReflectionError), acc)
      else (next ()).run acc := by
  unfold rejectReflected
  rw [bind_assoc, Stateful.run_get_bind, Stateful.run_rejectIf_bind]

/-- A call that is not known has the filter of a fresh call. -/
theorem CallsKept.stream_of_unknown (h : CallsKept events acc) {id : String} (hid : ¬ acc.known id) :
    acc.stream (.arguments id) = .new acc.credentialGuard := by
  obtain ⟨hactive, hcompleted⟩ := not_or.1 hid
  rw [h.active, Bool.not_eq_true, Option.isSome_eq_false_iff, Option.isNone_iff_eq_none] at hactive
  have hfind : acc.pendingToolCompletions.find? (·.1 = id) = none := by
    rw [List.find?_eq_none]
    intro completion hmem hfirst
    rw [h.completed] at hcompleted
    exact hcompleted (List.mem_map.2 ⟨completion, hmem, of_decide_eq_true hfirst⟩)
  unfold GenerationAccumulator.stream
  dsimp only
  rw [hactive, hfind]
  rfl

/-- The accumulator after a tool call was started. -/
def GenerationAccumulator.opened (acc : GenerationAccumulator ω υ) (id : String) : GenerationAccumulator ω υ :=
  { acc with
    activeToolCalls := insert id acc.activeToolCalls
    toolArgumentReflections :=
      Function.update acc.toolArgumentReflections id (some (.new acc.credentialGuard)) }

theorem CallsKept.opened (h : CallsKept events acc) {id : String} (name : String) (hid : ¬ acc.known id)
    (hemitted : acc'.emitted = acc.emitted) (hactive : acc'.activeToolCalls = insert id acc.activeToolCalls)
    (hcompleted : acc'.completedToolCalls = acc.completedToolCalls)
    (hpending : acc'.pendingToolCompletions = acc.pendingToolCompletions)
    (hstreams : acc'.toolArgumentReflections =
      Function.update acc.toolArgumentReflections id (some (.new acc.credentialGuard))) :
    CallsKept (events ++ [ProviderEvent.toolCallStarted id name]) (acc'.send (.toolCallStarted id name)) := by
  have hknown : ∀ other, (acc'.send (.toolCallStarted id name)).known other ↔ other = id ∨ acc.known other := by
    intro other
    show other ∈ acc'.activeToolCalls ∨ other ∈ acc'.completedToolCalls ↔ _
    rw [hactive, hcompleted, Finset.mem_insert, or_assoc]
    rfl
  have hmarks : ∀ other, marksOf other (acc'.send (.toolCallStarted id name)).emitted =
      marksOf other acc.emitted ++ if id = other then [ToolMark.started] else [] := by
    intro other
    rw [marksOf_send, hemitted]
    exact congrArg (_ ++ ·) (toList_ite _)
  refine ⟨?_, ?_, ?_, ?_, ?_, ?_, ?_⟩
  · intro other hother
    rw [hmarks]
    obtain rfl | hother := (hknown other).1 hother
    · rw [h.noCalls other hid, if_pos rfl]
      exact ⟨0, rfl⟩
    · have hne : id ≠ other := by
        rintro rfl
        exact hid hother
      rw [if_neg hne, List.append_nil]
      exact h.openCalls other hother
  · intro other hother
    rw [hknown, not_or] at hother
    rw [hmarks, if_neg (Ne.symm hother.1), List.append_nil]
    exact h.noCalls other hother.2
  · intro other hother
    obtain rfl | hother := (hknown other).1 hother
    · exact ⟨name, List.mem_append_right _ (List.mem_singleton_self _)⟩
    · obtain ⟨name', hname⟩ := h.requested other hother
      exact ⟨name', List.mem_append_left _ hname⟩
  · intro other
    show other ∈ acc'.activeToolCalls ↔ (acc'.toolArgumentReflections other).isSome = true
    rw [hactive, hstreams, Finset.mem_insert]
    by_cases hother : other = id
    · rw [hother, Function.update_self]
      exact ⟨fun _ => rfl, fun _ => .inl rfl⟩
    · rw [Function.update_of_ne hother, ← h.active, or_iff_right hother]
  · show ∀ other, other ∈ acc'.completedToolCalls ↔ other ∈ acc'.pendingToolCompletions.map Prod.fst
    rw [hcompleted, hpending]
    exact h.completed
  · show (acc'.pendingToolCompletions.map Prod.fst).Nodup
    rw [hpending]
    exact h.completedOnce
  · show ∀ other ∈ acc'.activeToolCalls, other ∉ acc'.completedToolCalls
    rw [hactive, hcompleted]
    intro other hother
    obtain rfl | hother := Finset.mem_insert.1 hother
    · exact (not_or.1 hid).2
    · exact h.apart other hother

/-- The start of a tool call. -/
theorem forwardToolStart_stepped (h : Accumulated credential guard events acc) {id name : String}
    (hall : events <+: all)
    (htick : (acc.ticked (.toolCallStarted id name)).nonProgressEventCount ≤ maxGeneratedProviderEvents) :
    Stepped credential guard (events ++ [ProviderEvent.toolCallStarted id name]) all
      ((forwardToolStart id name).run (acc.ticked (.toolCallStarted id name))) := by
  unfold forwardToolStart
  rw [run_rejectReflected_bind]
  split
  · exact h.refused (sameLog_ticked acc _) hall _
  rw [Stateful.run_get_bind, Stateful.run_rejectIf_bind]
  split
  · exact h.refused (sameLog_ticked acc _) hall _
  rename_i hroom
  rw [Stateful.run_rejectIf_bind]
  split
  · exact h.refused (sameLog_ticked acc _) hall _
  rename_i hid
  rw [Stateful.run_modify_bind]
  have hemits : Emits acc (GenerationAccumulator.send (.toolCallStarted id name)
      ((acc.ticked (.toolCallStarted id name)).opened id)) .text "" := by
    refine h.streamed.logged.emitsSend (.toolCallStarted id name) ?_ ?_ ?_ fun _ => (ite_self _).symm
    · rfl
    · rfl
    · exact String.append_empty.symm
  refine h.advance hemits rfl (fun _ => (ite_self _).symm) ?_ ?_ (h.calls.opened name hid rfl rfl rfl rfl rfl) ?_
  · intro other _
    cases other with
    | text => rfl
    | reasoning => rfl
    | arguments other =>
      by_cases hother : other = id
      · rw [hother, h.calls.stream_of_unknown hid]
        show ((Function.update acc.toolArgumentReflections id (some (.new acc.credentialGuard))) id).getD _ = _
        rw [Function.update_self]
        rfl
      · show ((Function.update acc.toolArgumentReflections id (some (.new acc.credentialGuard))) other).getD _ = _
        rw [Function.update_of_ne hother]
        rfl
  · rw [String.append_empty, String.append_empty]
    exact h.streamed.channels .text
  · intro budget
    have hlimit := h.limits budget
    rw [← h.counted budget] at hlimit
    cases budget with
    | nonProgress => exact ⟨rfl, htick⟩
    | toolCalls =>
      have hcard : (insert id acc.activeToolCalls).card = acc.activeToolCalls.card + 1 :=
        Finset.card_insert_of_notMem (not_or.1 hid).1
      have hroom' : ¬ acc.activeToolCalls.card + acc.completedToolCalls.card ≥ maxGeneratedToolCalls := hroom
      show (insert id acc.activeToolCalls).card + acc.completedToolCalls.card =
          acc.activeToolCalls.card + acc.completedToolCalls.card + 1 ∧
        (insert id acc.activeToolCalls).card + acc.completedToolCalls.card ≤ maxGeneratedToolCalls
      omega
    | _ => exact ⟨rfl, hlimit⟩

/-! ## Arguments -/

theorem chunkEndFrom_eq : ∀ (cs : List Char) (characters stop : Nat),
    ∃ front back, cs = front ++ back ∧ chunkEndFrom cs characters stop = stop + String.utf8Len front
  | [], _, stop => ⟨[], [], rfl, rfl⟩
  | c :: cs, characters, stop => by
    unfold chunkEndFrom
    split
    · exact ⟨[], c :: cs, rfl, rfl⟩
    · obtain ⟨front, back, rfl, hend⟩ := chunkEndFrom_eq cs (characters + 1) (stop + c.utf8Size)
      refine ⟨c :: front, back, rfl, ?_⟩
      rw [hend, String.utf8Len_cons]
      omega

/-- A chunk is cut between two characters, and takes at least one. -/
theorem splitOff_chunkEnd {remaining : String} (h : remaining ≠ "") :
    ∃ chunk tail, remaining = chunk ++ tail ∧ chunk ≠ "" ∧
      splitOff remaining (boundedToolArgumentChunkEnd remaining) = some (chunk, tail) := by
  unfold boundedToolArgumentChunkEnd
  cases hcs : remaining.toList with
  | nil => exact absurd (String.toList_eq_nil_iff.1 hcs) h
  | cons c cs =>
    obtain ⟨front, back, rfl, hend⟩ := chunkEndFrom_eq cs 1 (0 + c.utf8Size)
    have hsize : c.utf8Size ≤ 4 := c.utf8Size_le_four
    have hfits : ¬ (0 = maxToolArgumentDeltaChars ∨ 0 + c.utf8Size > maxToolArgumentDeltaBytes) := by
      unfold maxToolArgumentDeltaChars maxToolArgumentDeltaBytes
      omega
    have hremaining : remaining = String.ofList (c :: front) ++ String.ofList back := by
      rw [← String.ofList_append, List.cons_append, ← hcs, String.ofList_toList]
    refine ⟨String.ofList (c :: front), String.ofList back, hremaining, ?_, ?_⟩
    · intro hempty
      have := congrArg String.toList hempty
      rw [String.toList_ofList] at this
      cases this
    · rw [chunkEndFrom, if_neg hfits, hend]
      have hbytes : 0 + c.utf8Size + String.utf8Len front = (String.ofList (c :: front)).utf8ByteSize := by
        rw [← String.utf8Len_toList, String.toList_ofList, String.utf8Len_cons]
        omega
      rw [hbytes, hremaining]
      exact splitOff_append _ _

/-- Chunks of arguments are emitted. -/
def GenerationAccumulator.sendChunks (id : String) (acc : GenerationAccumulator ω υ) (chunks : List String) :
    GenerationAccumulator ω υ :=
  chunks.foldl (fun acc chunk => acc.send (.toolCallArgumentsDelta id chunk)) acc

/-- The chunks that are emitted, and what of the text is left after a failure. -/
theorem emitChunks_cases (id : String) : ∀ (fuel : Nat) (remaining : String) (acc : GenerationAccumulator ω υ),
    remaining.utf8ByteSize ≤ fuel → ∃ chunks rest, remaining = textOf chunks ++ rest ∧
      chunks.length ≤ remaining.utf8ByteSize ∧
      (((emitChunks id fuel remaining).run acc = (.ok (), acc.sendChunks id chunks) ∧ rest = "") ∨
        ∃ error, (emitChunks id fuel remaining).run acc = (.error (.failed error), acc.sendChunks id chunks))
  | 0, remaining, acc, hfuel => by
    have hempty : remaining = "" := String.utf8ByteSize_eq_zero_iff.1 (Nat.le_zero.1 hfuel)
    refine ⟨[], "", hempty, Nat.zero_le _, .inl ⟨?_, rfl⟩⟩
    rw [emitChunks, if_pos hempty]
    rfl
  | fuel + 1, remaining, acc, hfuel => by
    rw [emitChunks]
    by_cases hempty : remaining = ""
    · refine ⟨[], "", hempty, Nat.zero_le _, .inl ⟨?_, rfl⟩⟩
      rw [if_pos hempty]
      rfl
    · obtain ⟨chunk, tail, hremaining, hchunk, hsplit⟩ := splitOff_chunkEnd hempty
      have hsize : remaining.utf8ByteSize = chunk.utf8ByteSize + tail.utf8ByteSize := by
        rw [hremaining, String.utf8ByteSize_append]
      have hpositive : 1 ≤ chunk.utf8ByteSize :=
        Nat.one_le_iff_ne_zero.2 fun hzero => hchunk (String.utf8ByteSize_eq_zero_iff.1 hzero)
      rw [if_neg hempty, hsplit, okOr, Stateful.lift_ok_bind]
      dsimp only
      cases parseToolCallArgumentsDelta chunk with
      | error message => exact ⟨[], remaining, (String.empty_append).symm, Nat.zero_le _, .inr ⟨_, rfl⟩⟩
      | ok =>
        obtain ⟨chunks, rest, htail, hlength, hrun⟩ :=
          emitChunks_cases id fuel tail (acc.send (.toolCallArgumentsDelta id chunk)) (by omega)
        refine ⟨chunk :: chunks, rest, ?_, ?_, hrun⟩
        · rw [hremaining, htail, textOf, String.append_assoc]
        · rw [List.length_cons]
          omega

theorem sendChunks_frame (id : String) : ∀ (chunks : List String) (acc : GenerationAccumulator ω υ),
    ∃ sequence emitted, acc.sendChunks id chunks = { acc with sequence, emitted }
  | [], acc => ⟨acc.sequence, acc.emitted, rfl⟩
  | chunk :: chunks, acc => sendChunks_frame id chunks (acc.send (.toolCallArgumentsDelta id chunk))

theorem Numbered.sendChunks (id : String) : ∀ (chunks : List String) {acc : GenerationAccumulator ω υ},
    Numbered acc → Numbered (acc.sendChunks id chunks)
  | [], _, h => h
  | _ :: chunks, _, h => Numbered.sendChunks id chunks (h.send _)

theorem length_sendChunks (id : String) : ∀ (chunks : List String) (acc : GenerationAccumulator ω υ),
    (acc.sendChunks id chunks).emitted.length = acc.emitted.length + chunks.length
  | [], _ => rfl
  | chunk :: chunks, acc => by
    have ih := length_sendChunks id chunks (acc.send (.toolCallArgumentsDelta id chunk))
    rw [length_send] at ih
    rw [List.length_cons, Nat.add_comm chunks.length, ← Nat.add_assoc]
    exact ih

theorem emittedOn_sendChunks (id : String) (channel : StreamChannel) :
    ∀ (chunks : List String) (acc : GenerationAccumulator ω υ),
    emittedOn channel (acc.sendChunks id chunks).emitted =
      emittedOn channel acc.emitted ++ if channel = .arguments id then textOf chunks else ""
  | [], acc => by
    rw [textOf, ite_self, String.append_empty]
    rfl
  | chunk :: chunks, acc => by
    have ih := emittedOn_sendChunks id channel chunks (acc.send (.toolCallArgumentsDelta id chunk))
    have hdelta : ((ChatEventKind.toolCallArgumentsDelta (υ := υ) id chunk).delta channel).getD "" =
        if channel = .arguments id then chunk else "" := getD_ite chunk
    rw [emittedOn_send, hdelta, String.append_assoc] at ih
    refine ih.trans (congrArg (_ ++ ·) ?_)
    split
    · rfl
    · rfl

theorem marksOf_sendChunks (id other : String) : ∀ (chunks : List String) (acc : GenerationAccumulator ω υ),
    marksOf other (acc.sendChunks id chunks).emitted =
      marksOf other acc.emitted ++ if id = other then List.replicate chunks.length ToolMark.arguments else []
  | [], acc => by
    rw [List.length_nil, List.replicate_zero, ite_self, List.append_nil]
    rfl
  | chunk :: chunks, acc => by
    have ih := marksOf_sendChunks id other chunks (acc.send (.toolCallArgumentsDelta id chunk))
    have hmark : ((ChatEventKind.toolCallArgumentsDelta (υ := υ) id chunk).mark other).toList =
        if id = other then [ToolMark.arguments] else [] := toList_ite _
    rw [marksOf_send, hmark, List.append_assoc] at ih
    refine ih.trans (congrArg (_ ++ ·) ?_)
    split
    · rfl
    · rfl

/-- The chunks of one call. -/
theorem LogKept.emitsChunks (h : LogKept acc) (hsame : SameLog acc acc') (id : String) {chunks : List String} (hlength : chunks.length ≤ maxGeneratedToolArgumentBytes) :
    Emits acc (acc'.sendChunks id chunks) (.arguments id) (textOf chunks) := by
  have hbefore := h.congr hsame
  obtain ⟨hemitted, -, -⟩ := hsame
  obtain ⟨sequence, emitted, hframe⟩ := sendChunks_frame id chunks acc'
  refine ⟨⟨hbefore.numbered.sendChunks id chunks, ?_, ?_⟩, ?_, ?_⟩
  · intro hnil
    have hzero := length_sendChunks id chunks acc'
    rw [hnil, List.length_nil, hemitted] at hzero
    exact h.started (List.length_eq_zero_iff.1 (Nat.eq_zero_of_add_eq_zero_right hzero.symm))
  · rw [emittedOn_sendChunks, if_neg (by simp), String.append_empty, ← hbefore.text, hframe]
  · rw [length_sendChunks, hemitted]
    unfold maxEmissions
    omega
  · intro other
    rw [emittedOn_sendChunks, hemitted]

/-- The arguments that were sent for one call are among all arguments. -/
theorem sentOn_arguments_le (id : String) (events : List (ProviderEvent ω)) :
    (sentOn (.arguments id) events).utf8ByteSize ≤ EventBudget.argumentBytes.total events := by
  induction events with
  | nil => exact Nat.le_refl 0
  | cons event events ih =>
    have hcons : sentOn (.arguments id) (event :: events) =
        (event.sent (.arguments id)).getD "" ++ sentOn (.arguments id) events := by
      have := sentOn_append (.arguments id) [event] events
      rw [← List.singleton_append, this]
      exact congrArg (· ++ _) (sentOn_concat (.arguments id) [] event |>.trans String.empty_append)
    have hevent : ((event.sent (.arguments id)).getD "").utf8ByteSize ≤ event.arguments.utf8ByteSize := by
      cases event with
      | toolCallArgumentsDelta id' delta =>
        unfold ProviderEvent.sent
        dsimp only
        rw [getD_ite]
        split
        · exact Nat.le_refl _
        · exact Nat.zero_le _
      | _ => exact Nat.le_refl 0
    rw [hcons, String.utf8ByteSize_append]
    have htotal : EventBudget.argumentBytes.total (event :: events) =
        event.arguments.utf8ByteSize + EventBudget.argumentBytes.total events := List.sum_cons
    omega

/-- The accumulator with the argument stream of a call replaced. -/
def GenerationAccumulator.pushed (acc : GenerationAccumulator ω υ) (id : String) (stream : ReflectionStream) :
    GenerationAccumulator ω υ :=
  { acc with toolArgumentReflections := Function.update acc.toolArgumentReflections id (some stream) }

/-- A push on the argument stream of a call. -/
theorem pushToolArguments_cases {id : String} {stream : ReflectionStream} {sent emitted : String} (delta : String)
    (hstream : acc.toolArgumentReflections id = some stream)
    (h : Channel credential guard sent emitted stream) :
    (∃ error acc', (pushToolArguments id delta).run acc = (.error (.failed error), acc') ∧ SameLog acc acc') ∨
      ∃ piece stream', (pushToolArguments id delta).run acc = (.ok piece, acc.pushed id stream') ∧
        Channel credential guard (sent ++ delta) (emitted ++ piece) stream' := by
  unfold pushToolArguments
  rw [Stateful.run_get_bind, hstream, okOr, Stateful.lift_ok_bind, Stateful.run_zoom]
  obtain ⟨stream', hpush⟩ | ⟨piece, stream', hpush, hchannel⟩ := channel_push h delta
  · rw [hpush]
    exact .inl ⟨_, _, rfl, rfl, rfl, rfl⟩
  · rw [hpush]
    exact .inr ⟨piece, stream', rfl, hchannel⟩

/-- What a call releases is emitted in chunks, if anything. -/
theorem emitReleased_cases (id filtered : String) (acc : GenerationAccumulator ω υ) :
    ∃ chunks rest, filtered = textOf chunks ++ rest ∧ chunks.length ≤ filtered.utf8ByteSize ∧
      (((if filtered = "" then pure () else emitFilteredToolArguments id filtered).run acc =
          (.ok (), acc.sendChunks id chunks) ∧ rest = "") ∨
        ∃ error, (if filtered = "" then pure () else emitFilteredToolArguments id filtered).run acc =
          (.error (.failed error), acc.sendChunks id chunks)) := by
  split
  · rename_i hempty
    exact ⟨[], "", hempty, Nat.zero_le _, .inl ⟨rfl, rfl⟩⟩
  · exact emitChunks_cases id filtered.utf8ByteSize filtered acc (Nat.le_refl _)

/-- The books of the tool calls while the arguments of one of them are emitted. -/
theorem CallsKept.chunks (h : CallsKept events acc) (more : List (ProviderEvent ω)) {id : String}
    (hid : id ∈ acc.activeToolCalls) (chunks : List String) (hemitted : acc'.emitted = acc.emitted)
    (hactive : acc'.activeToolCalls = acc.activeToolCalls)
    (hcompleted : acc'.completedToolCalls = acc.completedToolCalls)
    (hpending : acc'.pendingToolCompletions = acc.pendingToolCompletions) (stream : ReflectionStream)
    (hstreams : acc'.toolArgumentReflections = Function.update acc.toolArgumentReflections id (some stream)) :
    CallsKept (events ++ more) (acc'.sendChunks id chunks) := by
  obtain ⟨sequence, emitted, hframe⟩ := sendChunks_frame id chunks acc'
  refine h.frame more ?_ ?_ ?_ ?_ ?_ ?_
  · rw [hframe]
    exact hactive
  · rw [hframe]
    exact hcompleted
  · rw [hframe]
    exact hpending
  · intro other
    rw [hframe]
    show (acc'.toolArgumentReflections other).isSome = _
    rw [hstreams]
    by_cases hother : other = id
    · rw [hother, Function.update_self, (h.active id).1 hid]
      rfl
    · rw [Function.update_of_ne hother]
  · intro other hopen
    rw [marksOf_sendChunks, hemitted]
    split
    · exact hopen.arguments _
    · rw [List.append_nil]
      exact hopen
  · intro other hother
    have hne : id ≠ other := by
      rintro rfl
      exact hother (.inl hid)
    rw [marksOf_sendChunks, hemitted, if_neg hne, List.append_nil]

/-- What an argument delta costs. -/
theorem cost_arguments (h : Accumulated credential guard events acc) {id : String}
    (htick : (acc.ticked (.toolCallArgumentsDelta id delta)).nonProgressEventCount ≤ maxGeneratedProviderEvents)
    (hbytes : acc.toolArgumentBytes + delta.utf8ByteSize ≤ maxGeneratedToolArgumentBytes)
    (hchars : acc.toolArgumentChars + delta.length ≤ maxGeneratedToolArgumentChars) (budget : EventBudget) :
    budget.spent ((acc.ticked (.toolCallArgumentsDelta id delta)).countedArguments delta) =
        budget.spent acc + budget.cost (ω := ω) (.toolCallArgumentsDelta id delta) ∧
      budget.spent ((acc.ticked (.toolCallArgumentsDelta id delta)).countedArguments delta) ≤ budget.limit := by
  have hlimit := h.limits budget
  rw [← h.counted budget] at hlimit
  cases budget with
  | argumentBytes => exact ⟨rfl, hbytes⟩
  | argumentChars => exact ⟨rfl, hchars⟩
  | nonProgress => exact ⟨rfl, htick⟩
  | _ => exact ⟨rfl, hlimit⟩

/-- A failure while a delta is emitted. -/
theorem Accumulated.interrupted (h : Accumulated credential guard events acc) {event : ProviderEvent ω}
    {channel : StreamChannel} {delta piece rest : String} (hemits : Emits acc acc' channel piece)
    (hsent : ∀ other, (event.sent other).getD "" = if other = channel then delta else "")
    (hwhole : emittedOn channel acc.emitted ++ (piece ++ rest) = sentOn channel events ++ delta)
    (hclean : ∀ c, protectedCredential credential = some c → ¬ Contains c (sentOn channel events ++ delta))
    (hcalls : CallsKept (events ++ [event]) acc') (hlimits : WithinEventLimits (events ++ [event])) :
    ConsistentLog credential (events ++ [event]) acc' := by
  refine consistentLog_of hemits.logged (hemits.length_le h.streamed event) ?_ ?_ hcalls hlimits
  · intro other
    rw [sentOn_concat, hsent, hemits.emitted]
    by_cases hother : other = channel
    · rw [if_pos hother, if_pos hother, hother, ← hwhole]
      exact ⟨rest, String.append_assoc⟩
    · rw [if_neg hother, if_neg hother, String.append_empty, String.append_empty]
      exact h.consistent.beginning other
  · intro c hc other
    rw [sentOn_concat, hsent]
    by_cases hother : other = channel
    · rw [if_pos hother, hother]
      exact hclean c hc
    · rw [if_neg hother, String.append_empty]
      exact (h.streamed.channels other).clean hc

theorem sent_arguments (id delta : String) (other : StreamChannel) :
    ((ProviderEvent.toolCallArgumentsDelta (ω := ω) id delta).sent other).getD "" =
      if other = .arguments id then delta else "" := getD_ite delta

/-- What is released of an argument delta is bounded. -/
theorem Channel.piece_le {id piece : String} {stream : ReflectionStream}
    (hchannel : Channel credential guard (sentOn (.arguments id) events ++ delta)
      (emittedOn (.arguments id) acc.emitted ++ piece) stream)
    (hlimits : WithinEventLimits (events ++ [ProviderEvent.toolCallArgumentsDelta id delta])) :
    piece.utf8ByteSize ≤ maxGeneratedToolArgumentBytes := by
  have hsent := sentOn_arguments_le id (events ++ [ProviderEvent.toolCallArgumentsDelta id delta])
  rw [sentOn_concat, sent_arguments, if_pos rfl, ← hchannel.whole, String.utf8ByteSize_append,
    String.utf8ByteSize_append] at hsent
  have hlimit : EventBudget.argumentBytes.total (events ++ [ProviderEvent.toolCallArgumentsDelta id delta]) ≤
    maxGeneratedToolArgumentBytes := hlimits .argumentBytes
  omega

/-- The arguments that the filter releases are emitted. -/
theorem released_stepped (h : Accumulated credential guard events acc) {id piece : String}
    {stream : ReflectionStream} (hall : events ++ [ProviderEvent.toolCallArgumentsDelta id delta] <+: all)
    (hactive : id ∈ acc.activeToolCalls)
    (hcost : ∀ budget : EventBudget,
      budget.spent ((acc.ticked (.toolCallArgumentsDelta id delta)).countedArguments delta) =
          budget.spent acc + budget.cost (ω := ω) (.toolCallArgumentsDelta id delta) ∧
        budget.spent ((acc.ticked (.toolCallArgumentsDelta id delta)).countedArguments delta) ≤ budget.limit)
    (hbase : acc' = ((acc.ticked (.toolCallArgumentsDelta id delta)).countedArguments delta).pushed id stream)
    (hchannel : Channel credential guard (sentOn (.arguments id) events ++ delta)
      (emittedOn (.arguments id) acc.emitted ++ piece) stream) :
    Stepped credential guard (events ++ [ProviderEvent.toolCallArgumentsDelta id delta]) all
      ((if piece = "" then pure () else emitFilteredToolArguments id piece).run acc') := by
  obtain ⟨chunks, rest, rfl, hlength, hrun⟩ := emitReleased_cases id piece acc'
  have hlimits := h.limits_concat hcost
  have hsame : SameLog acc acc' := by
    rw [hbase]
    exact ⟨rfl, rfl, rfl⟩
  have hemits := h.streamed.logged.emitsChunks hsame id (Nat.le_trans hlength (hchannel.piece_le hlimits))
  have hcalls :
      CallsKept (events ++ [ProviderEvent.toolCallArgumentsDelta id delta]) (acc'.sendChunks id chunks) := by
    subst hbase
    refine h.calls.chunks _ hactive chunks ?_ ?_ ?_ ?_ stream ?_
    all_goals rfl
  obtain ⟨sequence, emitted, hframe⟩ := sendChunks_frame id chunks acc'
  obtain ⟨hrun, rfl⟩ | ⟨error, hrun⟩ := hrun
  · rw [hrun]
    rw [String.append_empty] at hchannel
    refine h.advance hemits ?_ (sent_arguments id delta) ?_ ?_ hcalls ?_
    · rw [hframe, hbase]
      rfl
    · intro other hother
      rw [hframe, hbase]
      cases other with
      | text => rfl
      | reasoning => rfl
      | arguments other =>
        have hne : other ≠ id := by
          rintro rfl
          exact hother rfl
        show ((Function.update acc.toolArgumentReflections id (some stream)) other).getD _ = _
        rw [Function.update_of_ne hne]
        rfl
    · rw [hframe, hbase]
      show Channel _ _ _ _ (((Function.update acc.toolArgumentReflections id (some stream)) id).getD _)
      rw [Function.update_self]
      exact hchannel
    · rw [hframe, hbase]
      exact hcost
  · rw [hrun]
    have hwhole : emittedOn (.arguments id) acc.emitted ++ (textOf chunks ++ (rest ++ stream.pending)) =
        sentOn (.arguments id) events ++ delta := by
      rw [← hchannel.whole]
      simp only [String.append_assoc]
    exact ⟨⟨error, rfl⟩, _, hall, h.interrupted hemits (sent_arguments id delta) hwhole
      (fun _ hc => hchannel.clean hc) hcalls hlimits⟩

/-- The arguments of a tool call. -/
theorem forwardToolArguments_stepped (h : Accumulated credential guard events acc) {id : String}
    (hall : events ++ [ProviderEvent.toolCallArgumentsDelta id delta] <+: all)
    (htick : (acc.ticked (.toolCallArgumentsDelta id delta)).nonProgressEventCount ≤ maxGeneratedProviderEvents) :
    Stepped credential guard (events ++ [ProviderEvent.toolCallArgumentsDelta id delta]) all
      ((forwardToolArguments id delta).run (acc.ticked (.toolCallArgumentsDelta id delta))) := by
  have hbefore : events <+: all := (List.prefix_append _ _).trans hall
  unfold forwardToolArguments
  rw [run_rejectReflected_bind]
  split
  · exact h.refused (sameLog_ticked acc _) hbefore _
  rw [Stateful.run_get_bind]
  split
  · split
    · exact h.refused (sameLog_ticked acc _) hbefore _
    · exact h.refused (sameLog_ticked acc _) hbefore _
  rename_i hactive
  rw [not_not] at hactive
  obtain ⟨stream, hstream⟩ := Option.isSome_iff_exists.1 ((h.calls.active id).1 hactive)
  have hchannel := h.streamed.channels (.arguments id)
  have hstreamed : acc.stream (.arguments id) = stream := by
    unfold GenerationAccumulator.stream
    dsimp only
    rw [hstream, Option.getD_some]
  rw [hstreamed] at hchannel
  rw [Stateful.run_bind]
  obtain ⟨error, htrack⟩ | ⟨hbytes, hchars, htrack⟩ :=
    trackToolArguments_cases (acc.ticked (.toolCallArgumentsDelta id delta)) delta
  · rw [htrack]
    exact h.refused (sameLog_ticked acc _) hbefore _
  have hcost := cost_arguments h htick hbytes hchars
  rw [htrack]
  dsimp only
  rw [Stateful.run_bind]
  obtain ⟨error, acc', hpush, hsame⟩ | ⟨piece, stream', hpush, hchannel'⟩ := pushToolArguments_cases delta
    (show ((acc.ticked (.toolCallArgumentsDelta id delta)).countedArguments delta).toolArgumentReflections id = _
      from hstream) hchannel
  · rw [hpush]
    exact h.refused hsame hbefore error
  rw [hpush]
  dsimp only
  exact released_stepped h hall hactive hcost rfl hchannel'

/-- The accumulator after a tool call was completed. -/
def GenerationAccumulator.closed (acc : GenerationAccumulator ω υ) (id : String) (stream : ReflectionStream) :
    GenerationAccumulator ω υ :=
  { acc with
    activeToolCalls := acc.activeToolCalls.erase id
    toolArgumentReflections := Function.update acc.toolArgumentReflections id none
    completedToolCalls := insert id acc.completedToolCalls
    pendingToolCompletions := acc.pendingToolCompletions ++ [(id, stream)] }

theorem CallsKept.closed (h : CallsKept events acc) (more : List (ProviderEvent ω)) {id : String}
    (hid : id ∈ acc.activeToolCalls) (stream : ReflectionStream) :
    CallsKept (events ++ more) (acc.closed id stream) := by
  have hknown : ∀ other, (acc.closed id stream).known other ↔ acc.known other := by
    intro other
    show other ∈ acc.activeToolCalls.erase id ∨ other ∈ insert id acc.completedToolCalls ↔
      other ∈ acc.activeToolCalls ∨ other ∈ acc.completedToolCalls
    rw [Finset.mem_erase, Finset.mem_insert]
    by_cases hother : other = id
    · rw [hother]
      exact ⟨fun _ => .inl hid, fun _ => .inr (.inl rfl)⟩
    · rw [or_iff_right hother, and_iff_right hother]
  have hnew : id ∉ acc.pendingToolCompletions.map Prod.fst := fun hmem =>
    h.apart id hid ((h.completed id).2 hmem)
  refine ⟨?_, ?_, ?_, ?_, ?_, ?_, ?_⟩
  · intro other hother
    exact h.openCalls other ((hknown other).1 hother)
  · intro other hother
    rw [hknown] at hother
    exact h.noCalls other hother
  · intro other hother
    obtain ⟨name, hname⟩ := h.requested other ((hknown other).1 hother)
    exact ⟨name, List.mem_append_left _ hname⟩
  · intro other
    show other ∈ acc.activeToolCalls.erase id ↔
      (Function.update acc.toolArgumentReflections id none other).isSome = true
    rw [Finset.mem_erase]
    by_cases hother : other = id
    · rw [hother, Function.update_self]
      exact ⟨fun hne => absurd rfl hne.1, fun hsome => nomatch hsome⟩
    · rw [Function.update_of_ne hother, and_iff_right hother]
      exact h.active other
  · intro other
    show other ∈ insert id acc.completedToolCalls ↔
      other ∈ (acc.pendingToolCompletions ++ [(id, stream)]).map Prod.fst
    rw [Finset.mem_insert, h.completed, List.map_append, List.mem_append, List.map_singleton, List.mem_singleton,
      or_comm]
  · show ((acc.pendingToolCompletions ++ [(id, stream)]).map Prod.fst).Nodup
    rw [List.map_append, List.map_singleton]
    exact h.completedOnce.append (List.nodup_singleton id) (List.disjoint_singleton.2 hnew)
  · intro other hother
    show other ∉ insert id acc.completedToolCalls
    obtain ⟨hne, hother⟩ := Finset.mem_erase.1 hother
    rw [Finset.mem_insert, not_or]
    exact ⟨hne, h.apart other hother⟩

theorem CallsKept.ticked (h : CallsKept events acc) (event : ProviderEvent ω) :
    CallsKept events (acc.ticked event) :=
  ⟨h.openCalls, h.noCalls, h.requested, h.active, h.completed, h.completedOnce, h.apart⟩

theorem CallsKept.spent_closed (h : CallsKept events acc) {id : String} (hid : id ∈ acc.activeToolCalls)
    (stream : ReflectionStream) (budget : EventBudget) :
    budget.spent (acc.closed id stream) = budget.spent acc := by
  cases budget with
  | toolCalls =>
    have herase : (acc.activeToolCalls.erase id).card + 1 = acc.activeToolCalls.card :=
      Finset.card_erase_add_one hid
    have hinsert : (insert id acc.completedToolCalls).card = acc.completedToolCalls.card + 1 :=
      Finset.card_insert_of_notMem (h.apart id hid)
    show (acc.activeToolCalls.erase id).card + (insert id acc.completedToolCalls).card =
      acc.activeToolCalls.card + acc.completedToolCalls.card
    omega
  | _ => rfl

/-- The filter of a completed call waits among the completions. -/
theorem CallsKept.stream_closed (h : CallsKept events acc) {id : String} (hid : id ∈ acc.activeToolCalls)
    {stream : ReflectionStream} (hstream : acc.toolArgumentReflections id = some stream) (channel : StreamChannel) :
    (acc.closed id stream).stream channel = acc.stream channel := by
  cases channel with
  | text => rfl
  | reasoning => rfl
  | arguments other =>
    show ((Function.update acc.toolArgumentReflections id none) other).getD
      ((((acc.pendingToolCompletions ++ [(id, stream)]).find? (·.1 = other)).map Prod.snd).getD _) = _
    by_cases hother : other = id
    · have hfind : acc.pendingToolCompletions.find? (·.1 = id) = none := by
        rw [List.find?_eq_none]
        intro completion hmem hfirst
        exact h.apart id hid ((h.completed id).2
          (List.mem_map.2 ⟨completion, hmem, of_decide_eq_true hfirst⟩))
      rw [hother, Function.update_self, List.find?_append, hfind]
      unfold GenerationAccumulator.stream
      dsimp only
      rw [hstream]
      simp
    · have hlast : [(id, stream)].find? (·.1 = other) = none := by
        simp [Ne.symm hother]
      rw [Function.update_of_ne hother, List.find?_append, hlast, Option.or_none]
      rfl

/-- The completion of a tool call, which is announced at the end. -/
theorem completeToolCall_stepped (h : Accumulated credential guard events acc) {id : String}
    (hall : events <+: all)
    (htick : (acc.ticked (.toolCallCompleted id)).nonProgressEventCount ≤ maxGeneratedProviderEvents) :
    Stepped credential guard (events ++ [ProviderEvent.toolCallCompleted id]) all
      ((completeToolCall id).run (acc.ticked (.toolCallCompleted id))) := by
  unfold completeToolCall
  rw [run_rejectReflected_bind]
  split
  · exact h.refused (sameLog_ticked acc _) hall _
  rw [Stateful.run_get_bind, Stateful.run_rejectIf_bind]
  split
  · exact h.refused (sameLog_ticked acc _) hall _
  rename_i hactive
  rw [not_not] at hactive
  have hid : id ∈ acc.activeToolCalls := hactive
  obtain ⟨stream, hstream⟩ := Option.isSome_iff_exists.1 ((h.calls.active id).1 hid)
  have hstream' : (acc.ticked (.toolCallCompleted id)).toolArgumentReflections id = some stream := hstream
  rw [Stateful.run_modify_bind, hstream', okOr, Stateful.lift_ok_bind, Stateful.run_modify]
  have hcalls := h.calls.ticked (.toolCallCompleted id)
  have hcost := cost_other h (.toolCallCompleted id) rfl rfl rfl htick
  have hemits : Emits acc ((acc.ticked (.toolCallCompleted id)).closed id stream) .text "" := by
    refine h.streamed.logged.emitsNothing ?_ .text
    exact ⟨rfl, rfl, rfl⟩
  refine h.advance hemits rfl (fun _ => (ite_self _).symm) ?_ ?_ (hcalls.closed _ hid stream) ?_
  · intro other _
    exact hcalls.stream_closed hid hstream other
  · rw [String.append_empty, String.append_empty]
    exact h.streamed.channels .text
  · intro budget
    have hspent := hcalls.spent_closed hid stream budget
    have hbudget := hcost budget
    rw [← hspent] at hbudget
    exact hbudget

/-- An opaque state is kept or dropped. -/
theorem forwardOpaqueState_stepped (context : GenerationContext ω υ) (h : Accumulated credential guard events acc)
    {state : ω} (hall : events <+: all)
    (htick : (acc.ticked (.opaqueReasoningState state)).nonProgressEventCount ≤ maxGeneratedProviderEvents) :
    Stepped credential guard (events ++ [ProviderEvent.opaqueReasoningState state]) all
      ((forwardOpaqueState context state).run (acc.ticked (.opaqueReasoningState state))) := by
  have hcost := cost_other h (.opaqueReasoningState state) rfl rfl rfl htick
  have hkept : ∀ states, Accumulated credential guard (events ++ [ProviderEvent.opaqueReasoningState state])
      { acc.ticked (.opaqueReasoningState state) with opaqueReasoningState := states } := by
    intro states
    have hemits : Emits acc { acc.ticked (.opaqueReasoningState state) with opaqueReasoningState := states }
        .text "" := by
      refine h.streamed.logged.emitsNothing ?_ .text
      exact ⟨rfl, rfl, rfl⟩
    refine h.advance hemits rfl (fun _ => (ite_self _).symm) ?_ ?_
      (h.calls.frame _ rfl rfl rfl (fun _ => rfl) (fun _ h => h) (fun _ _ => rfl)) hcost
    · intro other _
      cases other with
      | text => rfl
      | reasoning => rfl
      | arguments id => exact stream_congr rfl rfl rfl id
    · rw [String.append_empty, String.append_empty]
      exact h.streamed.channels .text
  unfold forwardOpaqueState
  rw [Stateful.run_get_bind, Stateful.run_rejectIf_bind]
  split
  · exact h.refused (sameLog_ticked acc _) hall _
  split
  · rw [Stateful.run_rejectIf_bind]
    split
    · exact h.refused (sameLog_ticked acc _) hall _
    · rw [Stateful.run_lift_bind]
      cases context.validateOpaqueReasoningStates
          ((acc.ticked (.opaqueReasoningState state)).opaqueReasoningState ++ [state]) with
      | error message => exact h.refused (sameLog_ticked acc _) hall _
      | ok => exact hkept _
  · exact hkept acc.opaqueReasoningState

/-- One event of the provider. -/
theorem forward_stepped (context : GenerationContext ω υ) (h : Accumulated credential guard events acc)
    {event : ProviderEvent ω} (hall : events ++ [event] <+: all) :
    Stepped credential guard (events ++ [event]) all ((forward context event).run acc) := by
  have hbefore : events <+: all := (List.prefix_append _ _).trans hall
  have hcount : acc.nonProgressEventCount ≤ maxGeneratedProviderEvents := by
    have hlimit := h.limits .nonProgress
    rw [← h.counted] at hlimit
    exact hlimit
  unfold forward
  rw [Stateful.run_bind]
  obtain ⟨error, acc', hrun, hsame⟩ | ⟨htick, hrun⟩ := countNonProgress_cases acc hcount
  · rw [hrun]
    exact h.refused hsame hbefore error
  rw [hrun]
  cases event with
  | textDelta delta => exact forwardText_stepped h hbefore htick
  | reasoningDelta delta => exact forwardReasoning_stepped h hbefore htick
  | opaqueReasoningState state => exact forwardOpaqueState_stepped context h hbefore htick
  | toolCallStarted id name => exact forwardToolStart_stepped h hbefore htick
  | toolCallArgumentsDelta id delta => exact forwardToolArguments_stepped h hall htick
  | toolCallCompleted id => exact completeToolCall_stepped h hbefore htick

/-- All events of the provider. -/
theorem forwardAll_triple (context : GenerationContext ω υ) (credential : Option String)
    (guard : CredentialReflectionGuard) (events : List (ProviderEvent ω)) :
    Stateful.Triple (Accumulated credential guard []) (events.forM (forward context))
      (fun _ => Accumulated credential guard events)
      (Refused credential events (υ := υ)) := by
  refine Stateful.Triple.forM ?_
  intro done event rest hevents acc h
  have hall : done ++ [event] <+: events := ⟨rest, by rw [hevents, List.append_assoc, List.singleton_append]⟩
  exact forward_stepped context h hall

/-! ## The end of a success -/

/-- The held back text is released. -/
def GenerationAccumulator.textFlushed (acc : GenerationAccumulator ω υ) : GenerationAccumulator ω υ :=
  if acc.textReflection.pending = "" then { acc with textReflection := acc.textReflection.finish.2 }
  else GenerationAccumulator.send (.textDelta acc.textReflection.pending)
    { acc with
      textReflection := acc.textReflection.finish.2
      text := acc.text ++ acc.textReflection.pending }

/-- The held back reasoning is released. -/
def GenerationAccumulator.reasoningFlushed (acc : GenerationAccumulator ω υ) : GenerationAccumulator ω υ :=
  if acc.reasoningReflection.pending = "" then { acc with reasoningReflection := acc.reasoningReflection.finish.2 }
  else GenerationAccumulator.send (.reasoningDelta acc.reasoningReflection.pending)
    { acc with reasoningReflection := acc.reasoningReflection.finish.2 }

theorem textFlushed_emits (h : LogKept acc) : Emits acc acc.textFlushed .text acc.textReflection.pending := by
  unfold GenerationAccumulator.textFlushed
  split
  · rename_i hempty
    rw [hempty]
    refine h.emitsNothing ?_ .text
    exact ⟨rfl, rfl, rfl⟩
  · refine h.emitsSend _ ?_ ?_ ?_ fun _ => getD_ite _
    all_goals rfl

theorem reasoningFlushed_emits (h : LogKept acc) :
    Emits acc acc.reasoningFlushed .reasoning acc.reasoningReflection.pending := by
  unfold GenerationAccumulator.reasoningFlushed
  split
  · rename_i hempty
    rw [hempty]
    refine h.emitsNothing ?_ .reasoning
    exact ⟨rfl, rfl, rfl⟩
  · refine h.emitsSend _ ?_ ?_ ?_ fun _ => getD_ite _
    · rfl
    · rfl
    · exact String.append_empty.symm

theorem textFlushed_reasoning (acc : GenerationAccumulator ω υ) :
    acc.textFlushed.reasoningReflection = acc.reasoningReflection := by
  unfold GenerationAccumulator.textFlushed
  split <;> rfl

/-- The streams of text and reasoning are flushed before the calls are completed. -/
theorem finishPublicStreams_run (acc : GenerationAccumulator ω υ) : finishPublicStreams.run acc =
    (acc.pendingToolCompletions.forM finishToolCall).run
      { acc.textFlushed.reasoningFlushed with pendingToolCompletions := [] } := by
  unfold finishPublicStreams GenerationAccumulator.reasoningFlushed
  rw [textFlushed_reasoning]
  unfold GenerationAccumulator.textFlushed
  rw [Stateful.run_get_bind, Stateful.run_modify_bind]
  by_cases htext : acc.textReflection.pending = ""
  · by_cases hreasoning : acc.reasoningReflection.pending = ""
    · simp only [ReflectionStream.finish, htext, hreasoning, if_true]
      rfl
    · simp only [ReflectionStream.finish, htext, hreasoning, if_true, if_false]
      rfl
  · by_cases hreasoning : acc.reasoningReflection.pending = ""
    · simp only [ReflectionStream.finish, htext, hreasoning, if_true, if_false]
      rfl
    · simp only [ReflectionStream.finish, htext, hreasoning, if_false]
      rfl

theorem textFlushed_marks (acc : GenerationAccumulator ω υ) (id : String) :
    marksOf id acc.textFlushed.emitted = marksOf id acc.emitted := by
  unfold GenerationAccumulator.textFlushed
  split
  · rfl
  · rw [marksOf_send]
    exact List.append_nil _

theorem reasoningFlushed_marks (acc : GenerationAccumulator ω υ) (id : String) :
    marksOf id acc.reasoningFlushed.emitted = marksOf id acc.emitted := by
  unfold GenerationAccumulator.reasoningFlushed
  split
  · rfl
  · rw [marksOf_send]
    exact List.append_nil _

theorem length_textFlushed_le (acc : GenerationAccumulator ω υ) :
    acc.textFlushed.emitted.length ≤ acc.emitted.length + 1 := by
  unfold GenerationAccumulator.textFlushed
  split
  · exact Nat.le_add_right _ 1
  · rw [length_send]

theorem length_reasoningFlushed_le (acc : GenerationAccumulator ω υ) :
    acc.reasoningFlushed.emitted.length ≤ acc.emitted.length + 1 := by
  unfold GenerationAccumulator.reasoningFlushed
  split
  · exact Nat.le_add_right _ 1
  · rw [length_send]

/-- While the completions are announced: the calls that are done are complete, the others are as they were. -/
structure Flushing (events : List (ProviderEvent ω)) (start : GenerationAccumulator ω υ)
    (done : List (String × ReflectionStream)) (acc : GenerationAccumulator ω υ) : Prop where
  logged : LogKept acc
  bounded : acc.emitted.length ≤ start.emitted.length + 2 + done.length * maxEmissions
  text : emittedOn .text acc.emitted = sentOn .text events
  reasoning : emittedOn .reasoning acc.emitted = sentOn .reasoning events
  finished : ∀ id ∈ done.map Prod.fst, emittedOn (.arguments id) acc.emitted = sentOn (.arguments id) events ∧
    CompletedCall (marksOf id acc.emitted)
  waiting : ∀ id ∉ done.map Prod.fst,
    emittedOn (.arguments id) acc.emitted = emittedOn (.arguments id) start.emitted ∧
      marksOf id acc.emitted = marksOf id start.emitted

/-- The text and the reasoning are whole. -/
theorem flushing_start (h : Accumulated credential guard events acc) :
    Flushing events acc [] { acc.textFlushed.reasoningFlushed with pendingToolCompletions := [] } := by
  have htext := textFlushed_emits h.streamed.logged
  have hreasoning := reasoningFlushed_emits htext.logged
  have hemitted : ∀ channel, emittedOn channel acc.textFlushed.reasoningFlushed.emitted =
      emittedOn channel acc.emitted ++ (if channel = .text then acc.textReflection.pending else "") ++
        if channel = .reasoning then acc.reasoningReflection.pending else "" := by
    intro channel
    rw [hreasoning.emitted, htext.emitted, textFlushed_reasoning]
  refine ⟨hreasoning.logged.congr ⟨rfl, rfl, rfl⟩, ?_, ?_, ?_, ?_, ?_⟩
  · show acc.textFlushed.reasoningFlushed.emitted.length ≤ _
    have := length_textFlushed_le acc
    have := length_reasoningFlushed_le acc.textFlushed
    omega
  · refine (hemitted .text).trans ?_
    rw [if_pos rfl, if_neg (by simp), String.append_empty]
    exact (h.streamed.channels .text).whole
  · refine (hemitted .reasoning).trans ?_
    rw [if_pos rfl, if_neg (by simp), String.append_empty]
    exact (h.streamed.channels .reasoning).whole
  · intro id hid
    cases hid
  · intro id _
    refine ⟨(hemitted (.arguments id)).trans ?_, ?_⟩
    · rw [if_neg (by simp), if_neg (by simp), String.append_empty, String.append_empty]
    · exact (reasoningFlushed_marks acc.textFlushed id).trans (textFlushed_marks acc id)

/-- A completion that waits holds the end of the arguments of its call. -/
theorem Accumulated.completion (h : Accumulated credential guard events acc) (hactive : acc.activeToolCalls = ∅)
    {id : String} {stream : ReflectionStream} (hmem : (id, stream) ∈ acc.pendingToolCompletions) :
    emittedOn (.arguments id) acc.emitted ++ stream.pending = sentOn (.arguments id) events ∧
      OpenCall (marksOf id acc.emitted) := by
  have hknown : acc.known id := .inr ((h.calls.completed id).2 (List.mem_map.2 ⟨_, hmem, rfl⟩))
  refine ⟨?_, h.calls.openCalls id hknown⟩
  have hnone : acc.toolArgumentReflections id = none := by
    have hid : ¬ id ∈ acc.activeToolCalls := by
      rw [hactive]
      exact Finset.notMem_empty id
    rw [h.calls.active, Bool.not_eq_true, Option.isSome_eq_false_iff, Option.isNone_iff_eq_none] at hid
    exact hid
  have hfind : acc.pendingToolCompletions.find? (·.1 = id) = some (id, stream) :=
    find?_key h.calls.completedOnce hmem
  have hstream : acc.stream (.arguments id) = stream := by
    unfold GenerationAccumulator.stream
    dsimp only
    rw [hnone, hfind]
    rfl
  have hwhole := (h.streamed.channels (.arguments id)).whole
  rw [hstream] at hwhole
  exact hwhole

/-- The number of completions. -/
theorem Accumulated.completions_le (h : Accumulated credential guard events acc) :
    acc.pendingToolCompletions.length ≤ maxGeneratedToolCalls := by
  have hcard : acc.completedToolCalls = (acc.pendingToolCompletions.map Prod.fst).toFinset := by
    ext id
    rw [h.calls.completed, List.mem_toFinset]
  have hlimit := h.limits .toolCalls
  rw [← h.counted] at hlimit
  have hlimit' : acc.activeToolCalls.card + acc.completedToolCalls.card ≤ maxGeneratedToolCalls := hlimit
  rw [hcard, List.toFinset_card_of_nodup h.calls.completedOnce, List.length_map] at hlimit'
  omega

/-- What the flush emits is consistent with the events. -/
theorem flushed_consistent {start : GenerationAccumulator ω υ} (h : Accumulated credential guard events start)
    (hlogged : LogKept acc)
    (hbounded : acc.emitted.length ≤ start.emitted.length + 3 + maxGeneratedToolCalls * maxEmissions)
    (hbeginning : ∀ channel, ∃ rest, emittedOn channel acc.emitted ++ rest = sentOn channel events)
    (hcalls : ∀ id, marksOf id acc.emitted = marksOf id start.emitted ∨
      (OrderedCall (marksOf id acc.emitted) ∧ start.known id)) : ConsistentLog credential events acc where
  logged := hlogged
  bounded := by
    have := h.streamed.bounded
    rw [Nat.add_mul]
    omega
  beginning := hbeginning
  clean := emittedOn_clean hbeginning fun _ hc channel => (h.streamed.channels channel).clean hc
  calls := by
    intro id
    obtain hsame | ⟨hordered, -⟩ := hcalls id
    · rw [hsame]
      exact h.calls.ordered id
    · exact hordered
  requested := by
    intro id hid
    obtain hsame | ⟨-, hknown⟩ := hcalls id
    · rw [hsame] at hid
      exact h.calls.requested_of_marks hid
    · exact h.calls.requested id hknown
  limits := h.limits

/-- One more call is complete. -/
theorem Flushing.completed {start : GenerationAccumulator ω υ} {done : List (String × ReflectionStream)}
    (h : Flushing events start done acc) {id : String} {stream : ReflectionStream} {chunks : List String}
    (hnew : id ∉ done.map Prod.fst)
    (hemits : Emits acc (acc.sendChunks id chunks) (.arguments id) (textOf chunks))
    (hlength : chunks.length ≤ maxGeneratedToolArgumentBytes)
    (hwhole : emittedOn (.arguments id) start.emitted ++ textOf chunks = sentOn (.arguments id) events)
    (hopen : OpenCall (marksOf id start.emitted)) :
    Flushing events start (done ++ [(id, stream)])
      ((acc.sendChunks id chunks).send (.toolCallCompleted id)) := by
  have hemitted : ∀ channel, emittedOn channel ((acc.sendChunks id chunks).send (.toolCallCompleted id)).emitted =
      emittedOn channel acc.emitted ++ if channel = .arguments id then textOf chunks else "" := by
    intro channel
    rw [emittedOn_send, hemits.emitted]
    exact String.append_empty
  have hmarks : ∀ other, marksOf other ((acc.sendChunks id chunks).send (.toolCallCompleted id)).emitted =
      marksOf other acc.emitted ++
        (if id = other then List.replicate chunks.length ToolMark.arguments else []) ++
        if id = other then [ToolMark.completed] else [] := by
    intro other
    rw [marksOf_send, marksOf_sendChunks]
    exact congrArg (_ ++ ·) (toList_ite _)
  obtain ⟨hbefore, hbeforeMarks⟩ := h.waiting id hnew
  refine ⟨⟨hemits.logged.numbered.send _, send_ne_nil _, ?_⟩, ?_, ?_, ?_, ?_, ?_⟩
  · rw [emittedOn_send]
    exact hemits.logged.text.trans String.append_empty.symm
  · rw [length_send, length_sendChunks, List.length_append, List.length_singleton, Nat.add_mul, Nat.one_mul]
    have := h.bounded
    unfold maxEmissions at *
    omega
  · rw [hemitted, if_neg (by simp), String.append_empty]
    exact h.text
  · rw [hemitted, if_neg (by simp), String.append_empty]
    exact h.reasoning
  · intro other hother
    rw [hemitted, hmarks]
    by_cases heq : id = other
    · subst heq
      rw [if_pos rfl, if_pos rfl, if_pos rfl, hbefore, hbeforeMarks]
      exact ⟨hwhole, (hopen.arguments _).completed⟩
    · have hne : (StreamChannel.arguments other) ≠ .arguments id := fun hid => heq (StreamChannel.arguments.inj hid).symm
      rw [if_neg hne, if_neg heq, if_neg heq, String.append_empty, List.append_nil, List.append_nil]
      rw [List.map_append, List.mem_append, List.map_singleton, List.mem_singleton] at hother
      exact h.finished other (hother.resolve_right (Ne.symm heq))
  · intro other hother
    rw [List.map_append, List.mem_append, List.map_singleton, List.mem_singleton, not_or] at hother
    have hne : (StreamChannel.arguments other) ≠ .arguments id := fun hid => hother.2 (StreamChannel.arguments.inj hid)
    rw [hemitted, hmarks, if_neg hne, if_neg (Ne.symm hother.2), if_neg (Ne.symm hother.2), String.append_empty,
      List.append_nil, List.append_nil]
    exact h.waiting other hother.1

theorem Flushing.beginning {start : GenerationAccumulator ω υ} {done : List (String × ReflectionStream)}
    (h : Flushing events start done acc) (hstart : Accumulated credential guard events start)
    (channel : StreamChannel) : ∃ rest, emittedOn channel acc.emitted ++ rest = sentOn channel events := by
  cases channel with
  | text => exact ⟨"", String.append_empty.trans h.text⟩
  | reasoning => exact ⟨"", String.append_empty.trans h.reasoning⟩
  | arguments id =>
    by_cases hdone : id ∈ done.map Prod.fst
    · exact ⟨"", String.append_empty.trans (h.finished id hdone).1⟩
    · rw [(h.waiting id hdone).1]
      exact hstart.consistent.beginning (.arguments id)

theorem Flushing.calls {start : GenerationAccumulator ω υ} {done rest : List (String × ReflectionStream)}
    (h : Flushing events start done acc) (hstart : CallsKept events start)
    (hpending : start.pendingToolCompletions = done ++ rest) (id : String) :
    marksOf id acc.emitted = marksOf id start.emitted ∨ (OrderedCall (marksOf id acc.emitted) ∧ start.known id) := by
  by_cases hdone : id ∈ done.map Prod.fst
  · refine .inr ⟨.inr (.inr (h.finished id hdone).2), .inr ((hstart.completed id).2 ?_)⟩
    rw [hpending, List.map_append]
    exact List.mem_append_left _ hdone
  · exact .inl (h.waiting id hdone).2

/-- A failure among the arguments of a completed call. -/
theorem Flushing.interrupted {start : GenerationAccumulator ω υ} {done rest : List (String × ReflectionStream)}
    (h : Flushing events start done acc) (hstart : Accumulated credential guard events start)
    {id : String} {stream : ReflectionStream} (hpending : start.pendingToolCompletions = done ++ (id, stream) :: rest)
    {chunks : List String} {left : String} (hnew : id ∉ done.map Prod.fst)
    (hemits : Emits acc (acc.sendChunks id chunks) (.arguments id) (textOf chunks))
    (hwhole : emittedOn (.arguments id) start.emitted ++ (textOf chunks ++ left) = sentOn (.arguments id) events)
    (hopen : OpenCall (marksOf id start.emitted)) : ConsistentLog credential events (acc.sendChunks id chunks) := by
  obtain ⟨hbefore, hbeforeMarks⟩ := h.waiting id hnew
  have hcount := hstart.completions_le
  rw [hpending, List.length_append, List.length_cons] at hcount
  refine flushed_consistent hstart hemits.logged ?_ ?_ ?_
  · have hbounded := h.bounded
    have hstep := hemits.bounded
    have hmul : (done.length + 1) * maxEmissions ≤ maxGeneratedToolCalls * maxEmissions :=
      Nat.mul_le_mul_right _ (by omega)
    rw [Nat.add_mul, Nat.one_mul] at hmul
    omega
  · intro channel
    rw [hemits.emitted]
    by_cases hchannel : channel = .arguments id
    · rw [if_pos hchannel, hchannel, hbefore]
      exact ⟨left, String.append_assoc.trans hwhole⟩
    · rw [if_neg hchannel, String.append_empty]
      exact h.beginning hstart channel
  · intro other
    rw [marksOf_sendChunks]
    by_cases hother : id = other
    · subst hother
      rw [if_pos rfl, hbeforeMarks]
      refine .inr ⟨.inr (.inl (hopen.arguments _)), .inr ((hstart.calls.completed id).2 ?_)⟩
      rw [hpending, List.map_append]
      exact List.mem_append_right _ (List.mem_cons_self ..)
    · rw [if_neg hother, List.append_nil]
      exact h.calls hstart.calls hpending other

theorem finishToolCall_eq (id : String) (stream : ReflectionStream) :
    (finishToolCall (id, stream) : Accumulate ω υ Unit) =
      (if stream.pending = "" then pure () else emitFilteredToolArguments id stream.pending) >>= fun _ =>
        emit (.toolCallCompleted id) := by
  unfold finishToolCall ReflectionStream.finish
  dsimp only
  split
  · rfl
  · rfl

/-- One completion: the rest of its arguments and its end are emitted. -/
theorem finishToolCall_stepped {start : GenerationAccumulator ω υ} (h : Accumulated credential guard events start)
    (hactive : start.activeToolCalls = ∅) {done : List (String × ReflectionStream)} {id : String}
    {stream : ReflectionStream} {rest : List (String × ReflectionStream)}
    (hpending : start.pendingToolCompletions = done ++ (id, stream) :: rest)
    (hflushing : Flushing events start done acc) :
    Stateful.Ends (fun _ => Flushing events start (done ++ [(id, stream)])) (Refused credential events)
      ((finishToolCall (id, stream)).run acc) := by
  have hmem : (id, stream) ∈ start.pendingToolCompletions := by
    rw [hpending]
    exact List.mem_append_right _ (List.mem_cons_self ..)
  obtain ⟨hwhole, hopen⟩ := h.completion hactive hmem
  have hnew : id ∉ done.map Prod.fst := by
    have hnodup := h.calls.completedOnce
    rw [hpending, List.map_append, List.map_cons] at hnodup
    exact fun hid => (List.nodup_append.1 hnodup).2.2 id hid id (List.mem_cons_self ..) rfl
  have hsize : stream.pending.utf8ByteSize ≤ maxGeneratedToolArgumentBytes := by
    have hsent := sentOn_arguments_le id events
    have hlimit : EventBudget.argumentBytes.total events ≤ maxGeneratedToolArgumentBytes := h.limits .argumentBytes
    rw [← hwhole, String.utf8ByteSize_append] at hsent
    omega
  rw [finishToolCall_eq, Stateful.run_bind]
  obtain ⟨chunks, left, hchunks, hlength, hrun⟩ := emitReleased_cases id stream.pending acc
  have hemits := hflushing.logged.emitsChunks (sameLog_refl acc) id (Nat.le_trans hlength hsize)
  obtain ⟨hrun, rfl⟩ | ⟨error, hrun⟩ := hrun
  · rw [hrun]
    rw [String.append_empty] at hchunks
    exact hflushing.completed hnew hemits (hlength.trans hsize) (hchunks ▸ hwhole) hopen
  · rw [hrun]
    rw [hchunks] at hwhole
    exact ⟨⟨error, rfl⟩, events, List.prefix_rfl, hflushing.interrupted h hpending hnew hemits hwhole hopen⟩

/-- The flush of a success. -/
theorem finishPublicStreams_ends {start : GenerationAccumulator ω υ}
    (h : Accumulated credential guard events start) (hactive : start.activeToolCalls = ∅) :
    Stateful.Ends (fun _ => Flushing events start start.pendingToolCompletions) (Refused credential events)
      (finishPublicStreams.run start) := by
  rw [finishPublicStreams_run]
  have hloop : Stateful.Triple (Flushing events start []) (start.pendingToolCompletions.forM finishToolCall)
      (fun _ => Flushing events start start.pendingToolCompletions) (Refused credential events) := by
    refine Stateful.Triple.forM ?_
    intro done completion rest hpending acc hflushing
    exact finishToolCall_stepped h hactive hpending hflushing
  exact hloop _ (flushing_start h)

/-! ## The whole run -/

/-- What an observer may rely on, whether the generation succeeds or not. -/
structure GenerationProtocol (credential : Option String) (events : List (ProviderEvent ω)) (text : String)
    (lastSequence : Nat) (log : List (ChatEvent υ)) : Prop where
  numbered : log.map ChatEvent.sequence = List.range' 1 log.length
  last : log.getLast?.map ChatEvent.sequence = some lastSequence
  text : text = emittedOn .text log
  beginning : ∀ channel, ∃ rest, emittedOn channel log ++ rest = sentOn channel events
  clean : ∀ c, protectedCredential credential = some c → ∀ channel, ¬ Contains c (emittedOn channel log)
  calls : ∀ id, OrderedCall (marksOf id log)
  accepted : ∃ accepted, accepted <+: events ∧ WithinEventLimits accepted ∧
    (∀ channel, ∃ rest, emittedOn channel log ++ rest = sentOn channel accepted) ∧
    ∀ id, marksOf id log ≠ [] → ∃ name, .toolCallStarted id name ∈ accepted

/-- What a success adds. -/
structure GenerationCompleted (events : List (ProviderEvent ω)) (log : List (ChatEvent υ)) : Prop where
  whole : ∀ channel, emittedOn channel log = sentOn channel events
  calls : ∀ id, marksOf id log ≠ [] → CompletedCall (marksOf id log)
  limits : WithinEventLimits events

/-- The numbers do not run out. -/
theorem ConsistentLog.length_lt (h : ConsistentLog credential events acc) : acc.emitted.length < 2 ^ 64 - 1 := by
  have hevents := h.limits.length_le
  have hmul := Nat.mul_le_mul_right maxEmissions (Nat.add_le_add_right hevents maxGeneratedToolCalls)
  have hbounded := h.bounded
  unfold maxEmissions maxGeneratedToolCalls maxGeneratedProviderEvents maxGeneratedOutputBytes
    maxGeneratedToolArgumentBytes at *
  omega

theorem ConsistentLog.protocol (h : ConsistentLog credential events acc) {all : List (ProviderEvent ω)}
    (hall : events <+: all) : GenerationProtocol credential all acc.text acc.sequence acc.emitted where
  numbered := by
    have hlength := h.length_lt
    rw [h.logged.numbered.sequences]
    refine (List.map_congr_left fun n hn => ?_).trans (List.map_id _)
    rw [List.mem_range'_1] at hn
    exact Nat.min_eq_left (by omega)
  last := by
    have hlength := h.length_lt
    have hpositive := List.length_pos_iff.2 h.logged.started
    rw [← List.getLast?_map, h.logged.numbered.sequences, h.logged.numbered.sequence, List.getLast?_map,
      List.getLast?_range', if_neg (by omega), Option.map_some, show 1 + acc.emitted.length - 1 = acc.emitted.length
        from Nat.add_sub_cancel_left 1 _]
  text := h.logged.text
  beginning := by
    intro channel
    obtain ⟨rest, hrest⟩ := h.beginning channel
    obtain ⟨more, rfl⟩ := hall
    exact ⟨rest ++ sentOn channel more, by rw [← String.append_assoc, hrest, sentOn_append]⟩
  clean := h.clean
  calls := h.calls
  accepted := ⟨events, hall, h.limits, h.beginning, h.requested⟩

theorem Refused.protocol {stop : ChatStop} (h : Refused credential events stop acc)
    {all : List (ProviderEvent ω)} (hall : events <+: all) :
    ∃ error, stop = .failed error ∧ GenerationProtocol credential all acc.text acc.sequence acc.emitted := by
  obtain ⟨⟨error, rfl⟩, accepted, haccepted, hlog⟩ := h
  exact ⟨error, rfl, hlog.protocol (haccepted.trans hall)⟩

theorem accumulated_start (hguard : GuardFor credential guard) :
    Accumulated credential guard ([] : List (ProviderEvent ω)) (.start guard : GenerationAccumulator ω υ) where
  guardFor := hguard
  streamed := {
    guard_eq := rfl
    logged := ⟨⟨rfl, rfl⟩, List.cons_ne_nil _ _, rfl⟩
    bounded := Nat.le_add_right 1 _
    channels := by
      intro channel
      cases channel with
      | _ => exact channel_new hguard }
  calls := {
    openCalls := fun id hid => by simp [GenerationAccumulator.known, GenerationAccumulator.start] at hid
    noCalls := fun _ _ => rfl
    requested := fun id hid => by simp [GenerationAccumulator.known, GenerationAccumulator.start] at hid
    active := fun id => by simp [GenerationAccumulator.start]
    completed := fun id => by simp [GenerationAccumulator.start]
    completedOnce := List.nodup_nil
    apart := fun id hid => by simp [GenerationAccumulator.start] at hid }
  counted := by
    intro budget
    cases budget with
    | _ => rfl
  limits := fun budget => Nat.zero_le _

/-- The end of a success: every channel is whole and every call complete. -/
theorem Flushing.success {start : GenerationAccumulator ω υ}
    (h : Flushing events start start.pendingToolCompletions acc)
    (hstart : Accumulated credential guard events start) (hactive : start.activeToolCalls = ∅) (usage : υ) :
    ConsistentLog credential events (acc.send (.usageUpdated usage)) ∧
      GenerationCompleted events (acc.send (.usageUpdated usage)).emitted := by
  have hemitted : ∀ channel, emittedOn channel (acc.send (.usageUpdated usage)).emitted =
      emittedOn channel acc.emitted := by
    intro channel
    rw [emittedOn_send]
    exact String.append_empty
  have hmarks : ∀ id, marksOf id (acc.send (.usageUpdated usage)).emitted = marksOf id acc.emitted := by
    intro id
    rw [marksOf_send]
    exact List.append_nil _
  have hpending : start.pendingToolCompletions = start.pendingToolCompletions ++ [] := (List.append_nil _).symm
  refine ⟨flushed_consistent hstart ⟨h.logged.numbered.send _, send_ne_nil _, ?_⟩ ?_ ?_ ?_, ?_, ?_, hstart.limits⟩
  · rw [hemitted]
    exact h.logged.text
  · have hbounded := h.bounded
    have hmul := Nat.mul_le_mul_right maxEmissions hstart.completions_le
    rw [length_send]
    omega
  · intro channel
    rw [hemitted]
    exact h.beginning hstart channel
  · intro id
    rw [hmarks]
    exact h.calls hstart.calls hpending id
  · intro channel
    rw [hemitted]
    cases channel with
    | text => exact h.text
    | reasoning => exact h.reasoning
    | arguments id =>
      by_cases hdone : id ∈ start.pendingToolCompletions.map Prod.fst
      · exact (h.finished id hdone).1
      · -- a call that was never started has no arguments
        have hunknown : ¬ start.known id := by
          rw [GenerationAccumulator.known, hactive, hstart.calls.completed]
          simpa using hdone
        have hwhole := (hstart.streamed.channels (.arguments id)).whole
        rw [hstart.calls.stream_of_unknown hunknown] at hwhole
        rw [(h.waiting id hdone).1]
        exact String.append_empty.symm.trans hwhole
  · intro id hid
    rw [hmarks] at hid ⊢
    by_cases hdone : id ∈ start.pendingToolCompletions.map Prod.fst
    · exact (h.finished id hdone).2
    · have hunknown : ¬ start.known id := by
        rw [GenerationAccumulator.known, hactive, hstart.calls.completed]
        simpa using hdone
      rw [(h.waiting id hdone).2, hstart.calls.noCalls id hunknown] at hid
      exact absurd rfl hid

/-- The events that are received are a beginning of the provider's, and all of them before a success. -/
theorem receivedEvents_prefix (events : List (ProviderEvent ω)) (ending : ProviderEnding υ) :
    receivedEvents events ending <+: events := by
  cases ending with
  | cancelledBeforeStart => exact List.nil_prefix
  | _ => exact List.prefix_rfl

/-- Collecting the events. -/
theorem collectProviderEvents_ends (context : GenerationContext ω υ) (hguard : GuardFor credential guard)
    (events : List (ProviderEvent ω)) (ending : ProviderEnding υ) :
    Stateful.Ends (fun result acc => Accumulated credential guard (receivedEvents events ending) acc ∧
        ∀ usage, result = .ok usage → acc.activeToolCalls = ∅ ∧ receivedEvents events ending = events)
      (Refused credential (receivedEvents events ending))
      ((collectProviderEvents context events ending).run (.start guard)) := by
  unfold collectProviderEvents
  rw [Stateful.run_get_bind, Stateful.run_bind]
  have hall := forwardAll_triple context credential guard (receivedEvents events ending) _ (accumulated_start hguard)
  cases hrun : ((receivedEvents events ending).forM (forward context)).run (.start guard) with
  | mk result acc =>
    rw [hrun] at hall
    cases result with
    | error stop => exact hall
    | ok =>
      have hacc : Accumulated credential guard (receivedEvents events ending) acc := hall
      dsimp only
      split
      · exact ⟨hacc, fun usage hok => nomatch hok⟩
      · rename_i usage hresult
        have hevents : receivedEvents events ending = events := by
          cases ending with
          | completed => rfl
          | _ => cases hresult
        unfold ensureProtocolComplete
        rw [bind_assoc, Stateful.run_get_bind, Stateful.run_rejectIf_bind]
        split
        · exact hacc.refused (sameLog_refl acc) List.prefix_rfl _
        · rename_i hactive
          rw [not_not] at hactive
          exact ⟨hacc, fun _ _ => ⟨hactive, hevents⟩⟩

/-- The end of the run. -/
theorem finishGeneration_ends (context : GenerationContext ω υ) (h : Accumulated credential guard events acc)
    (result : Except CoreError υ) (hactive : ∀ usage, result = .ok usage → acc.activeToolCalls = ∅) :
    Stateful.Ends (fun usage acc => ConsistentLog credential events acc ∧ GenerationCompleted events acc.emitted ∧
        result = .ok usage) (Refused credential events) ((finishGeneration context result).run acc) := by
  cases result with
  | error error => exact h.refused (sameLog_refl acc) List.prefix_rfl error
  | ok usage =>
    unfold finishGeneration
    rw [Stateful.run_get_bind, Stateful.run_rejectIf_bind]
    split
    · exact h.refused (sameLog_refl acc) List.prefix_rfl _
    · have hflush := finishPublicStreams_ends h (hactive usage rfl)
      rw [Stateful.run_bind]
      cases hrun : finishPublicStreams.run acc with
      | mk result acc' =>
        rw [hrun] at hflush
        cases result with
        | error stop => exact hflush
        | ok =>
          obtain ⟨hlog, hcompleted⟩ := Flushing.success hflush h (hactive usage rfl) usage
          exact ⟨hlog, hcompleted, rfl⟩

/-- The run after the first event. -/
theorem runEvents_ends (context : GenerationContext ω υ) (hguard : GuardFor credential guard)
    (events : List (ProviderEvent ω)) (ending : ProviderEnding υ) :
    Stateful.Ends
      (fun _ acc => GenerationProtocol credential events acc.text acc.sequence acc.emitted ∧
        GenerationCompleted events acc.emitted)
      (fun stop acc => ∃ error, stop = .failed error ∧
        GenerationProtocol credential events acc.text acc.sequence acc.emitted)
      ((collectProviderEvents context events ending >>= finishGeneration context).run (.start guard)) := by
  have hreceived := receivedEvents_prefix events ending
  have hcollect := collectProviderEvents_ends context hguard events ending
  rw [Stateful.run_bind]
  cases hrun : (collectProviderEvents context events ending).run (.start guard) with
  | mk collected acc =>
    rw [hrun] at hcollect
    cases collected with
    | error stop => exact Refused.protocol hcollect hreceived
    | ok result =>
      obtain ⟨hacc, hsuccess⟩ := hcollect
      have hfinish := finishGeneration_ends context hacc result fun usage hok => (hsuccess usage hok).1
      dsimp only
      cases hrun' : (finishGeneration context result).run acc with
      | mk finished acc' =>
        rw [hrun'] at hfinish
        cases finished with
        | error stop => exact Refused.protocol hfinish hreceived
        | ok usage =>
          obtain ⟨hlog, hcompleted, hresult⟩ := hfinish
          rw [(hsuccess usage hresult).2] at hcompleted
          exact ⟨hlog.protocol hreceived, hcompleted⟩

/-- Before the first event the request or the credential was refused. -/
def RejectedBeforeStart (context : GenerationContext ω υ) (credential : Option String)
    (failure : GenerationFailure) (log : List (ChatEvent υ)) : Prop :=
  (validateBorrowedCredential credential = .error failure.error ∨
      context.validateGenerationRequest = .error failure.error) ∧
    failure.partialText = "" ∧ failure.lastSequence = 1 ∧ log = []

/-- The stream protocol of a generation. -/
theorem runGeneration_protocol (context : GenerationContext ω υ) (credential : Option String)
    (events : List (ProviderEvent ω)) (ending : ProviderEnding υ) :
    match runGeneration context credential events ending with
    | (.finished outcome, log) =>
      GenerationProtocol credential events outcome.text outcome.lastSequence log ∧ GenerationCompleted events log
    | (.failed failure, log) => RejectedBeforeStart context credential failure log ∨
      (validateBorrowedCredential credential = .ok () ∧ context.validateGenerationRequest = .ok () ∧
        GenerationProtocol credential events failure.partialText failure.lastSequence log)
    | (.panicked, _) => False := by
  unfold runGeneration
  cases hcredential : validateBorrowedCredential credential with
  | error error => exact .inl ⟨.inl hcredential, rfl, rfl, rfl⟩
  | ok =>
    obtain ⟨guard, hnew, hguard⟩ := guard_new_ok credential
    dsimp only
    rw [hnew]
    dsimp only
    cases hrequest : context.validateGenerationRequest with
    | error error => exact .inl ⟨.inr hrequest, rfl, rfl, rfl⟩
    | ok =>
      dsimp only
      have hends := runEvents_ends context hguard events ending
      cases hrun : (collectProviderEvents context events ending >>= finishGeneration context).run (.start guard) with
      | mk result acc =>
        rw [hrun] at hends
        cases result with
        | ok usage => exact hends
        | error stop =>
          obtain ⟨error, rfl, hprotocol⟩ := hends
          exact .inr ⟨rfl, rfl, hprotocol⟩

/-- A credential that is too long is refused. -/
theorem runGeneration_of_long (context : GenerationContext ω υ) {credential : String}
    (h : credential.utf8ByteSize > maxBorrowedCredentialBytes) (events : List (ProviderEvent ω))
    (ending : ProviderEnding υ) : runGeneration context (some credential) events ending =
      (.failed ⟨.invalid "provider credential exceeds the 16384-byte safety limit", "", 1⟩, []) := by
  have hrefused : validateBorrowedCredential (some credential) =
      .error (.invalid "provider credential exceeds the 16384-byte safety limit") := if_pos (decide_eq_true h)
  unfold runGeneration
  rw [hrefused]

end

/-- A context that accepts every request. -/
def acceptingContext : GenerationContext Unit Unit where
  validateGenerationRequest := .ok ()
  preserveOpaqueReasoningState := false
  opaqueStateContainsExact := fun _ _ => false
  opaqueStateFamilyMatches := fun _ => true
  validateOpaqueReasoningStates := fun _ => .ok ()
  usageContainsExact := fun _ _ => false

theorem utf8ByteSize_replicate (n : Nat) : (String.ofList (List.replicate n 'k')).utf8ByteSize = n := by
  rw [← String.utf8Len_toList, String.toList_ofList]
  induction n with
  | zero => rfl
  | succ n ih =>
    rw [List.replicate_succ, String.utf8Len_cons, ih]
    rfl

/-- A credential that is too long is refused before the first event, which the failure still counts; the empty
credential is emitted. -/
theorem runGeneration_oversizedCredential :
    (∃ failure, runGeneration acceptingContext (some (String.ofList (List.replicate 16385 'k'))) [] (.completed ()) =
        (.failed failure, []) ∧ failure.lastSequence = 1) ∧
      ∃ outcome log, runGeneration acceptingContext (some "") [.textDelta "hi"] (.completed ()) =
        (.finished outcome, log) ∧ Contains "" (emittedOn .text log) := by
  constructor
  · have hlong : (String.ofList (List.replicate 16385 'k')).utf8ByteSize > maxBorrowedCredentialBytes := by
      rw [utf8ByteSize_replicate]
      decide
    exact ⟨_, runGeneration_of_long acceptingContext hlong [] (.completed ()), rfl⟩
  · exact ⟨_, _, rfl, List.nil_infix⟩

end LorePia
