import LorePia.Providers.AnthropicMessages
import LorePia.Providers.Proof.ToolCalls

/-!
# The Anthropic Messages stream

What is told of the events alone is `Disciplined`: an event is looked at together with the events before it.
What the state knows is `Coherent`: the completed blocks stand under the indices from 0, at most one block is
open under the next index, and what was sent tells these blocks (`Logged`). Both are kept by every accepted
event, so they hold up to the completion, where the topology is emitted.
-/

namespace LorePia.Anthropic

open Base

variable {codec : Codec} {preserve : Bool}

abbrev Event := ProviderEvent OpaqueReasoningState

/-! ## The events of a stream -/

/-- The indices of the blocks that are started, in order. -/
def startedIndices (events : List StreamEvent) : List Nat :=
  events.filterMap fun
    | .contentBlockStart index _ => some index
    | _ => none

/-- The indices of the blocks that are stopped, in order. -/
def stoppedIndices (events : List StreamEvent) : List Nat :=
  events.filterMap fun
    | .contentBlockStop index => some index
    | _ => none

/-- The tool call of a block that is started. -/
def ContentBlock.tool : ContentBlock → List (String × String)
  | .toolUse id name _ => [(id, name)]
  | _ => []

/-- The identifiers and the names of the tool blocks that are started, in order. -/
def startedTools (events : List StreamEvent) : List (String × String) :=
  events.flatMap fun
    | .contentBlockStart _ block => block.tool
    | _ => []

/-- A `message_delta` has ended the content. -/
def Ended (events : List StreamEvent) : Prop := ∃ usage, .messageDelta usage ∈ events

/-- The event may come after the others: blocks are started one at a time under the next index, content belongs
to the open block, and nothing is open at the end of the content, after which no content comes. -/
def Allowed (before : List StreamEvent) : StreamEvent → Prop
  | .contentBlockStart index _ => startedIndices before = stoppedIndices before ∧
      index = (startedIndices before).length ∧ ¬ Ended before
  | .contentBlockDelta index _ | .contentBlockStop index =>
    startedIndices before = stoppedIndices before ++ [index] ∧ ¬ Ended before
  | .messageDelta _ => startedIndices before = stoppedIndices before
  | .messageStop => startedIndices before = stoppedIndices before ∧ Ended before
  | .error _ => False
  | _ => True

/-- Every event comes when it may. -/
def Disciplined (events : List StreamEvent) : Prop :=
  ∀ before event after, events = before ++ event :: after → Allowed before event

theorem startedIndices_append (events more : List StreamEvent) :
    startedIndices (events ++ more) = startedIndices events ++ startedIndices more := List.filterMap_append ..

theorem stoppedIndices_append (events more : List StreamEvent) :
    stoppedIndices (events ++ more) = stoppedIndices events ++ stoppedIndices more := List.filterMap_append ..

theorem startedTools_append (events more : List StreamEvent) :
    startedTools (events ++ more) = startedTools events ++ startedTools more := List.flatMap_append

theorem ended_concat {events : List StreamEvent} {event : StreamEvent} :
    Ended (events ++ [event]) ↔ Ended events ∨ ∃ usage, event = .messageDelta usage := by
  simp only [Ended, List.mem_append, List.mem_singleton, exists_or, eq_comm]

theorem Disciplined.concat {events : List StreamEvent} (h : Disciplined events) {event : StreamEvent}
    (hevent : Allowed events event) : Disciplined (events ++ [event]) := by
  intro before event' after heq
  cases after using List.reverseRecOn with
  | nil =>
    obtain ⟨rfl, hlast⟩ := List.append_inj' heq rfl
    cases hlast
    exact hevent
  | append_singleton after last =>
    refine h before event' after ?_
    rw [← List.cons_append, ← List.append_assoc] at heq
    exact (List.append_inj' heq rfl).1

/-! ## What is sent -/

/-- The text of the open block. -/
def openText : Option ActiveContentBlock → String
  | some (.text text) => text
  | _ => ""

/-- The tool call of the open block. -/
def openTool : Option ActiveContentBlock → List (String × String)
  | some (.toolUse id name _) => [(id, name)]
  | _ => []

/-- The identifier, the name and the input of a tool block. -/
def AnthropicContentBlock.toolUse? : AnthropicContentBlock → Option (String × String × Json)
  | .toolUse id name input => some (id, name, input)
  | _ => none

/-- The tool blocks, in order. -/
def toolUses (blocks : List AnthropicContentBlock) : List (String × String × Json) := blocks.filterMap (·.toolUse?)

/-- The identifiers and the names of the tool blocks. -/
def toolNames (blocks : List AnthropicContentBlock) : List (String × String) :=
  (toolUses blocks).map fun tool => (tool.1, tool.2.1)

/-- The record of a completed call tells the tool block: the pieces of its arguments are the text of its input. -/
structure Tells (codec : Codec) (tool : String × String × Json) (call : CallRecord) : Prop where
  id : call.id = tool.1
  name : call.name = tool.2.1
  completed : call.completed = true
  input : codec.parseJson (if String.join call.deltas = "" then "\x7b\x7d" else String.join call.deltas) = some tool.2.2

/-- The record of the open call, if a tool block is open. -/
inductive OpenCall : Option ActiveContentBlock → List CallRecord → Prop
  | quiet (opened : Option ActiveContentBlock) : (∀ id name inputJson, opened ≠ some (.toolUse id name inputJson)) →
      OpenCall opened []
  | toolUse (id name : String) (deltas : List String) :
      OpenCall (some (.toolUse id name (String.join deltas))) [⟨id, name, deltas, false⟩]

/-- The opaque states among the events. -/
def opaqueStates (events : List Event) : List OpaqueReasoningState :=
  events.filterMap fun
    | .opaqueReasoningState state => some state
    | _ => none

/-- What was sent tells the completed blocks and the open one. -/
structure Logged (codec : Codec) (blocks : List AnthropicContentBlock) (opened : Option ActiveContentBlock)
    (ids : Finset String) (sent : List Event) : Prop where
  text : sentOn .text sent = flattenedText blocks ++ openText opened
  calls : ∃ done current, ledger sent = some (done ++ current) ∧ List.Forall₂ (Tells codec) (toolUses blocks) done ∧
    OpenCall opened current ∧ ∀ call ∈ done ++ current, call.id ∈ ids
  plain : opaqueStates sent = []

theorem flattenedText_concat (blocks : List AnthropicContentBlock) (block : AnthropicContentBlock) :
    flattenedText (blocks ++ [block]) = flattenedText blocks ++ block.visibleText.getD "" := by
  have hlast : String.join ([block].filterMap (·.visibleText)) = block.visibleText.getD "" := by
    cases hblock : block.visibleText <;> simp [hblock]
  rw [flattenedText, List.filterMap_append, String.join_append, hlast, ← flattenedText]

theorem toolUses_concat (blocks : List AnthropicContentBlock) (block : AnthropicContentBlock) :
    toolUses (blocks ++ [block]) = toolUses blocks ++ block.toolUse?.toList := by
  rw [toolUses, List.filterMap_append, ← toolUses]
  cases hblock : block.toolUse? <;> simp [hblock]

theorem opaqueStates_append (events more : List Event) :
    opaqueStates (events ++ more) = opaqueStates events ++ opaqueStates more := List.filterMap_append ..

/-- A block that starts, with what is sent of it. -/
inductive Opens (ids : Finset String) : ActiveContentBlock → Finset String → List Event → Prop
  | quiet (active : ActiveContentBlock) : openText (some active) = "" →
      (∀ id name inputJson, active ≠ .toolUse id name inputJson) → Opens ids active ids []
  | toolUse (id name : String) : id ∉ ids → Opens ids (.toolUse id name "") (insert id ids) [.toolCallStarted id name]

section
variable {blocks : List AnthropicContentBlock} {ids : Finset String} {sent : List Event}

theorem Logged.opens (h : Logged codec blocks none ids sent) {active : ActiveContentBlock} {ids' : Finset String}
    {events : List Event} (hopens : Opens ids active ids' events) :
    Logged codec blocks (some active) ids' (sent ++ events) := by
  obtain ⟨done, current, hledger, hdone, hcurrent, hids⟩ := h.calls
  cases hopens with
  | quiet _ htext hquiet =>
    rw [List.append_nil]
    refine ⟨h.text.trans ?_, ⟨done, current, hledger, hdone, ?_, hids⟩, h.plain⟩
    · rw [htext]
      rfl
    · cases hcurrent
      exact .quiet _ fun id name inputJson heq => hquiet id name inputJson (Option.some.inj heq)
  | toolUse id name hnew =>
    cases hcurrent
    rw [List.append_nil] at hledger hids
    have hfresh : ¬ ∃ call ∈ done, call.id = id := by
      rintro ⟨call, hcall, heq⟩
      exact hnew (heq ▸ hids call hcall)
    refine ⟨?_, ⟨done, [⟨id, name, [], false⟩], ?_, hdone, .toolUse id name [], ?_⟩, ?_⟩
    · rw [sentOn_concat, h.text]
      exact String.append_empty
    · rw [ledger_concat_eq_some]
      exact ⟨done, hledger, if_neg hfresh⟩
    · intro call hcall
      rcases List.mem_append.1 hcall with hcall | hcall
      · exact Finset.mem_insert_of_mem (hids call hcall)
      · rw [List.mem_singleton.1 hcall]
        exact Finset.mem_insert_self id ids
    · rw [opaqueStates_append, h.plain]
      rfl

/-- What is sent of the open call extends its record. -/
theorem ledger_current {done : List CallRecord} {call : CallRecord} (event : Event) (change : CallRecord → CallRecord)
    (h : ledger sent = some (done ++ [call])) (hopen : call.completed = false)
    (hevent : ∀ calls, takeCall calls event = changeOpen call.id change calls) :
    ledger (sent ++ [event]) = some (done ++ [change call]) := by
  rw [ledger_concat_eq_some]
  exact ⟨_, h, (hevent _).trans (changeOpen_last change (ledger_accounted h).distinct hopen)⟩

/-- An event that is not about a call. -/
theorem ledger_other {calls : List CallRecord} (h : ledger sent = some calls) {event : Event}
    (hevent : ∀ calls, takeCall calls event = some calls) : ledger (sent ++ [event]) = some calls := by
  rw [ledger_concat_eq_some]
  exact ⟨_, h, hevent _⟩

theorem appendBlockText_eq_ok {target fragment appended : String} (h : appendBlockText target fragment = .ok appended) :
    appended = target ++ fragment := by
  obtain ⟨bytes, -, h⟩ := bind_eq_ok.1 h
  obtain ⟨chars, -, h⟩ := bind_eq_ok.1 h
  obtain ⟨-, h⟩ := seq_eq_ok.1 h
  cases h
  rfl

theorem appendWithin_eq_ok {message target fragment appended : String}
    (h : appendWithin message target fragment = .ok appended) : appended = target ++ fragment := by
  obtain ⟨length, -, h⟩ := bind_eq_ok.1 h
  cases h
  rfl

/-- The pieces of the open block that are not told as tool calls. -/
theorem Logged.piece {active : ActiveContentBlock} (h : Logged codec blocks (some active) ids sent)
    {active' : ActiveContentBlock} {event : Option Event}
    (hquiet : ∀ id name inputJson, active ≠ .toolUse id name inputJson)
    (hquiet' : ∀ id name inputJson, active' ≠ .toolUse id name inputJson)
    (hevent : ∀ calls, ∀ e ∈ event, takeCall calls e = some calls) (hplain : opaqueStates event.toList = [])
    (htext : openText (some active') = openText (some active) ++ sentOn .text event.toList) :
    Logged codec blocks (some active') ids (sent ++ event.toList) := by
  obtain ⟨done, current, hledger, hdone, hcurrent, hids⟩ := h.calls
  have hnone : current = [] := by
    cases hcurrent with
    | quiet => rfl
    | toolUse id name deltas => exact (hquiet _ _ _ rfl).elim
  subst hnone
  refine ⟨?_, ⟨done, [], ?_, hdone, .quiet _ fun id name inputJson heq => ?_, hids⟩, ?_⟩
  · rw [sentOn_append, h.text, htext, String.append_assoc]
  · cases event with
    | none => rwa [Option.toList_none, List.append_nil]
    | some event => exact ledger_other hledger fun calls => hevent calls event rfl
  · exact hquiet' id name inputJson (Option.some.inj heq)
  · rw [opaqueStates_append, h.plain, hplain]
    rfl

/-- A piece of the arguments of the open tool block. -/
theorem Logged.arguments {id name accumulated : String}
    (h : Logged codec blocks (some (.toolUse id name accumulated)) ids sent) (partialJson : String) :
    Logged codec blocks (some (.toolUse id name (accumulated ++ partialJson))) ids
      (sent ++ (nonEmptyEvent partialJson (.toolCallArgumentsDelta id partialJson)).toList) := by
  obtain ⟨done, current, hledger, hdone, hcurrent, hids⟩ := h.calls
  cases hcurrent with
  | quiet _ hquiet => exact (hquiet _ _ _ rfl).elim
  | toolUse _ _ deltas =>
    have hid : id ∈ ids := hids ⟨id, name, deltas, false⟩ (List.mem_append_right _ (List.mem_singleton_self _))
    unfold nonEmptyEvent
    split
    · rename_i hempty
      rw [hempty, String.append_empty, Option.toList_none, List.append_nil]
      exact h
    · have hjoin : String.join deltas ++ partialJson = String.join (deltas ++ [partialJson]) := by simp
      rw [hjoin]
      refine ⟨?_, ⟨done, [⟨id, name, deltas ++ [partialJson], false⟩], ?_, hdone, .toolUse id name _, ?_⟩, ?_⟩
      · rw [Option.toList_some, sentOn_concat, h.text]
        exact String.append_empty
      · exact ledger_current _ (·.addDelta partialJson) hledger rfl fun _ => rfl
      · intro call hcall
        rcases List.mem_append.1 hcall with hcall | hcall
        · exact hids call (List.mem_append_left _ hcall)
        · rw [List.mem_singleton.1 hcall]
          exact hid
      · rw [opaqueStates_append, h.plain]
        rfl

/-- A block without a tool call that stops. -/
theorem Logged.passive {active : ActiveContentBlock} (h : Logged codec blocks (some active) ids sent)
    {block : AnthropicContentBlock} (hquiet : ∀ id name inputJson, active ≠ .toolUse id name inputJson)
    (htool : block.toolUse? = none) (htext : block.visibleText.getD "" = openText (some active)) :
    Logged codec (blocks ++ [block]) none ids (sent ++ []) := by
  obtain ⟨done, current, hledger, hdone, hcurrent, hids⟩ := h.calls
  have hnone : current = [] := by
    cases hcurrent with
    | quiet => rfl
    | toolUse id name deltas => exact (hquiet _ _ _ rfl).elim
  subst hnone
  rw [List.append_nil]
  refine ⟨?_, ⟨done, [], hledger, ?_, .quiet none nofun, hids⟩, h.plain⟩
  · rw [h.text, flattenedText_concat, htext]
    exact String.append_empty.symm
  · rw [toolUses_concat, htool, Option.toList_none, List.append_nil]
    exact hdone

/-- The tool block that stops. -/
theorem Logged.completeToolUse {id name inputJson : String}
    (h : Logged codec blocks (some (.toolUse id name inputJson)) ids sent) {input : Json}
    (hinput : completeToolInput codec inputJson = .ok input) :
    Logged codec (blocks ++ [AnthropicContentBlock.toolUse id name input]) none ids
      (sent ++ [ProviderEvent.toolCallCompleted id]) := by
  obtain ⟨done, current, hledger, hdone, hcurrent, hids⟩ := h.calls
  cases hcurrent with
  | quiet _ hquiet => exact (hquiet _ _ _ rfl).elim
  | toolUse _ _ deltas =>
    have hid : id ∈ ids := hids ⟨id, name, deltas, false⟩ (List.mem_append_right _ (List.mem_singleton_self _))
    obtain ⟨parsed, hparse, hinput⟩ := bind_eq_ok.1 hinput
    obtain ⟨-, hinput⟩ := seq_eq_ok.1 hinput
    cases hinput
    have hcompleted := ledger_current (.toolCallCompleted id) (·.complete) hledger rfl fun _ => rfl
    refine ⟨?_, ⟨done ++ [⟨id, name, deltas, true⟩], [], ?_, ?_, .quiet none nofun, ?_⟩, ?_⟩
    · rw [sentOn_concat, h.text, flattenedText_concat]
      rfl
    · rw [List.append_nil]
      exact hcompleted
    · rw [toolUses_concat]
      exact List.rel_append hdone (.cons ⟨rfl, rfl, rfl, okOr_eq_ok.1 hparse⟩ .nil)
    · intro call hcall
      rw [List.append_nil] at hcall
      rcases List.mem_append.1 hcall with hcall | hcall
      · exact hids call (List.mem_append_left _ hcall)
      · rw [List.mem_singleton.1 hcall]
        exact hid
    · rw [opaqueStates_append, h.plain]
      rfl

theorem mem_nonEmptyEvent {piece : String} {event e : Event} (h : e ∈ nonEmptyEvent piece event) : e = event := by
  unfold nonEmptyEvent at h
  split at h
  · cases h
  · exact (Option.some.inj h).symm

theorem opaqueStates_nonEmptyEvent (piece : String) {event : Event} (hevent : opaqueStates [event] = []) :
    opaqueStates (nonEmptyEvent piece event).toList = [] := by
  unfold nonEmptyEvent
  split
  · rfl
  · exact hevent

theorem sentOn_nonEmptyEvent (piece : String) :
    sentOn .text (nonEmptyEvent piece (.textDelta piece)).toList = piece := by
  unfold nonEmptyEvent
  split
  · rename_i hempty
    rw [hempty]
    rfl
  · exact String.append_empty

theorem Logged.delta {active : ActiveContentBlock} (h : Logged codec blocks (some active) ids sent)
    {delta : ContentDelta} {applied : ActiveContentBlock × Option Event} (hdelta : applyDelta active delta = .ok applied) :
    Logged codec blocks (some applied.1) ids (sent ++ applied.2.toList) := by
  unfold applyDelta at hdelta
  split at hdelta
  · rename_i accumulated text
    obtain ⟨appended, happended, hdelta⟩ := bind_eq_ok.1 hdelta
    cases hdelta
    refine h.piece nofun nofun (fun calls e he => ?_) (opaqueStates_nonEmptyEvent text rfl) ?_
    · rw [mem_nonEmptyEvent he]
      rfl
    · rw [sentOn_nonEmptyEvent]
      exact appendBlockText_eq_ok happended
  · rename_i accumulated signature signatureSeen thinking
    obtain ⟨-, hdelta⟩ := seq_eq_ok.1 hdelta
    obtain ⟨appended, happended, hdelta⟩ := bind_eq_ok.1 hdelta
    cases hdelta
    refine h.piece nofun nofun (fun calls e he => ?_) (opaqueStates_nonEmptyEvent thinking rfl) ?_
    · rw [mem_nonEmptyEvent he]
      rfl
    · show "" = "" ++ sentOn .text (nonEmptyEvent thinking (.reasoningDelta thinking)).toList
      unfold nonEmptyEvent
      split <;> rfl
  · obtain ⟨-, hdelta⟩ := seq_eq_ok.1 hdelta
    obtain ⟨appended, happended, hdelta⟩ := bind_eq_ok.1 hdelta
    cases hdelta
    exact h.piece nofun nofun nofun rfl rfl
  · rename_i id name accumulated partialJson
    obtain ⟨appended, happended, hdelta⟩ := bind_eq_ok.1 hdelta
    obtain ⟨-, hdelta⟩ := seq_eq_ok.1 hdelta
    cases hdelta
    obtain rfl := appendWithin_eq_ok happended
    exact h.arguments partialJson
  · cases hdelta
  · cases hdelta

/-- A block that stops. -/
theorem Logged.complete {active : ActiveContentBlock} (h : Logged codec blocks (some active) ids sent)
    {completed : AnthropicContentBlock × Option String} (hcomplete : completeBlock codec active = .ok completed) :
    Logged codec (blocks ++ [completed.1]) none ids (sent ++ (completed.2.map .toolCallCompleted).toList) := by
  cases active with
  | text text =>
    obtain ⟨-, hcomplete⟩ := seq_eq_ok.1 hcomplete
    cases hcomplete
    refine h.passive nofun rfl ?_
    rfl
  | thinking thinking signature signatureSeen =>
    obtain ⟨-, hcomplete⟩ := seq_eq_ok.1 hcomplete
    obtain ⟨-, hcomplete⟩ := seq_eq_ok.1 hcomplete
    cases hcomplete
    exact h.passive nofun rfl rfl
  | redactedThinking data =>
    cases hcomplete
    exact h.passive nofun rfl rfl
  | toolUse id name inputJson =>
    obtain ⟨input, hinput, hcomplete⟩ := bind_eq_ok.1 hcomplete
    cases hcomplete
    exact h.completeToolUse hinput

end

/-- A delta keeps the tool call of the open block. -/
theorem openTool_applyDelta {active : ActiveContentBlock} {delta : ContentDelta}
    {applied : ActiveContentBlock × Option Event} (h : applyDelta active delta = .ok applied) :
    openTool (some applied.1) = openTool (some active) := by
  unfold applyDelta at h
  split at h
  · obtain ⟨_, -, h⟩ := bind_eq_ok.1 h
    cases h
    rfl
  · obtain ⟨-, h⟩ := seq_eq_ok.1 h
    obtain ⟨_, -, h⟩ := bind_eq_ok.1 h
    cases h
    rfl
  · obtain ⟨-, h⟩ := seq_eq_ok.1 h
    obtain ⟨_, -, h⟩ := bind_eq_ok.1 h
    cases h
    rfl
  · obtain ⟨_, -, h⟩ := bind_eq_ok.1 h
    obtain ⟨-, h⟩ := seq_eq_ok.1 h
    cases h
    rfl
  · cases h
  · cases h

theorem toolNames_concat (blocks : List AnthropicContentBlock) (block : AnthropicContentBlock) :
    toolNames (blocks ++ [block]) = toolNames blocks ++ toolNames [block] := by
  rw [toolNames, toolUses, List.filterMap_append, List.map_append]
  rfl

/-- A block that stops keeps its tool call. -/
theorem toolNames_completeBlock {active : ActiveContentBlock} {completed : AnthropicContentBlock × Option String}
    (h : completeBlock codec active = .ok completed) : toolNames [completed.1] = openTool (some active) := by
  cases active with
  | text text =>
    obtain ⟨-, h⟩ := seq_eq_ok.1 h
    cases h
    rfl
  | thinking thinking signature signatureSeen =>
    obtain ⟨-, h⟩ := seq_eq_ok.1 h
    obtain ⟨-, h⟩ := seq_eq_ok.1 h
    cases h
    rfl
  | redactedThinking data =>
    cases h
    rfl
  | toolUse id name inputJson =>
    obtain ⟨input, -, h⟩ := bind_eq_ok.1 h
    cases h
    rfl

/-! ## What the steps do -/

section
variable {s s' : StreamState} {u : Unit}

theorem mergeUsage_eq_ok {source : Option StreamUsage} (h : (mergeUsage source).run s = (.ok u, s')) :
    ∃ usage, updateUsage source s.usage = .ok usage ∧ s' = { s with usage } := by
  unfold mergeUsage at h
  rw [Stateful.run_get_bind] at h
  obtain ⟨usage, t, hlift, hmodify⟩ := Stateful.run_bind_eq_ok.1 h
  obtain ⟨husage, rfl⟩ := Stateful.run_lift_eq_ok.1 hlift
  cases hmodify
  exact ⟨usage, husage, rfl⟩

theorem startMessage_eq_ok {message : MessageStart} (h : (startMessage message).run s = (.ok u, s')) :
    ∃ usage, updateUsage message.usage s.usage = .ok usage ∧ s' = { s with started := true, usage } := by
  unfold startMessage at h
  rw [Stateful.run_get_bind, Stateful.run_rejectIf_bind] at h
  split at h
  · cases h
  rw [Stateful.run_rejectIf_bind] at h
  split at h
  · cases h
  rw [Stateful.run_modify_bind] at h
  exact mergeUsage_eq_ok h

theorem whenStarted_eq_ok {step : Process Unit} (h : (whenStarted step).run s = (.ok u, s')) :
    step.run s = (.ok u, s') := by
  unfold whenStarted at h
  rw [Stateful.run_get_bind] at h
  obtain ⟨_, t, hlift, hstep⟩ := Stateful.run_bind_eq_ok.1 h
  obtain ⟨-, rfl⟩ := Stateful.run_lift_eq_ok.1 hlift
  exact hstep

theorem ensureNoActiveBlocks_eq_ok (h : ensureNoActiveBlocks s = .ok u) : s.activeBlocks.entries = [] :=
  not_not.1 (rejectIf_eq_ok.1 h)

theorem endContent_eq_ok {source : Option StreamUsage} (h : (endContent source).run s = (.ok u, s')) :
    s.activeBlocks.entries = [] ∧
      ∃ usage, updateUsage source s.usage = .ok usage ∧ s' = { s with messageDeltaSeen := true, usage } := by
  unfold endContent at h
  rw [Stateful.run_get_bind] at h
  obtain ⟨_, t, hlift, hrest⟩ := Stateful.run_bind_eq_ok.1 h
  obtain ⟨hnone, rfl⟩ := Stateful.run_lift_eq_ok.1 hlift
  rw [Stateful.run_modify_bind] at hrest
  exact ⟨ensureNoActiveBlocks_eq_ok hnone, mergeUsage_eq_ok hrest⟩

theorem run_sendOption (event : Option Event) (s : StreamState) :
    (sendOption event).run s = (.ok (), { s with sent := s.sent ++ event.toList }) := by
  cases event with
  | none =>
    rw [Option.toList_none, List.append_nil]
    rfl
  | some event => rfl

theorem registerContentBlockIndex_eq_ok {index : Nat} (h : (registerContentBlockIndex index).run s = (.ok u, s')) :
    s.messageDeltaSeen = false ∧ s.activeBlocks.entries = [] ∧ index = s.seenBlocks.card ∧
      s' = { s with seenBlocks := insert index s.seenBlocks } := by
  unfold registerContentBlockIndex at h
  rw [Stateful.run_get_bind, Stateful.run_rejectIf_bind] at h
  split at h
  · cases h
  rename_i hdelta
  rw [Stateful.run_rejectIf_bind] at h
  split at h
  · cases h
  rename_i hactive
  rw [Stateful.run_rejectIf_bind] at h
  split at h
  · cases h
  obtain ⟨expected, t, hlift, hrest⟩ := Stateful.run_bind_eq_ok.1 h
  obtain ⟨hexpected, rfl⟩ := Stateful.run_lift_eq_ok.1 hlift
  rw [Stateful.run_rejectIf_bind] at hrest
  split at hrest
  · cases hrest
  rename_i hindex
  cases hrest
  have hcard := u32TryFrom_eq_some.1 (okOr_eq_ok.1 hexpected)
  refine ⟨Bool.not_eq_true _ ▸ hdelta, not_not.1 hactive, ?_, rfl⟩
  rw [← hcard]
  exact not_not.1 fun hne => hindex (.inl hne)

theorem openToolUse_eq_ok {id name : String} {input : Json} {active : ActiveContentBlock}
    (h : (openToolUse id name input).run s = (.ok active, s')) : [(id, name)] = openTool (some active) ∧
      ∃ ids events, Opens s.toolCallIds active ids events ∧
        s' = { s with toolCallIds := ids, sent := s.sent ++ events } := by
  unfold openToolUse at h
  rw [Stateful.run_rejectIf_bind] at h
  split at h
  · cases h
  obtain ⟨_, t, hlift, hrest⟩ := Stateful.run_bind_eq_ok.1 h
  obtain ⟨-, rfl⟩ := Stateful.run_lift_eq_ok.1 hlift
  rw [Stateful.run_get_bind, Stateful.run_rejectIf_bind] at hrest
  split at hrest
  · cases hrest
  rename_i hnew
  rw [Stateful.run_modify_bind] at hrest
  obtain ⟨_, t', hlift', hsend⟩ := Stateful.run_bind_eq_ok.1 hrest
  obtain ⟨-, rfl⟩ := Stateful.run_lift_eq_ok.1 hlift'
  cases hsend
  exact ⟨rfl, _, _, .toolUse id name hnew, rfl⟩

theorem openContentBlock_eq_ok {block : ContentBlock} {active : ActiveContentBlock}
    (h : (openContentBlock block).run s = (.ok active, s')) : block.tool = openTool (some active) ∧
      ∃ ids events, Opens s.toolCallIds active ids events ∧
        s' = { s with toolCallIds := ids, sent := s.sent ++ events } := by
  have hquiet : ∀ {active : ActiveContentBlock}, block.tool = openTool (some active) → openText (some active) = "" →
      (∀ id name inputJson, active ≠ .toolUse id name inputJson) → block.tool = openTool (some active) ∧
      ∃ ids events, Opens s.toolCallIds active ids events ∧
        s = { s with toolCallIds := ids, sent := s.sent ++ events } := by
    intro active htool htext hactive
    refine ⟨htool, _, _, .quiet active htext hactive, ?_⟩
    rw [List.append_nil]
  cases block with
  | text text =>
    unfold openContentBlock at h
    rw [Stateful.run_rejectIf_bind] at h
    split at h
    · cases h
    rename_i hempty
    obtain ⟨_, t, hlift, hpure⟩ := Stateful.run_bind_eq_ok.1 h
    obtain ⟨-, rfl⟩ := Stateful.run_lift_eq_ok.1 hlift
    cases hpure
    exact hquiet rfl (not_not.1 hempty) nofun
  | thinking thinking signature =>
    unfold openContentBlock at h
    rw [Stateful.run_get_bind] at h
    obtain ⟨_, t, hlift, hrest⟩ := Stateful.run_bind_eq_ok.1 h
    obtain ⟨-, rfl⟩ := Stateful.run_lift_eq_ok.1 hlift
    rw [Stateful.run_rejectIf_bind] at hrest
    split at hrest
    · cases hrest
    obtain ⟨_, t', hlift', hrest'⟩ := Stateful.run_bind_eq_ok.1 hrest
    obtain ⟨-, rfl⟩ := Stateful.run_lift_eq_ok.1 hlift'
    rw [Stateful.run_rejectIf_bind] at hrest'
    split at hrest'
    · cases hrest'
    cases hrest'
    exact hquiet rfl rfl nofun
  | toolUse id name input => exact openToolUse_eq_ok h
  | redactedThinking data =>
    unfold openContentBlock at h
    rw [Stateful.run_get_bind] at h
    obtain ⟨_, t, hlift, hrest⟩ := Stateful.run_bind_eq_ok.1 h
    obtain ⟨-, rfl⟩ := Stateful.run_lift_eq_ok.1 hlift
    obtain ⟨_, t', hlift', hpure⟩ := Stateful.run_bind_eq_ok.1 hrest
    obtain ⟨-, rfl⟩ := Stateful.run_lift_eq_ok.1 hlift'
    cases hpure
    exact hquiet rfl rfl nofun
  | other => cases h

theorem startContentBlock_eq_ok {index : Nat} {block : ContentBlock}
    (h : (startContentBlock index block).run s = (.ok u, s')) :
    s.messageDeltaSeen = false ∧ s.activeBlocks.entries = [] ∧ index = s.seenBlocks.card ∧
      ∃ active ids events, block.tool = openTool (some active) ∧ Opens s.toolCallIds active ids events ∧
        s' = { s with
          seenBlocks := insert index s.seenBlocks
          activeBlocks := s.activeBlocks.insert index active
          toolCallIds := ids
          sent := s.sent ++ events } := by
  obtain ⟨_, t, hregister, hrest⟩ := Stateful.run_bind_eq_ok.1 h
  obtain ⟨active, t', hopen, hset⟩ := Stateful.run_bind_eq_ok.1 hrest
  obtain ⟨hdelta, hactive, hindex, rfl⟩ := registerContentBlockIndex_eq_ok hregister
  obtain ⟨htool, ids, events, hopens, rfl⟩ := openContentBlock_eq_ok hopen
  cases hset
  exact ⟨hdelta, hactive, hindex, active, ids, events, htool, hopens, rfl⟩

theorem processContentDelta_eq_ok {index : Nat} {delta : ContentDelta}
    (h : (processContentDelta index delta).run s = (.ok u, s')) : ∃ active applied,
      s.activeBlocks.get? index = some active ∧ applyDelta active delta = .ok applied ∧
        s' = { s with
          activeBlocks := s.activeBlocks.insert index applied.1
          sent := s.sent ++ applied.2.toList } := by
  unfold processContentDelta at h
  rw [Stateful.run_get_bind] at h
  obtain ⟨active, t, hlift, hrest⟩ := Stateful.run_bind_eq_ok.1 h
  obtain ⟨hactive, rfl⟩ := Stateful.run_lift_eq_ok.1 hlift
  obtain ⟨applied, t', hlift', hset⟩ := Stateful.run_bind_eq_ok.1 hrest
  obtain ⟨happlied, rfl⟩ := Stateful.run_lift_eq_ok.1 hlift'
  unfold setActive at hset
  rw [Stateful.run_modify_bind, run_sendOption] at hset
  cases hset
  exact ⟨active, applied, okOr_eq_ok.1 hactive, happlied, rfl⟩

theorem finishContentBlock_eq_ok {index : Nat} (h : (finishContentBlock codec index).run s = (.ok u, s')) :
    ∃ active completed, s.activeBlocks.get? index = some active ∧ completeBlock codec active = .ok completed ∧
      s' = { s with
        activeBlocks := s.activeBlocks.erase index
        completedBlocks := s.completedBlocks.insert index completed.1
        sent := s.sent ++ (completed.2.map .toolCallCompleted).toList } := by
  unfold finishContentBlock at h
  rw [Stateful.run_get_bind] at h
  obtain ⟨active, t, hlift, hrest⟩ := Stateful.run_bind_eq_ok.1 h
  obtain ⟨hactive, rfl⟩ := Stateful.run_lift_eq_ok.1 hlift
  rw [Stateful.run_modify_bind] at hrest
  obtain ⟨completed, t', hlift', hrest'⟩ := Stateful.run_bind_eq_ok.1 hrest
  obtain ⟨hcompleted, rfl⟩ := Stateful.run_lift_eq_ok.1 hlift'
  rw [Stateful.run_modify_bind, Stateful.run_rejectIf_bind] at hrest'
  split at hrest'
  · cases hrest'
  rw [run_sendOption] at hrest'
  cases hrest'
  exact ⟨active, completed, okOr_eq_ok.1 hactive, hcompleted, rfl⟩

theorem stopMessage_eq_ok (h : (stopMessage codec preserve).run s = (.ok u, s')) :
    s.activeBlocks.entries = [] ∧ s.messageDeltaSeen = true ∧
      ∃ topology, anthropicTopology codec preserve s.completedBlocks.values = .ok topology ∧
        s' = { s with
          sent := s.sent ++ (topology.map fun topology => .opaqueReasoningState (.anthropicMessages topology)).toList } := by
  unfold stopMessage at h
  rw [Stateful.run_get_bind] at h
  obtain ⟨_, t, hlift, hrest⟩ := Stateful.run_bind_eq_ok.1 h
  obtain ⟨hnone, rfl⟩ := Stateful.run_lift_eq_ok.1 hlift
  rw [Stateful.run_rejectIf_bind] at hrest
  split at hrest
  · cases hrest
  rename_i hdelta
  unfold emitAnthropicTopology at hrest
  rw [Stateful.run_get_bind, Stateful.run_rejectIf_bind] at hrest
  split at hrest
  · cases hrest
  obtain ⟨topology, t', hlift', hsend⟩ := Stateful.run_bind_eq_ok.1 hrest
  obtain ⟨htopology, rfl⟩ := Stateful.run_lift_eq_ok.1 hlift'
  rw [run_sendOption] at hsend
  cases hsend
  exact ⟨ensureNoActiveBlocks_eq_ok hnone, Bool.not_eq_false _ ▸ hdelta, topology, htopology, rfl⟩

end

/-! ## The invariant -/

/-- The open blocks: at most one, under the next index. -/
def activeAt (next : Nat) : Option ActiveContentBlock → OrdMap Nat ActiveContentBlock
  | none => .empty
  | some active => OrdMap.empty.insert next active

/-- After the events the blocks are completed, and one is open perhaps. -/
structure Coherent (codec : Codec) (events : List StreamEvent) (blocks : List AnthropicContentBlock)
    (opened : Option ActiveContentBlock) (s : StreamState) : Prop where
  keys : s.completedBlocks.keys = List.range blocks.length
  values : s.completedBlocks.values = blocks
  active : s.activeBlocks = activeAt blocks.length opened
  seen : s.seenBlocks = Finset.range (blocks.length + opened.toList.length)
  logged : Logged codec blocks opened s.toolCallIds s.sent
  started : startedIndices events = List.range (blocks.length + opened.toList.length)
  stopped : stoppedIndices events = List.range blocks.length
  tools : startedTools events = toolNames blocks ++ openTool opened
  disciplined : Disciplined events
  ended : s.messageDeltaSeen = true ↔ Ended events
  closed : Ended events → opened = none

section
variable {events : List StreamEvent} {blocks : List AnthropicContentBlock} {opened : Option ActiveContentBlock}
  {s s' : StreamState} {u : Unit}

theorem Coherent.none_open (h : Coherent codec events blocks opened s) (hnone : s.activeBlocks.entries = []) :
    opened = none := by
  rw [h.active] at hnone
  cases opened with
  | none => rfl
  | some active => cases hnone

theorem Coherent.open_at (h : Coherent codec events blocks opened s) {index : Nat} {active : ActiveContentBlock}
    (hget : s.activeBlocks.get? index = some active) : opened = some active ∧ index = blocks.length := by
  rw [h.active] at hget
  cases opened with
  | none => cases hget
  | some found =>
    rw [activeAt, OrdMap.get?_insert] at hget
    split at hget
    · rename_i hindex
      exact ⟨hget, hindex.symm⟩
    · cases hget

/-- An event that is not about the content. -/
theorem Coherent.pass (h : Coherent codec events blocks opened s) {event : StreamEvent}
    (hstart : startedIndices [event] = []) (hstop : stoppedIndices [event] = []) (htools : startedTools [event] = [])
    (hallowed : Allowed events event) (hdelta : ∀ usage, event ≠ .messageDelta usage)
    (hcompleted : s'.completedBlocks = s.completedBlocks) (hactive : s'.activeBlocks = s.activeBlocks)
    (hseen : s'.seenBlocks = s.seenBlocks) (hids : s'.toolCallIds = s.toolCallIds) (hsent : s'.sent = s.sent)
    (hended : s'.messageDeltaSeen = s.messageDeltaSeen) : Coherent codec (events ++ [event]) blocks opened s' := by
  have hsame : Ended (events ++ [event]) ↔ Ended events := by
    rw [ended_concat]
    exact or_iff_left fun ⟨usage, heq⟩ => hdelta usage heq
  refine ⟨hcompleted ▸ h.keys, hcompleted ▸ h.values, hactive ▸ h.active, hseen ▸ h.seen, ?_, ?_, ?_, ?_,
    h.disciplined.concat hallowed, ?_, fun hend => h.closed (hsame.1 hend)⟩
  · rw [hids, hsent]
    exact h.logged
  · rw [startedIndices_append, hstart, List.append_nil]
    exact h.started
  · rw [stoppedIndices_append, hstop, List.append_nil]
    exact h.stopped
  · rw [startedTools_append, htools, List.append_nil]
    exact h.tools
  · rw [hended, hsame]
    exact h.ended

/-- The content is open as long as a block is. -/
theorem Coherent.not_ended (h : Coherent codec events blocks opened s) {active : ActiveContentBlock}
    (hopened : opened = some active) : ¬ Ended events := fun hend => by
  have hnone := h.closed hend
  rw [hopened] at hnone
  cases hnone

theorem Coherent.start (h : Coherent codec events blocks opened s) {index : Nat} {block : ContentBlock}
    (hstep : (startContentBlock index block).run s = (.ok u, s')) :
    ∃ active, Coherent codec (events ++ [StreamEvent.contentBlockStart index block]) blocks (some active) s' := by
  obtain ⟨hdelta, hnone, hindex, active, ids, sent, htool, hopens, rfl⟩ := startContentBlock_eq_ok hstep
  obtain rfl := h.none_open hnone
  have hindex : index = blocks.length := by
    rw [hindex, h.seen, Finset.card_range]
    rfl
  have hend : ¬ Ended events := by
    rw [← h.ended, hdelta]
    decide
  have hsame : Ended (events ++ [StreamEvent.contentBlockStart index block]) ↔ Ended events := by
    rw [ended_concat]
    exact or_iff_left nofun
  refine ⟨active, h.keys, h.values, ?_, ?_, h.logged.opens hopens, ?_, ?_, ?_, h.disciplined.concat ?_, ?_,
    fun h' => (hend (hsame.1 h')).elim⟩
  · show s.activeBlocks.insert index active = _
    rw [h.active, hindex]
    rfl
  · show insert index s.seenBlocks = _
    rw [h.seen, hindex]
    exact Finset.range_add_one.symm
  · rw [startedIndices_append, h.started, hindex]
    exact List.range_succ.symm
  · rw [stoppedIndices_append, h.stopped]
    exact List.append_nil _
  · rw [startedTools_append, h.tools, ← htool]
    simp [startedTools, openTool]
  · exact ⟨h.started.trans h.stopped.symm, by rw [h.started, List.length_range, hindex]; rfl, hend⟩
  · rw [hsame]
    exact h.ended

theorem Coherent.delta (h : Coherent codec events blocks opened s) {index : Nat} {delta : ContentDelta}
    (hstep : (processContentDelta index delta).run s = (.ok u, s')) :
    ∃ active, Coherent codec (events ++ [StreamEvent.contentBlockDelta index delta]) blocks (some active) s' := by
  obtain ⟨active, applied, hget, happlied, rfl⟩ := processContentDelta_eq_ok hstep
  obtain ⟨hopened, hindex⟩ := h.open_at hget
  have hend := h.not_ended hopened
  subst hopened
  have hsame : Ended (events ++ [StreamEvent.contentBlockDelta index delta]) ↔ Ended events := by
    rw [ended_concat]
    exact or_iff_left nofun
  refine ⟨applied.1, h.keys, h.values, ?_, h.seen, h.logged.delta happlied, ?_, ?_, ?_, h.disciplined.concat ⟨?_, hend⟩, ?_,
    fun h' => (hend (hsame.1 h')).elim⟩
  · show s.activeBlocks.insert index applied.1 = OrdMap.empty.insert blocks.length applied.1
    rw [h.active, hindex]
    refine OrdMap.ext_get? fun key => ?_
    rw [OrdMap.get?_insert, activeAt, OrdMap.get?_insert, OrdMap.get?_insert]
    split <;> rfl
  · rw [startedIndices_append, h.started]
    exact List.append_nil _
  · rw [stoppedIndices_append, h.stopped]
    exact List.append_nil _
  · rw [startedTools_append, h.tools, ← openTool_applyDelta happlied]
    exact List.append_nil _
  · rw [h.started, h.stopped, hindex]
    exact List.range_succ
  · rw [hsame]
    exact h.ended

theorem Coherent.stop (h : Coherent codec events blocks opened s) {index : Nat}
    (hstep : (finishContentBlock codec index).run s = (.ok u, s')) :
    ∃ block, Coherent codec (events ++ [StreamEvent.contentBlockStop index]) (blocks ++ [block]) none s' := by
  obtain ⟨active, completed, hget, hcompleted, rfl⟩ := finishContentBlock_eq_ok hstep
  obtain ⟨hopened, hindex⟩ := h.open_at hget
  have hend := h.not_ended hopened
  subst hopened
  have hsame : Ended (events ++ [StreamEvent.contentBlockStop index]) ↔ Ended events := by
    rw [ended_concat]
    exact or_iff_left nofun
  have hlength : (blocks ++ [completed.1]).length = blocks.length + 1 := List.length_append
  have hlast : (s.completedBlocks.insert index completed.1).entries =
      s.completedBlocks.entries ++ [(index, completed.1)] := by
    refine OrdMap.entries_insert_last completed.1 fun key hkey => ?_
    rw [h.keys, List.mem_range] at hkey
    rwa [hindex]
  refine ⟨completed.1, ?_, ?_, ?_, ?_, h.logged.complete hcompleted, ?_, ?_, ?_,
    h.disciplined.concat ⟨?_, hend⟩, ?_,
    fun h' => (hend (hsame.1 h')).elim⟩
  · show (s.completedBlocks.insert index completed.1).keys = _
    rw [OrdMap.keys, hlast, List.map_append, ← OrdMap.keys, h.keys, hlength, List.range_succ, hindex]
    rfl
  · show (s.completedBlocks.insert index completed.1).values = _
    rw [OrdMap.values, hlast, List.map_append, ← OrdMap.values, h.values]
    rfl
  · show s.activeBlocks.erase index = .empty
    rw [h.active, hindex]
    refine OrdMap.ext_get? fun key => ?_
    rw [OrdMap.get?_erase, activeAt, OrdMap.get?_insert, OrdMap.get?_empty]
    split <;> rfl
  · rw [hlength]
    exact h.seen
  · rw [startedIndices_append, h.started, hlength]
    exact List.append_nil _
  · rw [stoppedIndices_append, h.stopped, hlength, List.range_succ, hindex]
    rfl
  · rw [startedTools_append, h.tools, toolNames_concat, toolNames_completeBlock hcompleted]
    simp [startedTools, openTool]
  · rw [h.started, h.stopped, hindex]
    exact List.range_succ
  · rw [hsame]
    exact h.ended

theorem Coherent.endContent (h : Coherent codec events blocks opened s) {source : Option StreamUsage}
    (hstep : (endContent source).run s = (.ok u, s')) :
    Coherent codec (events ++ [StreamEvent.messageDelta source]) blocks none s' := by
  obtain ⟨hnone, usage, -, rfl⟩ := endContent_eq_ok hstep
  obtain rfl := h.none_open hnone
  refine ⟨h.keys, h.values, h.active, h.seen, h.logged, ?_, ?_, ?_, h.disciplined.concat ?_, ?_, fun _ => rfl⟩
  · rw [startedIndices_append, h.started]
    exact List.append_nil _
  · rw [stoppedIndices_append, h.stopped]
    exact List.append_nil _
  · rw [startedTools_append, h.tools]
    exact List.append_nil _
  · exact h.started.trans h.stopped.symm
  · exact ⟨fun _ => ended_concat.2 (.inr ⟨source, rfl⟩), fun _ => rfl⟩

/-- **Every event up to the completion keeps the invariant.** -/
theorem Coherent.step (h : Coherent codec events blocks opened s) {event : StreamEvent}
    (hstep : (takeEvent codec preserve event).run s = (.ok u, s')) (haction : actionOf event = .continue) :
    ∃ blocks' opened', Coherent codec (events ++ [event]) blocks' opened' s' := by
  cases event with
  | messageStart message =>
    obtain ⟨usage, -, rfl⟩ := startMessage_eq_ok hstep
    exact ⟨blocks, opened, h.pass rfl rfl rfl trivial nofun rfl rfl rfl rfl rfl rfl⟩
  | contentBlockStart index block =>
    obtain ⟨active, hactive⟩ := h.start (whenStarted_eq_ok hstep)
    exact ⟨blocks, some active, hactive⟩
  | contentBlockDelta index delta =>
    obtain ⟨active, hactive⟩ := h.delta (whenStarted_eq_ok hstep)
    exact ⟨blocks, some active, hactive⟩
  | contentBlockStop index =>
    obtain ⟨block, hblock⟩ := h.stop (whenStarted_eq_ok hstep)
    exact ⟨_, none, hblock⟩
  | messageDelta source => exact ⟨blocks, none, h.endContent (whenStarted_eq_ok hstep)⟩
  | messageStop => cases haction
  | error kind => cases hstep
  | other =>
    cases hstep
    exact ⟨blocks, opened, h.pass rfl rfl rfl trivial nofun rfl rfl rfl rfl rfl rfl⟩

end

/-! ## Usage -/

/-- A counter is not lost and does not decrease. -/
def CounterLe (before after : Option Nat) : Prop := ∀ n ∈ before, ∃ m ∈ after, n ≤ m

/-- No counter of the usage decreases. -/
structure UsageLe (before after : GenerationUsage) : Prop where
  inputTokens : CounterLe before.inputTokens after.inputTokens
  cachedReadTokens : CounterLe before.cachedReadTokens after.cachedReadTokens
  cachedWriteTokens : CounterLe before.cachedWriteTokens after.cachedWriteTokens
  outputTokens : CounterLe before.outputTokens after.outputTokens
  reasoningTokens : CounterLe before.reasoningTokens after.reasoningTokens
  toolTokens : CounterLe before.toolTokens after.toolTokens
  providerRawSummary : ∀ name, CounterLe (before.providerRawSummary.bind (·.get? name))
    (after.providerRawSummary.bind (·.get? name))

theorem CounterLe.refl (counter : Option Nat) : CounterLe counter counter := fun n hn => ⟨n, hn, le_rfl⟩

theorem CounterLe.trans {a b c : Option Nat} (hab : CounterLe a b) (hbc : CounterLe b c) : CounterLe a c := by
  intro n hn
  obtain ⟨m, hm, hnm⟩ := hab n hn
  obtain ⟨k, hk, hmk⟩ := hbc m hm
  exact ⟨k, hk, hnm.trans hmk⟩

theorem UsageLe.refl (usage : GenerationUsage) : UsageLe usage usage :=
  ⟨.refl _, .refl _, .refl _, .refl _, .refl _, .refl _, fun _ => .refl _⟩

theorem UsageLe.trans {a b c : GenerationUsage} (hab : UsageLe a b) (hbc : UsageLe b c) : UsageLe a c :=
  ⟨hab.inputTokens.trans hbc.inputTokens, hab.cachedReadTokens.trans hbc.cachedReadTokens,
    hab.cachedWriteTokens.trans hbc.cachedWriteTokens, hab.outputTokens.trans hbc.outputTokens,
    hab.reasoningTokens.trans hbc.reasoningTokens, hab.toolTokens.trans hbc.toolTokens,
    fun name => (hab.providerRawSummary name).trans (hbc.providerRawSummary name)⟩

theorem mergeCumulativeUsage_le {current next merged : Option Nat}
    (h : mergeCumulativeUsage current next = .ok merged) : CounterLe current merged := by
  cases next with
  | none =>
    cases h
    exact .refl _
  | some next =>
    obtain ⟨hreject, h⟩ := seq_eq_ok.1 h
    cases h
    intro n hn
    have hnot := rejectIf_eq_ok.1 hreject
    rw [Option.mem_def] at hn
    rw [hn, Option.any_some, decide_eq_true_eq, not_lt] at hnot
    exact ⟨next, rfl, hnot⟩

/-- The counters of a merged summary. -/
theorem mergeUsageSummary_get? (current : Option (OrdMap String Nat)) (fields : List (String × Option Nat))
    (name : String) : (mergeUsageSummary current fields).bind (·.get? name) =
      (fields.foldl (fun object field => object.insertOption field.1 field.2) (current.getD .empty)).get? name := by
  unfold mergeUsageSummary
  simp only []
  generalize fields.foldl (fun object field => object.insertOption field.1 field.2) (current.getD .empty) = object
  split
  · rename_i hempty
    rw [Option.bind_none, OrdMap.get?, hempty]
    rfl
  · rfl

/-- A counter of the summary that passed its check. -/
theorem CounterLe.insertOption {object object' : OrdMap String Nat} {name field : String} {value : Option Nat}
    (h : CounterLe (object.get? name) (object'.get? name))
    (hcheck : name = field → ∀ n ∈ object.get? name, ∀ m ∈ value, n ≤ m) :
    CounterLe (object.get? name) ((object'.insertOption field value).get? name) := by
  rw [OrdMap.get?_insertOption]
  split
  · rename_i heq
    cases value with
    | none => exact h
    | some value => exact fun n hn => ⟨value, rfl, hcheck heq.symm n hn value rfl⟩
  · exact h

theorem rawSummary_le {source : StreamUsage} {current : Option (OrdMap String Nat)} {u : Unit}
    (h : validateRawUsageCounters source current = .ok u) (name : String) :
    CounterLe (current.bind (·.get? name)) ((mergeUsageSummary current (rawCounters source)).bind (·.get? name)) := by
  have hcheck : ∀ counter ∈ rawCounters source, name = counter.1 → ∀ n ∈ (current.getD .empty).get? name,
      ∀ m ∈ counter.2, n ≤ m := by
    intro counter hcounter heq n hn m hm
    have hpass := rejectIf_eq_ok.1 (forM_eq_ok.1 h counter hcounter)
    cases hcurrent : current with
    | none =>
      rw [hcurrent] at hn
      cases hn
    | some object =>
      rw [hcurrent] at hn hpass
      have hn : object.get? counter.1 = some n := heq ▸ hn
      rw [Option.bind_some, hn, Option.any_some, Option.mem_def.1 hm, Option.any_some, decide_eq_true_eq, not_lt] at hpass
      exact hpass
  have hstart : current.bind (·.get? name) = (current.getD .empty).get? name := by cases current <;> rfl
  rw [mergeUsageSummary_get?, hstart]
  exact ((CounterLe.refl _).insertOption (hcheck _ (.head _))).insertOption (hcheck _ (.tail _ (.head _)))

theorem updateUsage_le {source : Option StreamUsage} {usage merged : GenerationUsage}
    (h : updateUsage source usage = .ok merged) : UsageLe usage merged := by
  cases source with
  | none =>
    cases h
    exact .refl _
  | some source =>
    obtain ⟨inputTokens, hinput, h⟩ := bind_eq_ok.1 h
    obtain ⟨cachedReadTokens, hread, h⟩ := bind_eq_ok.1 h
    obtain ⟨cachedWriteTokens, hwrite, h⟩ := bind_eq_ok.1 h
    obtain ⟨outputTokens, houtput, h⟩ := bind_eq_ok.1 h
    obtain ⟨reasoningTokens, hreasoning, h⟩ := bind_eq_ok.1 h
    obtain ⟨hraw, h⟩ := seq_eq_ok.1 h
    cases h
    exact ⟨mergeCumulativeUsage_le hinput, mergeCumulativeUsage_le hread, mergeCumulativeUsage_le hwrite,
      mergeCumulativeUsage_le houtput, mergeCumulativeUsage_le hreasoning, .refl _, rawSummary_le hraw⟩

theorem takeEvent_usage {s s' : StreamState} {u : Unit} {event : StreamEvent}
    (h : (takeEvent codec preserve event).run s = (.ok u, s')) : UsageLe s.usage s'.usage := by
  cases event with
  | messageStart message =>
    obtain ⟨usage, husage, rfl⟩ := startMessage_eq_ok h
    exact updateUsage_le husage
  | contentBlockStart index block =>
    obtain ⟨-, -, -, active, ids, events, -, -, rfl⟩ := startContentBlock_eq_ok (whenStarted_eq_ok h)
    exact .refl _
  | contentBlockDelta index delta =>
    obtain ⟨active, applied, -, -, rfl⟩ := processContentDelta_eq_ok (whenStarted_eq_ok h)
    exact .refl _
  | contentBlockStop index =>
    obtain ⟨active, completed, -, -, rfl⟩ := finishContentBlock_eq_ok (whenStarted_eq_ok h)
    exact .refl _
  | messageDelta source =>
    obtain ⟨-, usage, husage, rfl⟩ := endContent_eq_ok (whenStarted_eq_ok h)
    exact updateUsage_le husage
  | messageStop =>
    obtain ⟨-, -, topology, -, rfl⟩ := stopMessage_eq_ok (whenStarted_eq_ok h)
    exact .refl _
  | error kind => cases h
  | other =>
    cases h
    exact .refl _

/-! ## Runs -/

section
variable {events more : List StreamEvent} {s s' final : StreamState}

/-- A run that has not completed takes each event. -/
inductive Takes (codec : Codec) (preserve : Bool) : StreamState → List StreamEvent → StreamState → Prop
  | nil (s : StreamState) : Takes codec preserve s [] s
  | cons {s t s' : StreamState} {event : StreamEvent} {events : List StreamEvent} : actionOf event = .continue →
      (takeEvent codec preserve event).run s = (.ok (), t) → Takes codec preserve t events s' →
      Takes codec preserve s (event :: events) s'

theorem Takes.split : ∀ {events more : List StreamEvent} {s final : StreamState},
    Takes codec preserve s (events ++ more) final →
    ∃ t, Takes codec preserve s events t ∧ Takes codec preserve t more final
  | [], more, s, final, h => ⟨s, .nil s, h⟩
  | event :: events, more, s, final, h => by
    cases h with
    | cons haction hstep hrest =>
      obtain ⟨t, hevents, hmore⟩ := Takes.split hrest
      exact ⟨t, .cons haction hstep hevents, hmore⟩

theorem Takes.usage (h : Takes codec preserve s events s') : UsageLe s.usage s'.usage := by
  induction h with
  | nil => exact .refl _
  | cons _ hstep _ ih => exact (takeEvent_usage hstep).trans ih

theorem Takes.coherent (h : Takes codec preserve s events s') : ∀ {done : List StreamEvent}
    {blocks : List AnthropicContentBlock} {opened : Option ActiveContentBlock}, Coherent codec done blocks opened s →
    ∃ blocks' opened', Coherent codec (done ++ events) blocks' opened' s' := by
  induction h with
  | nil =>
    intro done blocks opened hcoherent
    rw [List.append_nil]
    exact ⟨blocks, opened, hcoherent⟩
  | cons haction hstep _ ih =>
    intro done blocks opened hcoherent
    obtain ⟨blocks', opened', hnext⟩ := hcoherent.step hstep haction
    rw [List.append_cons]
    exact ih hnext

end

/-! ## The completion -/

theorem new_eq_ok {blocks : List AnthropicContentBlock} {topology : AnthropicContentBlockTopology}
    (h : AnthropicContentBlockTopology.new codec blocks = .ok topology) : topology.blocks = blocks := by
  unfold AnthropicContentBlockTopology.new at h
  split at h
  · split at h
    · split at h
      · obtain ⟨-, h⟩ := seq_eq_ok.1 h
        cases h
        rfl
      · cases h
    · cases h
  · cases h

/-- The topology as it is sent. -/
def topologyEvents (topology : Option AnthropicContentBlockTopology) : List Event :=
  (topology.map fun topology => .opaqueReasoningState (.anthropicMessages topology)).toList

/-- The completion of what was sent. -/
theorem Logged.stop {blocks : List AnthropicContentBlock} {ids : Finset String} {sent : List Event}
    (h : Logged codec blocks none ids sent) (topology : Option AnthropicContentBlockTopology) :
    (∃ calls, Accounted (sent ++ topologyEvents topology) calls ∧
        List.Forall₂ (Tells codec) (toolUses blocks) calls) ∧
      sentOn .text (sent ++ topologyEvents topology) = flattenedText blocks ∧
      opaqueStates (sent ++ topologyEvents topology) =
        (topology.map OpaqueReasoningState.anthropicMessages).toList := by
  obtain ⟨done, current, hledger, hdone, hcurrent, -⟩ := h.calls
  cases hcurrent
  rw [List.append_nil] at hledger
  have htext : sentOn .text sent = flattenedText blocks := h.text.trans String.append_empty
  cases topology with
  | none =>
    rw [topologyEvents, Option.map_none, Option.toList_none, List.append_nil]
    exact ⟨⟨done, ledger_accounted hledger, hdone⟩, htext, h.plain⟩
  | some topology =>
    refine ⟨⟨done, ledger_accounted (ledger_other hledger fun _ => rfl), hdone⟩, ?_, ?_⟩
    · rw [topologyEvents, Option.map_some, Option.toList_some, sentOn_concat, htext]
      exact String.append_empty
    · rw [opaqueStates_append, h.plain]
      rfl

/-- A codec that knows the empty object and the size of the blocks of the sample. -/
def sampleCodec : Codec where
  parseJson text := if text = "\x7b\x7d" then some (.object []) else none
  jsonBytes
    | .object [] => some 2
    | _ => none
  blocksBytes
    | [.thinking "low" "sig", .text "Tide"] => some 86
    | _ => none

end LorePia.Anthropic
