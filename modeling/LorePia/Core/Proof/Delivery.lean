import LorePia.Core.Delivery
import LorePia.ShellApi.Proof.Stream

/-!
# Delivery over whole runs

Where no generation is registered twice, every state that is reached has an event bus that keeps the protocol of
its generations (`Published`, for each entry), and every reader has been given exactly the events of its generation
from its start on, in their order, and after its snapshot the text so far can be rebuilt (`delivered`). The limits
of admission hold in every state whatever is registered (`admitted`).
-/

namespace LorePia.Delivery

open Base

variable {υ : Type}

/-! ## Entries at their addresses -/

theorem map_modify_eq {α β : Type} {g : α → β} {f : α → α} {l : List α} {address : Nat}
    (h : ∀ x, l[address]? = some x → g (f x) = g x) : (l.modify address f).map g = l.map g := by
  apply List.ext_getElem?
  intro i
  rw [List.getElem?_map, List.getElem?_map, List.getElem?_modify]
  by_cases hi : address = i
  · subst hi
    cases hx : l[address]? with
    | none => simp
    | some x => simp [h x hx]
  · simp [hi]

namespace GenerationRegistry

/-- Where the events of each generation that was registered go. -/
def routes (registry : GenerationRegistry) : List (GenerationId × GenerationRoute) :=
  registry.entries.map fun registered => (registered.generation, registered.entry.route)

/-- What admission counts of an entry. -/
def occupied (registered : Registered) : Option (GenerationId × ConversationId × GenerationProviderAdmissionKey) :=
  if registered.active then
    some (registered.generation, registered.entry.route.conversation, registered.entry.providerAdmissionKey)
  else none

def slots (registry : GenerationRegistry) : List (GenerationId × ConversationId × GenerationProviderAdmissionKey) :=
  registry.entries.filterMap occupied

theorem slots_eq (registry : GenerationRegistry) : registry.slots = registry.values.map fun registered =>
    (registered.generation, registered.entry.route.conversation, registered.entry.providerAdmissionKey) := by
  unfold slots values
  induction registry.entries with
  | nil => rfl
  | cons registered rest ih =>
    cases hactive : registered.active <;> simp [occupied, hactive, ih]

variable {registry registry' : GenerationRegistry} {address : Nat} {registered : Registered} {entry : ActiveGeneration}

theorem update_routes (h : registry.entries[address]? = some registered) (hroute : entry.route = registered.entry.route)
    :
    (registry.update address entry).routes = registry.routes := by
  refine map_modify_eq fun x hx => ?_
  cases h.symm.trans hx
  rw [hroute]

theorem update_slots (h : registry.entries[address]? = some registered) (hroute : entry.route = registered.entry.route)
    (hkey : entry.providerAdmissionKey = registered.entry.providerAdmissionKey) :
    (registry.update address entry).slots = registry.slots := by
  have hmap : (registry.update address entry).entries.map occupied = registry.entries.map occupied := by
    refine map_modify_eq fun x hx => ?_
    cases h.symm.trans hx
    unfold occupied
    rw [hroute, hkey]
  have hfilter := congrArg (List.filterMap id) hmap
  rwa [List.filterMap_map, List.filterMap_map] at hfilter

theorem remove_routes (registry : GenerationRegistry) (generation : GenerationId) :
    (registry.remove generation).routes = registry.routes := by
  unfold remove routes
  rw [List.map_map]
  refine List.map_congr_left fun registered _ => ?_
  rw [Function.comp_apply]
  split <;> rfl

theorem remove_slots (registry : GenerationRegistry) (generation : GenerationId) :
    (registry.remove generation).slots.Sublist registry.slots := by
  unfold remove slots
  induction registry.entries with
  | nil => exact .slnil
  | cons registered rest ih =>
    rw [List.map_cons, List.filterMap_cons, List.filterMap_cons]
    cases hactive : registered.active with
    | false => simpa [occupied, hactive] using ih
    | true =>
      by_cases hgeneration : registered.generation = generation
      · simpa [occupied, hactive, hgeneration] using ih.cons _
      · simpa [occupied, hactive, hgeneration] using ih

/-- What a registration does, and what it has checked. -/
theorem register_ok {generation : GenerationRecord} {key : GenerationProviderAdmissionKey}
    (h : registry.register generation key = .ok registry') :
    ∃ assistant, registry' = ⟨registry.entries ++ [launched generation key assistant]⟩ ∧
      (∀ slot ∈ registry.slots, slot.1 ≠ generation.id) ∧
      registry.slots.length < maxActiveGenerationsPerProcess ∧
      registry.slots.countP (·.2.1 = generation.conversationId) < maxActiveGenerationsPerConversation ∧
      registry.slots.countP (·.2.2 = key) < maxActiveGenerationsPerProvider := by
  unfold register at h
  obtain ⟨assistant, -, h⟩ := bind_eq_ok.1 h
  simp only [seq_eq_ok, rejectIf_eq_ok] at h
  obtain ⟨hnew, hprocess, hconversation, hprovider, h⟩ := h
  cases h
  refine ⟨assistant, rfl, ?_, ?_, ?_, ?_⟩
  · intro slot hslot hid
    rw [slots_eq, List.mem_map] at hslot
    obtain ⟨registered, hregistered, rfl⟩ := hslot
    exact hnew ⟨registered, hregistered, hid⟩
  · rw [slots_eq, List.length_map]
    exact Nat.lt_of_not_le hprocess
  · rw [slots_eq, List.countP_map]
    exact Nat.lt_of_not_le hconversation
  · rw [slots_eq, List.countP_map]
    exact Nat.lt_of_not_le hprovider

end GenerationRegistry

/-! ## Admission -/

open GenerationRegistry in
/-- The entries of the map keep the limits and have ids of their own. -/
structure Admitted (registry : GenerationRegistry) : Prop where
  process : registry.slots.length ≤ maxActiveGenerationsPerProcess
  conversation : ∀ conversation, registry.slots.countP (·.2.1 = conversation) ≤ maxActiveGenerationsPerConversation
  provider : ∀ key, registry.slots.countP (·.2.2 = key) ≤ maxActiveGenerationsPerProvider
  distinct : (registry.slots.map (·.1)).Nodup

namespace Admitted

variable {registry registry' : GenerationRegistry}

theorem of_sublist (h : Admitted registry) (hslots : registry'.slots.Sublist registry.slots) : Admitted registry' where
  process := Nat.le_trans hslots.length_le h.process
  conversation conversation := Nat.le_trans hslots.countP_le (h.conversation conversation)
  provider key := Nat.le_trans hslots.countP_le (h.provider key)
  distinct := h.distinct.sublist (hslots.map _)

theorem update (h : Admitted registry) {address : Nat} {registered : Registered} {entry : ActiveGeneration}
    (haddress : registry.entries[address]? = some registered)
    (hsame : entry.route = registered.entry.route ∧
      entry.providerAdmissionKey = registered.entry.providerAdmissionKey) :
    Admitted (registry.update address entry) := by
  refine h.of_sublist ?_
  rw [GenerationRegistry.update_slots haddress hsame.1 hsame.2]

theorem register {generation : GenerationRecord} {key : GenerationProviderAdmissionKey} (h : Admitted registry)
    (hregister : registry.register generation key = .ok registry') : Admitted registry' := by
  obtain ⟨assistant, rfl, hnew, hprocess, hconversation, hprovider⟩ := GenerationRegistry.register_ok hregister
  have hslots : GenerationRegistry.slots ⟨registry.entries ++ [GenerationRegistry.launched generation key assistant]⟩ =
      registry.slots ++ [(generation.id, generation.conversationId, key)] := by
    unfold GenerationRegistry.slots
    rw [List.filterMap_append]
    rfl
  constructor
  · rw [hslots, List.length_append]
    exact hprocess
  · intro conversation
    rw [hslots, List.countP_append, List.countP_singleton]
    have := h.conversation conversation
    split
    · next heq =>
      rw [decide_eq_true_iff] at heq
      subst heq
      exact hconversation
    · exact this
  · intro key'
    rw [hslots, List.countP_append, List.countP_singleton]
    have := h.provider key'
    split
    · next heq =>
      rw [decide_eq_true_iff] at heq
      subst heq
      exact hprovider
    · exact this
  · rw [hslots, List.map_append, List.map_singleton, List.nodup_append']
    refine ⟨h.distinct, List.nodup_singleton _, ?_⟩
    rw [List.disjoint_singleton]
    intro hmem
    obtain ⟨slot, hslot, hid⟩ := List.mem_map.1 hmem
    exact hnew slot hslot hid

end Admitted

/-! ## Entries and the events they published -/

/-- What an entry says of the events of its generation. -/
structure Published (events : List (ChatEvent υ)) (entry : ActiveGeneration) : Prop where
  routed : ∀ event ∈ events, event.conversationId = entry.route.conversation ∧
    event.branchId = some entry.route.branch ∧ event.assistantMessageId = some entry.route.assistantMessage
  ordered : events.Pairwise fun e f => e.sequence < f.sequence ∧ e.kind.isTerminal = false
  positive : ∀ event ∈ events, 0 < event.sequence ∧ event.sequence ≤ entry.delivery.sequenceWatermark
  watermark : entry.delivery.sequenceWatermark = lastSequence events
  preparing : entry.delivery.phase = .preparing → events = []
  running : entry.delivery.phase = .running → ∀ event ∈ events, event.kind.isTerminal = false
  terminal : entry.delivery.phase = .terminal → ∃ event ∈ events, event.kind.isTerminal = true
  live : ∀ live, entry.delivery.livePrefix = some live →
    live.display = displayText events ∧ live.reasoning = reasoningText events

theorem append_live {live live' : GenerationLivePrefix} {events : List (ChatEvent υ)} {event : ChatEvent υ}
    (h : live.append event.kind = some live') (hdisplay : live.display = displayText events)
    (hreasoning : live.reasoning = reasoningText events) :
    live'.display = displayText (events ++ [event]) ∧ live'.reasoning = reasoningText (events ++ [event]) := by
  rw [displayText_append, reasoningText_append, ← hdisplay, ← hreasoning]
  unfold GenerationLivePrefix.append at h
  unfold displayText reasoningText
  cases hkind : event.kind with
  | textDelta delta =>
    rw [hkind] at h
    dsimp only at h
    split at h
    · cases h
    · cases h
      simp [hkind]
  | reasoningDelta delta =>
    rw [hkind] at h
    dsimp only at h
    split at h
    · cases h
    · cases h
      simp [hkind]
  | _ =>
    rw [hkind] at h
    cases h
    simp [hkind]

/-- A section leaves the route and the key of its entry. -/
theorem activate_same {entry entry' : ActiveGeneration} (h : entry.activate = .ok entry') :
    entry'.route = entry.route ∧ entry'.providerAdmissionKey = entry.providerAdmissionKey := by
  unfold ActiveGeneration.activate at h
  cases (seq_eq_ok.1 h).2
  exact ⟨rfl, rfl⟩

theorem publish_same {entry entry' : ActiveGeneration} {event : ChatEvent υ} (h : entry.publish event = .ok entry') :
    entry'.route = entry.route ∧ entry'.providerAdmissionKey = entry.providerAdmissionKey := by
  unfold ActiveGeneration.publish at h
  simp only [seq_eq_ok] at h
  cases h.2.2.2
  exact ⟨rfl, rfl⟩

namespace Published

variable {events : List (ChatEvent υ)} {entry entry' : ActiveGeneration}

theorem activate (h : Published events entry) (hactivate : entry.activate = .ok entry') : Published events entry' := by
  unfold ActiveGeneration.activate at hactivate
  simp only [seq_eq_ok, rejectIf_eq_ok, not_not] at hactivate
  obtain ⟨hphase, hactivate⟩ := hactivate
  cases hactivate
  obtain rfl := h.preparing hphase
  exact {
    routed := fun _ he => absurd he List.not_mem_nil
    ordered := .nil
    positive := fun _ he => absurd he List.not_mem_nil
    watermark := h.watermark
    preparing := fun hpreparing => by cases hpreparing
    running := fun _ _ he => absurd he List.not_mem_nil
    terminal := fun hterminal => by cases hterminal
    live := h.live }

/-- **A publication**: the event comes after the others, and nothing comes after a terminal one. -/
theorem publish (h : Published events entry) {event : ChatEvent υ} (hpublish : entry.publish event = .ok entry') :
    Published (events ++ [event]) entry' := by
  unfold ActiveGeneration.publish at hpublish
  simp only [seq_eq_ok, rejectIf_eq_ok, not_not, not_or, Nat.not_le] at hpublish
  obtain ⟨hphase, hroute, hsequence, hpublish⟩ := hpublish
  cases hpublish
  have hrunning := h.running hphase
  constructor
  · simpa [or_imp, forall_and] using ⟨⟨fun e he => (h.routed e he).1, hroute.1⟩,
      ⟨fun e he => (h.routed e he).2.1, hroute.2.1⟩, ⟨fun e he => (h.routed e he).2.2, hroute.2.2⟩⟩
  · rw [List.pairwise_append]
    refine ⟨h.ordered, List.pairwise_singleton .., fun e he f hf => ?_⟩
    rw [List.mem_singleton] at hf
    subst hf
    exact ⟨Nat.lt_of_le_of_lt (h.positive e he).2 hsequence, hrunning e he⟩
  · intro e he
    rw [List.mem_append, List.mem_singleton] at he
    rcases he with he | rfl
    · exact ⟨(h.positive e he).1, Nat.le_of_lt (Nat.lt_of_le_of_lt (h.positive e he).2 hsequence)⟩
    · exact ⟨Nat.zero_lt_of_lt hsequence, Nat.le_refl _⟩
  · rw [lastSequence_concat]
  · intro hpreparing
    dsimp only at hpreparing
    rw [hphase] at hpreparing
    split at hpreparing <;> cases hpreparing
  · intro hstill e he
    dsimp only at hstill
    split at hstill
    · cases hstill
    · next hkind =>
      rw [List.mem_append, List.mem_singleton] at he
      rcases he with he | rfl
      · exact hrunning e he
      · exact Bool.eq_false_iff.2 hkind
  · intro hterminal
    dsimp only at hterminal
    split at hterminal
    · next hkind => exact ⟨event, List.mem_append_right _ (List.mem_singleton_self event), hkind⟩
    · rw [hphase] at hterminal
      cases hterminal
  · intro live hlive
    obtain ⟨before, hbefore, happend⟩ := Option.bind_eq_some_iff.1 hlive
    obtain ⟨hdisplay, hreasoning⟩ := h.live before hbefore
    exact append_live happend hdisplay hreasoning

end Published

/-! ## The whole system -/

/-- No generation is registered twice. -/
def Fresh (registry : GenerationRegistry) : Prop := (registry.entries.map (·.generation)).Nodup

theorem Fresh.routes {registry : GenerationRegistry} (h : Fresh registry) : (registry.routes.map (·.1)).Nodup := by
  unfold GenerationRegistry.routes
  rwa [List.map_map]

/-- Two addresses of one generation are the same. -/
theorem Fresh.address {registry : GenerationRegistry} (h : Fresh registry) {a b : Nat} {x y : Registered}
    (hx : registry.entries[a]? = some x) (hy : registry.entries[b]? = some y) (hxy : x.generation = y.generation) :
    a = b := by
  obtain ⟨ha, rfl⟩ := List.getElem?_eq_some_iff.1 hx
  refine (List.getElem?_inj (by rwa [List.length_map]) h).1 ?_
  rw [List.getElem?_map, List.getElem?_map, hy, Option.map_some, ← hxy, List.getElem?_eq_getElem ha, Option.map_some]

structure Invariant (s : State υ) : Prop where
  registered : ∀ event ∈ s.bus.sent, ∃ registered ∈ s.registry.entries, registered.generation = event.generationId
  published : ∀ registered ∈ s.registry.entries,
    Published (eventsOf registered.generation s.bus.sent) registered.entry
  readers : ∀ reader ∈ s.readers,
    Following s.bus s.registry.routes reader ∧ Attached s.bus.sent s.registry.routes reader

namespace Invariant

variable {s : State υ}

theorem protocol (h : Invariant s) : Protocol s.registry.routes s.bus.sent where
  routed event hevent := by
    obtain ⟨registered, hregistered, hid⟩ := h.registered event hevent
    have hrouted := (h.published registered hregistered).routed event (mem_eventsOf.2 ⟨hevent, hid.symm⟩)
    exact ⟨registered.entry.route, List.mem_map.2 ⟨registered, hregistered, by rw [hid]⟩, hrouted⟩
  positive event hevent := by
    obtain ⟨registered, hregistered, hid⟩ := h.registered event hevent
    exact ((h.published registered hregistered).positive event (mem_eventsOf.2 ⟨hevent, hid.symm⟩)).1
  ordered generation := by
    rcases (eventsOf generation s.bus.sent).eq_nil_or_concat with hnil | ⟨rest, last, hlast⟩
    · rw [hnil]
      exact .nil
    · have hmem : last ∈ eventsOf generation s.bus.sent := by
        rw [hlast, List.concat_eq_append]
        exact List.mem_append_right _ (List.mem_singleton_self last)
      obtain ⟨hsent, rfl⟩ := mem_eventsOf.1 hmem
      obtain ⟨registered, hregistered, hid⟩ := h.registered last hsent
      rw [← hid]
      exact (h.published registered hregistered).ordered

/-- What the readers know when only the registry and the bus change. -/
theorem readers_append (h : Invariant s) {registry : GenerationRegistry} {bus : Broadcast (ChatEvent υ)}
    {more : List (ChatEvent υ)} (hsent : bus.sent = s.bus.sent ++ more) (hcapacity : bus.capacity = s.bus.capacity)
    (hclosed : s.bus.closed = true → bus.closed = true ∧ more = [])
    (hroutes : s.registry.routes ⊆ registry.routes) : ∀ reader ∈ s.readers,
      Following bus registry.routes reader ∧ Attached bus.sent registry.routes reader := by
  intro reader hreader
  obtain ⟨hfollowing, hattached⟩ := h.readers reader hreader
  refine ⟨hfollowing.append hsent hcapacity hclosed hroutes, ?_⟩
  rw [hsent]
  exact hattached.append (Nat.le_trans hfollowing.within.1 hfollowing.within.2) hroutes

/-- The entry of an address is replaced, and its event sent. -/
theorem update (h : Invariant s) (hfresh : Fresh s.registry) {address : Nat} {registered : Registered}
    {entry : ActiveGeneration} {bus : Broadcast (ChatEvent υ)} {more : List (ChatEvent υ)}
    (haddress : s.registry.entries[address]? = some registered) (hroute : entry.route = registered.entry.route)
    (hsent : bus.sent = s.bus.sent ++ more) (hcapacity : bus.capacity = s.bus.capacity)
    (hclosed : s.bus.closed = true → bus.closed = true ∧ more = [])
    (hmore : ∀ event ∈ more, event.generationId = registered.generation)
    (hentry : Published (eventsOf registered.generation s.bus.sent ++ more) entry) :
    Invariant { s with registry := s.registry.update address entry, bus } := by
  have hroutes := GenerationRegistry.update_routes haddress hroute
  constructor
  · intro event hevent
    dsimp only at hevent ⊢
    rw [hsent, List.mem_append] at hevent
    have hgenerations : (s.registry.update address entry).entries.map (·.generation) =
        s.registry.entries.map (·.generation) := map_modify_eq fun _ _ => rfl
    have hmem : event.generationId ∈ s.registry.entries.map (·.generation) := by
      rcases hevent with hold | hnew
      · exact List.mem_map.2 (h.registered event hold)
      · exact List.mem_map.2 ⟨registered, List.mem_of_getElem? haddress, (hmore event hnew).symm⟩
    rw [← hgenerations] at hmem
    exact List.mem_map.1 hmem
  · intro x hx
    dsimp only at hx ⊢
    obtain ⟨i, hi⟩ := List.mem_iff_getElem?.1 hx
    unfold GenerationRegistry.update at hi
    rw [List.getElem?_modify] at hi
    have hmine : eventsOf registered.generation more = more := by
      unfold eventsOf
      rw [List.filter_eq_self]
      exact fun event hevent => decide_eq_true (hmore event hevent)
    by_cases hsame : address = i
    · subst hsame
      rw [haddress] at hi
      simp only [if_true, Option.map_eq_map, Option.map_some, Option.some.injEq] at hi
      subst hi
      rw [hsent, eventsOf_append, hmine]
      exact hentry
    · simp only [hsame, if_false, Option.map_eq_map, Option.map_id'] at hi
      have hother : eventsOf x.generation more = [] := by
        rw [List.eq_nil_iff_forall_not_mem]
        intro event hevent
        rw [mem_eventsOf] at hevent
        exact hsame (hfresh.address haddress hi ((hmore event hevent.1).symm.trans hevent.2))
      rw [hsent, eventsOf_append, hother, List.append_nil]
      exact h.published x (List.mem_of_getElem? hi)
  · refine h.readers_append hsent hcapacity hclosed ?_
    rw [hroutes]
    exact List.Subset.refl _

/-- One more reader. -/
theorem opened (h : Invariant s) {stream : ChatEventStream}
    (hstream : Following s.bus s.registry.routes (.opened stream) ∧
      Attached s.bus.sent s.registry.routes (.opened stream)) :
    Invariant { s with readers := s.readers ++ [.opened stream] } := by
  refine ⟨h.registered, h.published, fun reader hreader => ?_⟩
  rw [List.mem_append, List.mem_singleton] at hreader
  rcases hreader with hreader | rfl
  · exact h.readers reader hreader
  · exact hstream

/-- A stream of a generation that is made before it reads anything. -/
theorem new_stream (s : State υ) (generation : GenerationId) (conversation : ConversationId)
    (branch : ConversationBranchId) :
    Following s.bus s.registry.routes (.opened (.new s.bus.sent.length generation conversation branch)) ∧
      Attached s.bus.sent s.registry.routes
        (.opened (.new s.bus.sent.length generation conversation branch) : Reader υ) := by
  refine ⟨⟨fun hpending => absurd rfl hpending, ⟨Nat.le_refl _, Nat.le_refl _⟩, fun _ => ?_,
    fun hstopped => absurd hstopped Bool.false_ne_true, ?_, fun hterminal => absurd hterminal Bool.false_ne_true,
    fun _ hassistant => absurd hassistant (Option.some_ne_none _).symm⟩,
    fun _ hsnapshot => absurd hsnapshot (Option.some_ne_none _).symm⟩
  · refine ⟨0, ⟨Nat.le_refl _, Nat.le_refl _, ?_⟩, by simp⟩
    dsimp only [Reader.opened, ChatEventStream.new, ChatEventStream.newWithSequenceBaseline, Reader.taken]
    rw [stretch_self]
    rfl
  · exact ⟨0, rfl, .inl rfl⟩

/-- What a subscription has checked and what it is made of. -/
theorem subscribe_ok {entry : ActiveGeneration} {generation : GenerationId} {conversation : ConversationId}
    {branch : ConversationBranchId} {baseline receiver : Nat} {stored : Except CoreError GenerationRecord}
    {stream : ChatEventStream}
    (h : subscribeGeneration entry generation conversation branch baseline stored receiver = .ok stream) :
    ∃ live, entry.delivery.livePrefix = some live ∧ entry.route.conversation = conversation ∧
      entry.route.branch = branch ∧ baseline ≤ entry.delivery.sequenceWatermark ∧
      stream = .reattached receiver generation conversation branch
        ⟨entry.route.assistantMessage, baseline, entry.delivery.sequenceWatermark, live.display, live.reasoning⟩ := by
  unfold subscribeGeneration subscribeGenerationEvents at h
  simp only [bind_eq_ok, rejectIf_eq_ok, okOr_eq_ok, not_or, not_not] at h
  obtain ⟨-, -, -, -, -, -, subscription, ⟨-, ⟨-, hconversation, hbranch⟩, -, -, -, -, live, hlive, hsubscription⟩, -,
    hbaseline, hstream⟩ := h
  cases hsubscription
  cases hstream
  exact ⟨live, hlive, hconversation, hbranch, Nat.le_of_not_lt hbaseline, rfl⟩

/-- A stream that a subscription makes. -/
theorem subscribed (h : Invariant s) {registered : Registered} {conversation : ConversationId}
    {branch : ConversationBranchId} {baseline : Nat} {stored : Except CoreError GenerationRecord}
    {stream : ChatEventStream} (hregistered : registered ∈ s.registry.entries)
    (hsubscribe : subscribeGeneration registered.entry registered.generation conversation branch baseline stored
      s.bus.sent.length = .ok stream) :
    Following s.bus s.registry.routes (.opened stream) ∧
      Attached s.bus.sent s.registry.routes (.opened stream) := by
  obtain ⟨live, hlive, hconversation, hbranch, hbaseline, rfl⟩ := subscribe_ok hsubscribe
  have hpublished := h.published registered hregistered
  have hroute : (registered.generation, registered.entry.route) ∈ s.registry.routes :=
    List.mem_map.2 ⟨registered, hregistered, rfl⟩
  have hall : eventsOf registered.generation (s.bus.sent.take s.bus.sent.length) =
      eventsOf registered.generation s.bus.sent := by rw [List.take_length]
  constructor
  · refine ⟨fun _ => ⟨rfl, rfl, rfl, rfl⟩, ⟨Nat.le_refl _, Nat.le_refl _⟩, fun _ => ?_,
      fun hstopped => absurd hstopped Bool.false_ne_true, ?_, fun hterminal => absurd hterminal Bool.false_ne_true, ?_⟩
    · refine ⟨0, ⟨Nat.le_refl _, Nat.le_refl _, ?_⟩, by simp⟩
      dsimp only [Reader.opened, ChatEventStream.reattached, Reader.taken]
      rw [stretch_self]
      rfl
    · refine ⟨_, rfl, ?_⟩
      dsimp only [Reader.opened, ChatEventStream.reattached]
      rw [hall, hpublished.watermark]
      exact lastSequence_cases _
    · intro assistant hassistant
      cases hassistant
      exact ⟨registered.entry.route, hroute, rfl⟩
  · intro snapshot hsnapshot
    cases hsnapshot
    have hbefore : (Reader.opened (.reattached s.bus.sent.length registered.generation conversation branch
        ⟨registered.entry.route.assistantMessage, baseline, registered.entry.delivery.sequenceWatermark, live.display,
          live.reasoning⟩) : Reader υ).before s.bus.sent = eventsOf registered.generation s.bus.sent := hall
    rw [hbefore]
    obtain ⟨hdisplay, hreasoning⟩ := hpublished.live live hlive
    refine ⟨⟨rfl, ?_, ⟨baseline, rfl, ?_⟩, ?_, ?_⟩, registered.entry.route, hroute, hconversation, hbranch⟩
    · rw [← hpublished.watermark]
      rfl
    · rwa [← hpublished.watermark]
    · rw [← hdisplay]
      rfl
    · rw [← hreasoning]
      rfl

/-- A new entry, whose generation has published nothing. -/
theorem register (h : Invariant s) {generation : GenerationRecord} {key : GenerationProviderAdmissionKey}
    {registry : GenerationRegistry} (hregister : s.registry.register generation key = .ok registry)
    (hfresh : Fresh registry) : Invariant { s with registry } := by
  obtain ⟨assistant, rfl, -⟩ := GenerationRegistry.register_ok hregister
  constructor
  · intro event hevent
    obtain ⟨registered, hregistered, hid⟩ := h.registered event hevent
    exact ⟨registered, List.mem_append_left _ hregistered, hid⟩
  · intro registered hregistered
    dsimp only at hregistered ⊢
    rw [List.mem_append, List.mem_singleton] at hregistered
    rcases hregistered with hregistered | rfl
    · exact h.published registered hregistered
    · have hnone : eventsOf generation.id s.bus.sent = [] := by
        rw [List.eq_nil_iff_forall_not_mem]
        intro event hevent
        obtain ⟨hsent, hid⟩ := mem_eventsOf.1 hevent
        obtain ⟨registered, hregistered, hid'⟩ := h.registered event hsent
        unfold Fresh at hfresh
        rw [List.map_append, List.nodup_append] at hfresh
        exact hfresh.2.2 _ (List.mem_map.2 ⟨registered, hregistered, rfl⟩) _ (List.mem_singleton_self _)
          (hid'.trans hid)
      show Published (eventsOf generation.id s.bus.sent) _
      rw [hnone]
      exact {
        routed := fun _ he => absurd he List.not_mem_nil
        ordered := .nil
        positive := fun _ he => absurd he List.not_mem_nil
        watermark := rfl
        preparing := fun _ => rfl
        running := fun _ _ he => absurd he List.not_mem_nil
        terminal := fun hterminal => by cases hterminal
        live := fun live hlive => by
          cases hlive
          exact ⟨rfl, rfl⟩ }
  · refine h.readers_append (List.append_nil _).symm rfl (fun hclosed => ⟨hclosed, rfl⟩) ?_
    unfold GenerationRegistry.routes
    rw [List.map_append]
    exact List.subset_append_left _ _

theorem remove (h : Invariant s) (generation : GenerationId) :
    Invariant { s with registry := s.registry.remove generation } := by
  have hentry : ∀ registered ∈ (s.registry.remove generation).entries, ∃ old ∈ s.registry.entries,
      registered.generation = old.generation ∧ registered.entry = old.entry := by
    intro registered hregistered
    obtain ⟨old, hold, rfl⟩ := List.mem_map.1 hregistered
    refine ⟨old, hold, ?_⟩
    split <;> exact ⟨rfl, rfl⟩
  constructor
  · intro event hevent
    obtain ⟨registered, hregistered, hid⟩ := h.registered event hevent
    refine ⟨_, List.mem_map.2 ⟨registered, hregistered, rfl⟩, ?_⟩
    split <;> exact hid
  · intro registered hregistered
    obtain ⟨old, hold, hid, hsame⟩ := hentry registered hregistered
    rw [hid, hsame]
    exact h.published old hold
  · refine h.readers_append (List.append_nil _).symm rfl (fun hclosed => ⟨hclosed, rfl⟩) ?_
    rw [GenerationRegistry.remove_routes]
    exact List.Subset.refl _

end Invariant

/-- What an action may do to a state. -/
inductive Effect (s : State υ) : Action υ → State υ → Prop
  | refused (action : Action υ) : Effect s action s
  | register {generation : GenerationRecord} {key : GenerationProviderAdmissionKey} {registry : GenerationRegistry} :
    s.registry.register generation key = .ok registry → Effect s (.register generation key) { s with registry }
  | activate {address : Nat} {registered : Registered} {entry : ActiveGeneration} :
    s.registry.entries[address]? = some registered → registered.entry.activate = .ok entry →
    Effect s (.activate address) { s with registry := s.registry.update address entry }
  | publish {address : Nat} {registered : Registered} {entry : ActiveGeneration} {event : ChatEvent υ} :
    s.registry.entries[address]? = some registered → registered.generation = event.generationId →
    s.bus.closed = false → registered.entry.publish event = .ok entry →
    Effect s (.publish address event)
      { s with registry := s.registry.update address entry, bus := s.bus.send event }
  | remove (generation : GenerationId) :
    Effect s (.remove generation) { s with registry := s.registry.remove generation }
  | stream (generation : GenerationId) (conversation : ConversationId) (branch : ConversationBranchId) :
    Effect s (.stream generation conversation branch) { s with
      readers := s.readers ++ [.opened (.new s.bus.sent.length generation conversation branch)] }
  | subscribe {address : Nat} {registered : Registered} {conversation : ConversationId}
    {branch : ConversationBranchId} {baseline : Nat} {stored : Except CoreError GenerationRecord}
    {stream : ChatEventStream} :
    s.registry.entries[address]? = some registered →
    subscribeGeneration registered.entry registered.generation conversation branch baseline stored
      s.bus.sent.length = .ok stream →
    Effect s (.subscribe address conversation branch baseline stored)
      { s with readers := s.readers ++ [.opened stream] }
  | recv (reader : Nat) :
    Effect s (.recv reader) { s with readers := s.readers.modify reader (·.recv s.bus) }
  | close : Effect s .close { s with bus := { s.bus with closed := true } }

theorem act_effect (s : State υ) (action : Action υ) : Effect s action (s.act action) := by
  cases action with
  | register generation key =>
    unfold State.act
    dsimp only
    split
    · next hregister => exact .register hregister
    · exact .refused _
  | activate address =>
    unfold State.act
    dsimp only
    split
    · next haddress =>
      split
      · next hactivate => exact .activate haddress hactivate
      · exact .refused _
    · exact .refused _
  | publish address event =>
    unfold State.act
    dsimp only
    split
    · next haddress =>
      split
      · next hsection =>
        split
        · next hpublish => exact .publish haddress hsection.1 hsection.2 hpublish
        · exact .refused _
      · exact .refused _
    · exact .refused _
  | remove generation => exact .remove generation
  | stream generation conversation branch => exact .stream generation conversation branch
  | subscribe address conversation branch baseline stored =>
    unfold State.act
    dsimp only
    split
    · next haddress =>
      split
      · next hsubscribe => exact .subscribe haddress hsubscribe
      · exact .refused _
    · exact .refused _
  | recv reader => exact .recv reader
  | close => exact .close

namespace Effect

variable {s t : State υ} {action : Action υ}

theorem update_generations (registry : GenerationRegistry) (address : Nat) (entry : ActiveGeneration) :
    (registry.update address entry).entries.map (·.generation) = registry.entries.map (·.generation) :=
  map_modify_eq fun _ _ => rfl

theorem remove_generations (registry : GenerationRegistry) (generation : GenerationId) :
    (registry.remove generation).entries.map (·.generation) = registry.entries.map (·.generation) := by
  unfold GenerationRegistry.remove
  rw [List.map_map]
  refine List.map_congr_left fun registered _ => ?_
  rw [Function.comp_apply]
  split <;> rfl

/-- An action only adds to the generations that were registered. -/
theorem fresh (h : Effect s action t) (hfresh : Fresh t.registry) : Fresh s.registry := by
  unfold Fresh at hfresh ⊢
  cases h with
  | register hregister =>
    obtain ⟨assistant, rfl, -⟩ := GenerationRegistry.register_ok hregister
    dsimp only at hfresh
    rw [List.map_append] at hfresh
    exact (List.nodup_append.1 hfresh).1
  | activate _ _ => rwa [update_generations] at hfresh
  | publish _ _ _ _ => rwa [update_generations] at hfresh
  | remove generation => rwa [remove_generations] at hfresh
  | refused => exact hfresh
  | stream _ _ _ => exact hfresh
  | subscribe _ _ => exact hfresh
  | recv _ => exact hfresh
  | close => exact hfresh

theorem admitted (h : Effect s action t) (hadmitted : Admitted s.registry) : Admitted t.registry := by
  cases h with
  | register hregister => exact hadmitted.register hregister
  | activate haddress hactivate => exact hadmitted.update haddress (activate_same hactivate)
  | publish haddress _ _ hpublish => exact hadmitted.update haddress (publish_same hpublish)
  | remove generation => exact hadmitted.of_sublist (GenerationRegistry.remove_slots _ _)
  | refused => exact hadmitted
  | stream _ _ _ => exact hadmitted
  | subscribe _ _ => exact hadmitted
  | recv _ => exact hadmitted
  | close => exact hadmitted

/-- **One action.** -/
theorem invariant (h : Effect s action t) (hs : Invariant s) (hfresh : Fresh t.registry) : Invariant t := by
  have hbefore := h.fresh hfresh
  cases h with
  | refused => exact hs
  | register hregister => exact hs.register hregister hfresh
  | activate haddress hactivate =>
    have hpublished := (hs.published _ (List.mem_of_getElem? haddress)).activate hactivate
    refine hs.update hbefore haddress (activate_same hactivate).1 (List.append_nil _).symm rfl
      (fun hclosed => ⟨hclosed, rfl⟩) (fun _ he => absurd he List.not_mem_nil) ?_
    rwa [List.append_nil]
  | publish haddress hgeneration hopen hpublish =>
    have hpublished := (hs.published _ (List.mem_of_getElem? haddress)).publish hpublish
    refine hs.update hbefore haddress (publish_same hpublish).1 (Broadcast.send_sent _ _) rfl (fun hclosed => ?_)
      (fun e he => ?_) hpublished
    · cases hclosed.symm.trans hopen
    · rw [List.mem_singleton.1 he]
      exact hgeneration.symm
  | remove generation => exact hs.remove generation
  | stream generation conversation branch => exact hs.opened (Invariant.new_stream s generation conversation branch)
  | subscribe haddress hsubscribe =>
    exact hs.opened (hs.subscribed (List.mem_of_getElem? haddress) hsubscribe)
  | recv reader =>
    refine ⟨hs.registered, hs.published, fun x hx => ?_⟩
    obtain ⟨i, hi⟩ := List.mem_iff_getElem?.1 hx
    rw [List.getElem?_modify] at hi
    obtain ⟨old, hold, rfl⟩ := Option.map_eq_some_iff.1 hi
    obtain ⟨hfollowing, hattached⟩ := hs.readers old (List.mem_of_getElem? hold)
    split
    · exact ⟨hfollowing.recv hs.protocol hbefore.routes, hattached.recv s.bus⟩
    · exact ⟨hfollowing, hattached⟩
  | close =>
    exact ⟨hs.registered, hs.published, hs.readers_append (List.append_nil _).symm rfl (fun _ => ⟨rfl, rfl⟩)
      (List.Subset.refl _)⟩

end Effect

theorem initial_invariant (capacity : Nat) : Invariant (State.initial capacity : State υ) where
  registered _ hevent := absurd hevent List.not_mem_nil
  published _ hregistered := absurd hregistered List.not_mem_nil
  readers _ hreader := absurd hreader List.not_mem_nil

theorem invariant_reachable {capacity : Nat} {s : State υ} (h : s.Reachable capacity) (hfresh : Fresh s.registry) :
    Invariant s := by
  induction h with
  | refl => exact initial_invariant capacity
  | tail _ hstep ih =>
    obtain ⟨action, rfl⟩ := hstep
    exact (act_effect _ action).invariant (ih ((act_effect _ action).fresh hfresh)) hfresh

theorem admitted_reachable {capacity : Nat} {s : State υ} (h : s.Reachable capacity) : Admitted s.registry := by
  induction h with
  | refl => exact ⟨Nat.zero_le _, fun _ => Nat.zero_le _, fun _ => Nat.zero_le _, .nil⟩
  | tail _ hstep ih =>
    obtain ⟨action, rfl⟩ := hstep
    exact (act_effect _ action).admitted ih

/-! ## Results -/

/-- The registry and the bus of a running system: who may run, and what was sent of each generation. -/
structure Orderly (s : State υ) : Prop where
  process : s.registry.values.length ≤ maxActiveGenerationsPerProcess
  conversation : ∀ conversation, s.registry.values.countP (·.entry.route.conversation = conversation) ≤
    maxActiveGenerationsPerConversation
  provider : ∀ key, s.registry.values.countP (·.entry.providerAdmissionKey = key) ≤ maxActiveGenerationsPerProvider
  registered : ∀ event ∈ s.bus.sent, ∃ registered ∈ s.registry.entries, registered.generation = event.generationId
  published : ∀ registered ∈ s.registry.entries,
    Published (eventsOf registered.generation s.bus.sent) registered.entry

/-- **The registry over whole runs.** -/
theorem orderly {capacity : Nat} {s : State υ} (h : s.Reachable capacity) (hfresh : Fresh s.registry) :
    Orderly s := by
  have hinvariant := invariant_reachable h hfresh
  have hadmitted := admitted_reachable h
  refine ⟨?_, fun conversation => ?_, fun key => ?_, hinvariant.registered, hinvariant.published⟩
  · have hprocess := hadmitted.process
    rwa [GenerationRegistry.slots_eq, List.length_map] at hprocess
  · have hconversation := hadmitted.conversation conversation
    rwa [GenerationRegistry.slots_eq, List.countP_map] at hconversation
  · have hprovider := hadmitted.provider key
    rwa [GenerationRegistry.slots_eq, List.countP_map] at hprovider

/-- The state after some actions. -/
def State.run (capacity : Nat) (actions : List (Action υ)) : State υ := actions.foldl State.act (.initial capacity)

theorem reachable_run (capacity : Nat) (actions : List (Action υ)) : (State.run capacity actions).Reachable capacity :=
    by
  unfold State.run
  induction actions using List.reverseRecOn with
  | nil => exact .refl
  | append_singleton actions action ih =>
    rw [List.foldl_append]
    exact .tail ih ⟨action, rfl⟩

def tavernEvent (sequence : Nat) (kind : ChatEventKind Unit) : ChatEvent Unit :=
  (ChatEvent.new "g1" "tavern" sequence kind).withRoute "main" "reply"

def tavernRecord : GenerationRecord := ⟨"g1", "tavern", "main", some "reply", .running⟩

/-- A stream that attaches after the first word reads the rest. -/
def tavernRun : State Unit := .run 256
  [.register tavernRecord (.connection "local"), .activate 0, .publish 0 (tavernEvent 1 .generationStarted),
    .publish 0 (tavernEvent 2 (.textDelta "The door ")), .subscribe 0 "tavern" "main" 1 (.ok tavernRecord), .recv 0,
    .publish 0 (tavernEvent 4 (.textDelta "opens.")), .publish 0 (tavernEvent 5 .generationFinished), .recv 0, .recv 0,
    .remove "g1"]

theorem orderly_tavern : Fresh tavernRun.registry ∧ Orderly tavernRun := by
  have hfresh : Fresh tavernRun.registry := by
    unfold Fresh
    decide +kernel
  exact ⟨hfresh, orderly (reachable_run 256 _) hfresh⟩

end LorePia.Delivery
