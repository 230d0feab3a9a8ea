import LorePia.Base.Run
import LorePia.ShellApi.Stream

/-!
# Delivering the events of running generations

The registry, the event bus and the streams that read it, as one transition system. Each action is what runs
under one lock, so the runs are the interleavings of launching, publishing, subscribing and reading. An action
on an entry names its address: it has looked it up at some moment before, when the map had it, and the entry may
have left the map since. An action that is refused changes nothing. The channel keeps no event that is sent while
nobody reads; a stream made later starts after it, so the log may have it.
-/

namespace LorePia.Delivery

open Base

structure State (υ : Type) where
  registry : GenerationRegistry
  bus : Broadcast (ChatEvent υ)
  readers : List (Reader υ)

inductive Action (υ : Type)
  | register (generation : GenerationRecord) (key : GenerationProviderAdmissionKey)
  | activate (address : Nat)
  | publish (address : Nat) (event : ChatEvent υ)
  | remove (generation : GenerationId)
  | stream (generation : GenerationId) (conversation : ConversationId) (branch : ConversationBranchId)
  | subscribe (address : Nat) (conversation : ConversationId) (branch : ConversationBranchId) (baseline : Nat)
      (stored : Except CoreError GenerationRecord)
  | recv (reader : Nat)
  | close

variable {υ : Type}

namespace State

/-- No generation was registered and nothing was sent. -/
def initial (capacity : Nat) : State υ := ⟨⟨[]⟩, ⟨capacity, [], false⟩, []⟩

/-- What an action does. -/
def act (s : State υ) : Action υ → State υ
  | .register generation key =>
    match s.registry.register generation key with
    | .ok registry => { s with registry }
    | .error _ => s
  | .activate address =>
    match s.registry.entries[address]? with
    | some registered =>
      match registered.entry.activate with
      | .ok entry => { s with registry := s.registry.update address entry }
      | .error _ => s
    | none => s
  | .publish address event =>
    match s.registry.entries[address]? with
    | some registered =>
      if registered.generation = event.generationId ∧ s.bus.closed = false then
        match registered.entry.publish event with
        | .ok entry => { s with registry := s.registry.update address entry, bus := s.bus.send event }
        | .error _ => s
      else s
    | none => s
  | .remove generation => { s with registry := s.registry.remove generation }
  | .stream generation conversation branch =>
    { s with readers := s.readers ++ [.opened (.new s.bus.sent.length generation conversation branch)] }
  | .subscribe address conversation branch baseline stored =>
    match s.registry.entries[address]? with
    | some registered =>
      match subscribeGeneration registered.entry registered.generation conversation branch baseline stored
          s.bus.sent.length with
      | .ok stream => { s with readers := s.readers ++ [.opened stream] }
      | .error _ => s
    | none => s
  | .recv reader => { s with readers := s.readers.modify reader (·.recv s.bus) }
  | .close => { s with bus := { s.bus with closed := true } }

/-- Some action leads from one state to the next. -/
def Step (s t : State υ) : Prop := ∃ action, t = s.act action

/-- The states that some order of actions leads to. -/
def Reachable (capacity : Nat) (s : State υ) : Prop := Relation.ReflTransGen Step (initial capacity) s

end State

end LorePia.Delivery
