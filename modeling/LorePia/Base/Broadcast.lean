import Mathlib.Data.List.Basic

/-!
# A broadcast channel

A bounded channel with one log of the values sent to it and readers that each have a position of their own.
The channel keeps the last `capacity` values. A reader behind them is told how many it missed and goes on
with the oldest one kept (`Broadcast.recv`).

`stretch values start stop` is what lies between two positions of a log: a reader that is told of nothing
missed has received the stretch from where it started to where it is (`stretch_succ`).
-/

namespace Base

variable {α : Type}

structure Broadcast (α : Type) where
  capacity : Nat
  sent : List α
  closed : Bool

/-- What a reader gets. -/
inductive Received (α : Type)
  | value (value : α)
  | lagged (missed : Nat)
  | closed

namespace Broadcast

/-- The position of the oldest value that is kept. -/
def oldest (channel : Broadcast α) : Nat := channel.sent.length - channel.capacity

def send (channel : Broadcast α) (value : α) : Broadcast α :=
  { channel with sent := channel.sent ++ [value] }

/-- What a reader at a position gets and where it is afterwards; nothing while it has to wait. -/
def recv (channel : Broadcast α) (next : Nat) : Option (Received α × Nat) :=
  if next < channel.oldest then some (.lagged (channel.oldest - next), channel.oldest)
  else match channel.sent[next]? with
    | some value => some (.value value, next + 1)
    | none => if channel.closed then some (.closed, next) else none

@[simp] theorem send_sent (channel : Broadcast α) (value : α) :
    (channel.send value).sent = channel.sent ++ [value] := rfl

/-- The four things that can happen to a reader. -/
theorem recv_cases (channel : Broadcast α) (next : Nat) :
    (channel.recv next = none ∧ channel.closed = false) ∨
    (∃ value, channel.sent[next]? = some value ∧ channel.recv next = some (.value value, next + 1)) ∨
    (next + channel.capacity < channel.sent.length ∧
      channel.recv next = some (.lagged (channel.oldest - next), channel.oldest)) ∨
    (channel.closed = true ∧ channel.sent.length ≤ next ∧ channel.recv next = some (.closed, next)) := by
  unfold recv
  by_cases hbehind : next < channel.oldest
  · rw [if_pos hbehind]
    unfold oldest at hbehind
    exact .inr (.inr (.inl ⟨by omega, rfl⟩))
  · rw [if_neg hbehind]
    cases hvalue : channel.sent[next]? with
    | some value => exact .inr (.inl ⟨value, rfl, rfl⟩)
    | none =>
      cases hclosed : channel.closed with
      | false => exact .inl ⟨rfl, rfl⟩
      | true => exact .inr (.inr (.inr ⟨rfl, List.getElem?_eq_none_iff.1 hvalue, rfl⟩))

end Broadcast

/-! ## Segments of a log -/

/-- What lies between two positions. -/
def stretch (values : List α) (start stop : Nat) : List α := (values.take stop).drop start

theorem stretch_self (values : List α) (start : Nat) : stretch values start start = [] := by
  unfold stretch
  rw [List.drop_eq_nil_iff, List.length_take]
  exact Nat.min_le_left _ _

theorem stretch_succ {values : List α} {start stop : Nat} {value : α} (hstart : start ≤ stop)
    (hvalue : values[stop]? = some value) :
    stretch values start (stop + 1) = stretch values start stop ++ [value] := by
  have hlength : stop < values.length := (List.getElem?_eq_some_iff.1 hvalue).1
  unfold stretch
  rw [List.take_add_one, hvalue, Option.toList_some, List.drop_append_of_le_length]
  rw [List.length_take]
  omega

/-- A stretch stays what it is while the log grows. -/
theorem stretch_append {values : List α} (more : List α) {start stop : Nat} (hstop : stop ≤ values.length) :
    stretch (values ++ more) start stop = stretch values start stop := by
  unfold stretch
  rw [List.take_append_of_le_length hstop]

end Base
