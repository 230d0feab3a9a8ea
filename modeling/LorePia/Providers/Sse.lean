import LorePia.Base.Framing
import LorePia.Domain.Error

/-!
# Server-sent events (`crates/providers/src/sse.rs`)

`SseEventBuffer` keeps the bytes that have arrived, where the open event starts and where the search for
its end goes on. `frameStream` is the loop of `OpenAiCompatibleProvider::generate`
(`crates/providers/src/openai_compatible.rs`) around it: the other SSE providers have the same loop. A turn
of the loop takes at least a separator off the buffer, so the length of the buffer is fuel enough.
Cancellation and network failures end the loop from outside and are left out.
-/

namespace LorePia

open Base

abbrev Byte := UInt8

def cr : Byte := 13
def lf : Byte := 10

def sseEventSeparators : List (List Byte) :=
  [[cr, lf, cr, lf], [lf, cr, lf], [cr, cr, lf], [cr, lf, lf], [cr, lf, cr], [lf, lf], [lf, cr], [cr, cr]]

def maxSseBufferBytes : Nat := 1024 * 1024
def maxStreamBytes : Nat := 64 * 1024 * 1024
def minCompactionBytes : Nat := 64 * 1024

structure SseEventBoundary where
  eventLen : Nat
  separatorLen : Nat
deriving DecidableEq, Repr

structure SseEventBuffer where
  bytes : List Byte
  start : Nat
  scanFrom : Nat
deriving DecidableEq, Repr

/-- `SseEventBuffer::default`. -/
def SseEventBuffer.empty : SseEventBuffer := ⟨[], 0, 0⟩

namespace SseEventBuffer

def activeBytes (buffer : SseEventBuffer) : List Byte := buffer.bytes.drop buffer.start

/-- The inner loop of `next_boundary`. -/
def separatorAt (buffer : SseEventBuffer) (separators : List (List Byte)) (endOfStream : Bool)
    (position : Nat) : Option (List Byte) :=
  separators.find? fun separator =>
    let endsAtBufferEdge := position + separator.length == buffer.bytes.length
    separator.isPrefixOf (buffer.bytes.drop position) &&
      (endOfStream || !(separator.getLast? == some cr) || !endsAtBufferEdge)

/-- The bytes at the end of the buffer where a separator may still begin. -/
def separatorOverlap (separators : List (List Byte)) : Nat :=
  ((separators.map fun separator =>
    if separator.getLast? = some cr then separator.length else separator.length - 1).max?).getD 0

def nextBoundary (buffer : SseEventBuffer) (separators : List (List Byte)) (endOfStream : Bool) :
    Option SseEventBoundary × SseEventBuffer :=
  let first := max buffer.scanFrom buffer.start
  let found := (List.range' first (buffer.bytes.length - first)).findSome? fun position =>
    (buffer.separatorAt separators endOfStream position).map fun separator =>
      (⟨position - buffer.start, separator.length⟩ : SseEventBoundary)
  match found with
  | some boundary => (some boundary, buffer)
  | none => (none, { buffer with
      scanFrom := max (buffer.bytes.length - separatorOverlap separators) buffer.start })

/-- `take_event`: the event, and the buffer after it. -/
def takeEvent (buffer : SseEventBuffer) (boundary : SseEventBoundary) : List Byte × SseEventBuffer :=
  let eventEnd := buffer.start + boundary.eventLen
  ((buffer.bytes.take eventEnd).drop buffer.start,
    { buffer with
      start := eventEnd + boundary.separatorLen
      scanFrom := eventEnd + boundary.separatorLen })

def compactIfWorthwhile (buffer : SseEventBuffer) : SseEventBuffer :=
  if buffer.start = buffer.bytes.length then empty
  else if buffer.start < minCompactionBytes ∨ buffer.start < buffer.bytes.length / 2 then buffer
  else ⟨buffer.bytes.drop buffer.start, 0, 0⟩

def extendChunkAndFindBoundary (buffer : SseEventBuffer) (bytes : List Byte)
    (separators : List (List Byte)) : Option SseEventBoundary × SseEventBuffer :=
  if bytes = [] then (none, buffer)
  else
    let buffer := buffer.compactIfWorthwhile
    { buffer with bytes := buffer.bytes ++ bytes }.nextBoundary separators false

end SseEventBuffer

/-! ## The loop of `generate` -/

def eventTooLargeError : CoreError := streamingError "provider streaming event exceeded 1 MiB"

def streamTooLargeError : CoreError := streamingError "provider stream exceeded 64 MiB"

def ensureEventSize (size : Nat) : Except CoreError Unit :=
  rejectIf (size > maxSseBufferBytes) eventTooLargeError

/-- Bytes that a separator begins with. -/
def isPossibleSeparator (bytes : List Byte) : Bool :=
  sseEventSeparators.any fun separator => bytes.length < separator.length && bytes.isPrefixOf separator

def ensurePendingSize (bytes : List Byte) (endOfStream : Bool) : Except CoreError Unit :=
  if bytes.length ≤ maxSseBufferBytes then .ok ()
  else if !endOfStream && isPossibleSeparator (bytes.drop maxSseBufferBytes) then .ok ()
  else .error eventTooLargeError

def ensureStreamSize (size : Nat) : Except CoreError Unit :=
  rejectIf (size > maxStreamBytes) streamTooLargeError

abbrev EventAction := FrameAction

section
variable {σ : Type} (processEvent : List Byte → Stateful σ CoreError EventAction)

/-- The loop over the events of the buffer; `none` when the handler is done. -/
def takeEvents (endOfStream : Bool) :
    Nat → Option SseEventBoundary × SseEventBuffer → Stateful σ CoreError (Option SseEventBuffer)
  | 0, found => pure (some found.2)
  | fuel + 1, found =>
    match found.1 with
    | none => pure (some found.2)
    | some boundary => do
      Stateful.lift (ensureEventSize boundary.eventLen)
      let taken := found.2.takeEvent boundary
      match ← processEvent taken.1 with
      | .done => pure none
      | .continue =>
        takeEvents endOfStream fuel (taken.2.nextBoundary sseEventSeparators endOfStream)

/-- The chunks, with the bytes that came before them. -/
def takeChunks : List (List Byte) → Nat → SseEventBuffer → Stateful σ CoreError (Option SseEventBuffer)
  | [], _, pending => pure (some pending)
  | chunk :: chunks, totalStreamBytes, pending => do
    let totalStreamBytes := totalStreamBytes + chunk.length
    Stateful.lift (ensureStreamSize totalStreamBytes)
    let found := pending.extendChunkAndFindBoundary chunk sseEventSeparators
    match ← takeEvents processEvent false found.2.bytes.length found with
    | none => pure none
    | some pending => do
      Stateful.lift (ensurePendingSize pending.activeBytes false)
      takeChunks chunks totalStreamBytes pending

/-- The stream: `none` when the handler is done, else the bytes after the last event. -/
def frameStream (chunks : List (List Byte)) : Stateful σ CoreError (Option (List Byte)) := do
  match ← takeChunks processEvent chunks 0 .empty with
  | none => pure none
  | some pending =>
    match ← takeEvents processEvent true pending.bytes.length
        (pending.nextBoundary sseEventSeparators true) with
    | none => pure none
    | some pending => do
      Stateful.lift (ensurePendingSize pending.activeBytes true)
      pure (some pending.activeBytes)

end

end LorePia
