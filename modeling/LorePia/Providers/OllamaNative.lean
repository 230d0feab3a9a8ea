import LorePia.Providers.Sse

/-!
# Ollama line framing (`crates/providers/src/ollama_native.rs`)

`consume_chat_stream` cuts a stream into lines and hands each to `process_chat_line`, which is a parameter
here. `consumeLines` is its loop with the check of the total size left open: `consumeChatStream` puts in
`ensure_stream_size`, `frameLines` is the line framing by itself. Both end with the action of the last line;
the error for a stream that ends without a terminal response is the caller's.
-/

namespace LorePia

open Base

def maxJsonlLineBytes : Nat := 1024 * 1024

def jsonlLineTooLargeError : CoreError := streamingError "Ollama streaming line exceeded 1 MiB"

/-- `chunk.split_inclusive(|byte| *byte == b'\n')`. -/
def splitInclusive : List Byte → List (List Byte)
  | [] => []
  | byte :: rest =>
    if byte = lf then [byte] :: splitInclusive rest
    else
      match splitInclusive rest with
      | [] => [[byte]]
      | segment :: segments => (byte :: segment) :: segments

def ensureJsonlLineSize (size : Nat) : Except CoreError Unit :=
  rejectIf (size > maxJsonlLineBytes) jsonlLineTooLargeError

def ensurePendingJsonlSize (pending : List Byte) : Except CoreError Unit :=
  ensureJsonlLineSize (pending.length - if pending.getLast? = some cr then 1 else 0)

/-- `if pending.last() == Some(&b'\r') { pending.pop(); }`. -/
def popCarriageReturn (pending : List Byte) : List Byte :=
  if pending.getLast? = some cr then pending.dropLast else pending

/-- `ensure_stream_size`. -/
def ensureOllamaStreamSize (size : Nat) : Except CoreError Unit :=
  rejectIf (size > maxStreamBytes) (streamingError "Ollama stream exceeded 64 MiB")

abbrev LineAction := FrameAction

section
variable {σ : Type} (processChatLine : List Byte → Stateful σ CoreError LineAction)

/-- The loop over the segments of a chunk; `none` when the handler is done, else what is pending. -/
def takeSegments : List (List Byte) → List Byte → Stateful σ CoreError (Option (List Byte))
  | [], pending => pure (some pending)
  | segment :: segments, pending => do
    let terminated : Bool := segment.getLast? = some lf
    let content := if terminated then segment.dropLast else segment
    let combinedEndsWithCarriageReturn : Bool := content.getLast?.or pending.getLast? = some cr
    let trailingCarriageReturn := if terminated && combinedEndsWithCarriageReturn then 1 else 0
    let projectedSize := pending.length + content.length - trailingCarriageReturn
    Stateful.lift (ensureJsonlLineSize projectedSize)
    if terminated then
      match ← processChatLine (popCarriageReturn (pending ++ content)) with
      | .done => pure none
      | .continue => takeSegments segments []
    else takeSegments segments (pending ++ content)

/-- What is pending at the end of the stream. -/
def takeLastLine (pending : List Byte) : Stateful σ CoreError LineAction := do
  let line := popCarriageReturn pending
  Stateful.lift (ensureJsonlLineSize line.length)
  if line = [] then pure .continue else processChatLine line

/-- The loop over the chunks. -/
def consumeLines (ensureTotal : Nat → Except CoreError Unit) :
    List (List Byte) → Nat → List Byte → Stateful σ CoreError LineAction
  | [], _, pending => takeLastLine processChatLine pending
  | chunk :: chunks, totalStreamBytes, pending => do
    let totalStreamBytes := totalStreamBytes + chunk.length
    Stateful.lift (ensureTotal totalStreamBytes)
    match ← takeSegments processChatLine (splitInclusive chunk) pending with
    | none => pure .done
    | some pending => do
      Stateful.lift (ensurePendingJsonlSize pending)
      consumeLines ensureTotal chunks totalStreamBytes pending

def consumeChatStream (chunks : List (List Byte)) : Stateful σ CoreError LineAction :=
  consumeLines processChatLine ensureOllamaStreamSize chunks 0 []

/-- The line framing of `consume_chat_stream`. -/
def frameLines (chunks : List (List Byte)) : Stateful σ CoreError LineAction :=
  consumeLines processChatLine (fun _ => .ok ()) chunks 0 []

end

end LorePia
