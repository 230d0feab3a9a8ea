import LorePia.Base.Json
import LorePia.Chat.Generation
import LorePia.Domain.Content
import LorePia.Providers.Sse

/-!
# Provider event streams (`crates/providers/src/lib.rs`, `crates/domain/src/provider.rs`)

What the streaming adapters share: the identifiers of tool calls, the usage record and the data lines of an
event. An identifier or a name is its text. The raw usage summary is a JSON object of counters under static
names, which is written and read back at each merge: it is the map of the counters here (a few counters are
within the size limit of the summary).
-/

namespace LorePia

open Base

def maxToolCallIdBytes : Nat := 512
def maxToolCallIdChars : Nat := 256
def maxToolNameBytes : Nat := 256
def maxToolNameChars : Nat := 128

def validateBoundedProtocolText (label value : String) (maxBytes maxChars : Nat)
    (rejectSurroundingWhitespace : Bool) : Except String Unit := do
  rejectIf (value = "") s!"{label} must not be empty"
  rejectIf (rejectSurroundingWhitespace = true ∧ trim value ≠ value)
    s!"{label} must not contain surrounding whitespace"
  rejectIf (hasControl value = true) s!"{label} must not contain control characters"
  rejectIf (value.utf8ByteSize > maxBytes ∨ value.length > maxChars)
    s!"{label} exceeds the {maxBytes}-byte or {maxChars}-character limit"

/-- `ToolCallId::parse`. -/
def parseToolCallId (value : String) : Except String Unit :=
  validateBoundedProtocolText "tool call id" value maxToolCallIdBytes maxToolCallIdChars false

/-- `ToolName::parse`. -/
def parseToolName (value : String) : Except String Unit :=
  validateBoundedProtocolText "tool name" value maxToolNameBytes maxToolNameChars true

/-! ## Usage -/

structure GenerationUsage where
  inputTokens : Option Nat
  cachedReadTokens : Option Nat
  cachedWriteTokens : Option Nat
  outputTokens : Option Nat
  reasoningTokens : Option Nat
  toolTokens : Option Nat
  providerRawSummary : Option (OrdMap String Nat)

/-- `GenerationUsage::default`. -/
def GenerationUsage.empty : GenerationUsage := ⟨none, none, none, none, none, none, none⟩

def mergeUsageSummary (current : Option (OrdMap String Nat)) (fields : List (String × Option Nat)) :
    Option (OrdMap String Nat) :=
  let object := fields.foldl (fun object field => object.insertOption field.1 field.2) (current.getD .empty)
  if object.entries = [] then none else some object

/-! ## Event data -/

/-- The lines of an event: it is split at every carriage return and line feed. -/
def eventLines (text : String) : List String :=
  (text.toList.splitOnP fun c => c = '\r' ∨ c = '\n').map String.ofList

/-- `line.strip_prefix(start)`. -/
def afterStart (start line : String) : Option String :=
  if start.toList <+: line.toList then some (String.ofList (line.toList.drop start.length)) else none

/-- The data of a line of an event. -/
def lineData (line : String) : Option String :=
  (afterStart "data:" line).map fun data => (afterStart " " data).getD data

end LorePia
