import LorePia.Base.Bytes
import LorePia.Base.Grammar
import LorePia.Base.Word
import LorePia.Domain.Error

/-!
# MessagePack (`crates/content/src/imported_compatibility/messagepack.rs`)

The constant fields of the source's parser are its input, the others its state. `value` at `levels` is the
source's at depth `max_depth + 1 - levels`. Reading an index that does not exist panics.
-/

namespace LorePia

open Base

inductive MessagePackValue
  | null
  | bool (value : Bool)
  | i64 (value : Int)
  | u64 (value : Nat)
  | f64 (value : Float)
  | string (value : String)
  | binary (value : List UInt8)
  | array (values : List MessagePackValue)
  | map (values : List (MessagePackValue × MessagePackValue))

inductive MessagePackStop
  | failed (error : CoreError)
  | panicked
deriving DecidableEq

/-- The bytes, limits and label of a parser; a slice has at most `isize::MAX` bytes. -/
structure MessagePackParser where
  bytes : List UInt8
  maxDepth : Nat
  maxNodes : Nat
  label : String
  length_lt : bytes.length < 2 ^ 63

structure ParserState where
  position : Nat
  nodes : Nat
deriving DecidableEq

abbrev Parse := Decoder ParserState MessagePackStop

section
variable (parser : MessagePackParser)

/-- `Parser::invalid`. -/
def MessagePackParser.error (message : String) : MessagePackStop :=
  .failed ⟨.unsupportedContent, s!"{parser.label} {message}", false⟩

def MessagePackParser.invalid {α : Type} (message : String) : Parse α := throw (parser.error message)

def MessagePackParser.take (len : Nat) : Parse (List UInt8) := do
  let s ← get
  match (checkedAdd s.position len).filter (· ≤ parser.bytes.length) with
  | none => parser.invalid "is truncated"
  | some stop =>
    set { s with position := stop }
    pure (slice parser.bytes s.position (stop - s.position))

def MessagePackParser.byte : Parse UInt8 := do
  match ← parser.take 1 with
  | [] => throw .panicked
  | byte :: _ => pure byte

/-- A big-endian number of a width in bytes. -/
def MessagePackParser.unsigned (width : Nat) : Parse Nat := do
  let bytes ← parser.take width
  if bytes.length = width then pure (beNat bytes) else throw .panicked

def MessagePackParser.u16 : Parse Nat := parser.unsigned 2

/-- `Parser::u32`; `Parser::length_u32` is the same where `usize` has 64 bits. -/
def MessagePackParser.u32 : Parse Nat := parser.unsigned 4

def MessagePackParser.u64 : Parse Nat := parser.unsigned 8

def MessagePackParser.string (len : Nat) : Parse MessagePackValue := do
  let bytes ← parser.take len
  match String.fromUTF8? ⟨bytes.toArray⟩ with
  | none => parser.invalid "contains invalid UTF-8"
  | some value => pure (.string value)

def MessagePackParser.binary (len : Nat) : Parse MessagePackValue := do
  let bytes ← parser.take len
  pure (.binary bytes)

def MessagePackParser.extension (len : Nat) : Parse MessagePackValue := do
  let _ ← parser.byte
  let _ ← parser.take len
  pure .null

def MessagePackParser.collectionLength (additionalNodes : Nat) : Parse Unit := do
  let s ← get
  if additionalNodes > parser.maxNodes - s.nodes then parser.invalid "declares too many collection items"

/-- `Parser::array`, for the values of the next depth. -/
def MessagePackParser.array (value : Parse MessagePackValue) (len : Nat) : Parse MessagePackValue := do
  parser.collectionLength len
  let values ← times value len
  pure (.array values)

/-- `Parser::map`, for the values of the next depth. -/
def MessagePackParser.map (value : Parse MessagePackValue) (len : Nat) : Parse MessagePackValue := do
  parser.collectionLength (min (len * 2) usizeMax)
  let values ← times (do
    let key ← value
    let item ← value
    pure (key, item)) len
  pure (.map values)

/-- `cast_signed` of the bits of a width. -/
def castSigned (bits n : Nat) : Int := if n < 2 ^ (bits - 1) then n else n - 2 ^ bits

/-- The match of `Parser::value`. -/
def MessagePackParser.marked (value : Parse MessagePackValue) (marker : UInt8) : Parse MessagePackValue :=
  if marker.toNat ≤ 0x7f then pure (.u64 marker.toNat)
  else if marker.toNat ≤ 0x8f then parser.map value (marker &&& 0x0f).toNat
  else if marker.toNat ≤ 0x9f then parser.array value (marker &&& 0x0f).toNat
  else if marker.toNat ≤ 0xbf then parser.string (marker &&& 0x1f).toNat
  else match marker.toNat with
    | 0xc0 => pure .null
    | 0xc1 => parser.invalid "uses the reserved 0xc1 marker"
    | 0xc2 => pure (.bool false)
    | 0xc3 => pure (.bool true)
    | 0xc4 => do parser.binary (← parser.byte).toNat
    | 0xc5 => do parser.binary (← parser.u16)
    | 0xc6 => do parser.binary (← parser.u32)
    | 0xc7 => do parser.extension (← parser.byte).toNat
    | 0xc8 => do parser.extension (← parser.u16)
    | 0xc9 => do parser.extension (← parser.u32)
    | 0xca => do pure (.f64 (Float32.ofBits (UInt32.ofNat (← parser.u32))).toFloat)
    | 0xcb => do pure (.f64 (Float.ofBits (UInt64.ofNat (← parser.u64))))
    | 0xcc => do pure (.u64 (← parser.byte).toNat)
    | 0xcd => do pure (.u64 (← parser.u16))
    | 0xce => do pure (.u64 (← parser.u32))
    | 0xcf => do pure (.u64 (← parser.u64))
    | 0xd0 => do pure (.i64 (castSigned 8 (← parser.byte).toNat))
    | 0xd1 => do pure (.i64 (castSigned 16 (← parser.u16)))
    | 0xd2 => do pure (.i64 (castSigned 32 (← parser.u32)))
    | 0xd3 => do pure (.i64 (castSigned 64 (← parser.u64)))
    | 0xd4 => parser.extension 1
    | 0xd5 => parser.extension 2
    | 0xd6 => parser.extension 4
    | 0xd7 => parser.extension 8
    | 0xd8 => parser.extension 16
    | 0xd9 => do parser.string (← parser.byte).toNat
    | 0xda => do parser.string (← parser.u16)
    | 0xdb => do parser.string (← parser.u32)
    | 0xdc => do parser.array value (← parser.u16)
    | 0xdd => do parser.array value (← parser.u32)
    | 0xde => do parser.map value (← parser.u16)
    | 0xdf => do parser.map value (← parser.u32)
    | n => pure (.i64 (castSigned 8 n))

/-- The count of a node. -/
def MessagePackParser.countNode : Parse Unit := do
  let s ← get
  let nodes := min (s.nodes + 1) usizeMax
  set { s with nodes := nodes }
  if nodes > parser.maxNodes then parser.invalid "structure exceeds the node limit"

def MessagePackParser.value : Nat → Parse MessagePackValue
  | 0 => parser.invalid "nesting exceeds the limit"
  | levels + 1 => do
    parser.countNode
    let marker ← parser.byte
    parser.marked (MessagePackParser.value levels) marker

def MessagePackParser.decode : Except MessagePackStop MessagePackValue := do
  let (value, s) ← (parser.value (parser.maxDepth + 1)).run ⟨0, 0⟩
  rejectIf (s.position ≠ parser.bytes.length) (parser.error "has trailing bytes")
  pure value

end

end LorePia
