import LorePia.Base.Bytes
import LorePia.Domain.Error

/-!
# PNG cards (`crates/content/src/png.rs`)

`extract_card_metadata` walks the chunks of a stream and returns the decoded text of a `ccv3` chunk, or of
the first `chara` chunk when the stream ends without one. A reader is the bytes that are left of it. The
zlib decoder and the base64 decoder are parameters (`PngExternals`).
-/

namespace LorePia

open Base

def pngSignature : List UInt8 := [0x89, 0x50, 0x4e, 0x47, 0x0d, 0x0a, 0x1a, 0x0a]
def maxPngChunks : Nat := 4096
def maxChunkBytes : Nat := 16 * 1024 * 1024
def maxKeywordBytes : Nat := 79
def maxDecodedBytes : Nat := 4 * 1024 * 1024
def chunkTypeLength : Nat := 4
def chunkCrcLength : Nat := 4
/-- `tEXt`. -/
def textChunk : List UInt8 := [0x74, 0x45, 0x58, 0x74]
/-- `zTXt`. -/
def compressedTextChunk : List UInt8 := [0x7a, 0x54, 0x58, 0x74]
/-- `IEND`. -/
def endChunk : List UInt8 := [0x49, 0x45, 0x4e, 0x44]
/-- `ccv3`. Preferred whenever both are present. -/
def v3Keyword : List UInt8 := [0x63, 0x63, 0x76, 0x33]
/-- `chara`. -/
def v2Keyword : List UInt8 := [0x63, 0x68, 0x61, 0x72, 0x61]

structure PngExternals where
  /-- The first bytes, at most the given number, that a `ZlibDecoder` reads from a stream. -/
  zlibTake : Nat → List UInt8 → Option (List UInt8)
  /-- `BASE64.decode`. -/
  base64Decode : List UInt8 → Option (List UInt8)

abbrev Extracting := Except CoreError

def unsupportedCard (message : String) : CoreError := ⟨.unsupportedContent, message, false⟩

def isAsciiWhitespace (byte : UInt8) : Bool :=
  byte = 0x20 || byte = 0x09 || byte = 0x0a || byte = 0x0c || byte = 0x0d

/-! ## Text chunks -/

/-- The keyword of a text payload and what follows its separator. -/
def splitKeyword (payload : List UInt8) : Option (List UInt8 × List UInt8) :=
  let keyword := payload.takeWhile (· ≠ 0)
  if 0 ∉ payload ∨ keyword.length = 0 ∨ keyword.length > maxKeywordBytes then none
  else some (keyword, payload.drop (keyword.length + 1))

def readTextChunk (payload : List UInt8) : Option (List UInt8 × List UInt8) := do
  let parts ← splitKeyword payload
  if parts.2.length > maxChunkBytes then none else some parts

/-- The text of a zlib stream under the output ceiling. -/
def inflateText (lib : PngExternals) (stream : List UInt8) : Extracting (List UInt8) := do
  let inflated ← okOr (lib.zlibTake (maxDecodedBytes + 1) stream)
    (unsupportedCard "PNG card zTXt metadata is not a valid zlib stream")
  rejectIf (inflated.length > maxDecodedBytes)
    (unsupportedCard s!"PNG card metadata exceeds the {maxDecodedBytes}-byte limit")
  pure inflated

def readCompressedTextChunk (lib : PngExternals) (payload : List UInt8) :
    Extracting (Option (List UInt8 × List UInt8)) :=
  match splitKeyword payload with
  | none => .ok none
  | some (keyword, rest) =>
    if keyword ≠ v3Keyword ∧ keyword ≠ v2Keyword then .ok none
    else
      match rest with
      | [] => .ok none
      | method :: stream => do
        rejectIf (method ≠ 0) (unsupportedCard "PNG card uses an unsupported zTXt compression method")
        let inflated ← inflateText lib stream
        pure (some (keyword, inflated))

/-- `decode_base64`. -/
def decodeCardBase64 (lib : PngExternals) (encoded : List UInt8) : Extracting (List UInt8) := do
  let compact := encoded.filter fun byte => !isAsciiWhitespace byte
  rejectIf (compact.isEmpty = true) (unsupportedCard "PNG card metadata is empty")
  rejectIf (compact.length / 4 * 3 > maxDecodedBytes)
    (unsupportedCard s!"PNG card metadata exceeds the {maxDecodedBytes}-byte limit")
  let decoded ← okOr (lib.base64Decode compact)
    (unsupportedCard "PNG card metadata is not valid base64")
  rejectIf (decoded.length > maxDecodedBytes)
    (unsupportedCard s!"PNG card metadata exceeds the {maxDecodedBytes}-byte limit")
  pure decoded

/-! ## Chunks -/

structure PngChunk where
  kind : List UInt8
  payload : List UInt8
deriving DecidableEq

/-- `reader.read_exact`. -/
def readExact (n : Nat) (reader : List UInt8) : Option (List UInt8 × List UInt8) :=
  if n ≤ reader.length then some (reader.take n, reader.drop n) else none

/-- One chunk of the stream, and the rest. -/
def readChunk (reader : List UInt8) : Extracting (PngChunk × List UInt8) := do
  let (header, reader) ← okOr (readExact (chunkTypeLength + 4) reader)
    (unsupportedCard "PNG chunk header is truncated")
  let length := beNat (header.take 4)
  rejectIf (length > maxChunkBytes)
    (unsupportedCard s!"PNG chunk is {length} bytes; maximum is {maxChunkBytes} bytes")
  let (payload, reader) ← okOr (readExact length reader)
    (unsupportedCard "PNG chunk payload is truncated")
  let (_, reader) ← okOr (readExact chunkCrcLength reader)
    (unsupportedCard "PNG chunk CRC is truncated")
  pure (⟨header.drop 4, payload⟩, reader)

/-- The keyword and text of a chunk. -/
def decodeChunk (lib : PngExternals) (chunk : PngChunk) :
    Extracting (Option (List UInt8 × List UInt8)) :=
  if chunk.kind = textChunk then .ok (readTextChunk chunk.payload)
  else if chunk.kind = compressedTextChunk then readCompressedTextChunk lib chunk.payload
  else .ok none

/-- What `legacy` is after a text. -/
def keepLegacy (legacy : Option (List UInt8)) : Option (List UInt8 × List UInt8) → Option (List UInt8)
  | some (keyword, encoded) => if keyword = v2Keyword ∧ legacy.isNone then some encoded else legacy
  | none => legacy

/-- What the stream ends with. -/
def finishLegacy (lib : PngExternals) : Option (List UInt8) → Extracting (List UInt8)
  | some encoded => decodeCardBase64 lib encoded
  | none => .error (unsupportedCard "PNG card has no embedded character metadata")

/-- The metadata and the number of chunks that were begun. -/
structure CardWalk where
  chunks : Nat
  result : Extracting (List UInt8)

/-- One more chunk was begun before. -/
def CardWalk.after (walk : CardWalk) : CardWalk := ⟨walk.chunks + 1, walk.result⟩

/-- The loop, with the number of chunks that it may still begin. -/
def walkChunks (lib : PngExternals) : Nat → Option (List UInt8) → List UInt8 → CardWalk
  | 0, _, _ => ⟨0, .error (unsupportedCard s!"PNG card exceeds the {maxPngChunks}-chunk limit")⟩
  | more + 1, legacy, reader =>
    match readChunk reader with
    | .error error => ⟨1, .error error⟩
    | .ok (chunk, reader) =>
      if chunk.kind = endChunk then ⟨1, finishLegacy lib legacy⟩
      else
        match decodeChunk lib chunk with
        | .error error => ⟨1, .error error⟩
        | .ok decoded =>
          match decoded.filter (·.1 = v3Keyword) with
          | some (_, encoded) => ⟨1, decodeCardBase64 lib encoded⟩
          | none => (walkChunks lib more (keepLegacy legacy decoded) reader).after

/-- `extract_card_metadata`, with the number of chunks that it begins to read. -/
def walkCard (lib : PngExternals) (reader : List UInt8) : CardWalk :=
  match readExact pngSignature.length reader with
  | none => ⟨0, .error (unsupportedCard "the import source has a truncated PNG signature")⟩
  | some (signature, reader) =>
    if signature ≠ pngSignature then
      ⟨0, .error (unsupportedCard "the import source is not a PNG image")⟩
    else walkChunks lib maxPngChunks none reader

def extractCardMetadata (lib : PngExternals) (reader : List UInt8) : Extracting (List UInt8) :=
  (walkCard lib reader).result

end LorePia
