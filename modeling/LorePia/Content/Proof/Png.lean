import LorePia.Content.Png

/-!
# Which chunk of a PNG card is read

A well-framed stream (`PngStream`) is walked chunk by chunk (`extractCardMetadata_bytes`). The result is that
of the first `ccv3` text, or of the first `chara` text, unless a compressed text chunk before it fails to
inflate (`cardResult_eq`): the failure of such a chunk is returned at once, though a plain chunk that cannot
be read is passed over. So the preference for `ccv3` holds exactly where no such chunk comes first
(`extractCardMetadata_prefersV3_iff`).
-/

namespace LorePia

open Base

variable {lib : PngExternals}

/-! ## Streams -/

/-- A chunk as it is framed. -/
structure FramedChunk extends PngChunk where
  crc : List UInt8
  kind_length : kind.length = chunkTypeLength
  payload_length : payload.length ≤ maxChunkBytes
  crc_length : crc.length = chunkCrcLength

def FramedChunk.bytes (chunk : FramedChunk) : List UInt8 :=
  beBytes 4 chunk.payload.length ++ chunk.kind ++ chunk.payload ++ chunk.crc

/-- A well-framed stream within the limits: chunks, an `IEND` chunk and whatever follows it. -/
structure PngStream where
  chunks : List FramedChunk
  last : FramedChunk
  trailing : List UInt8
  kinds : ∀ chunk ∈ chunks, chunk.kind ≠ endChunk
  last_kind : last.kind = endChunk
  chunks_lt : chunks.length < maxPngChunks

def PngStream.bytes (stream : PngStream) : List UInt8 :=
  pngSignature ++ (stream.chunks.flatMap FramedChunk.bytes ++ (stream.last.bytes ++ stream.trailing))

/-- The chunks before `IEND`. -/
def PngStream.content (stream : PngStream) : List PngChunk := stream.chunks.map (·.toPngChunk)

/-! ## Which text is meant -/

/-- The text of a chunk that can be read. -/
def usableText (lib : PngExternals) (chunk : PngChunk) : Option (List UInt8 × List UInt8) :=
  (decodeChunk lib chunk).toOption.join

/-- The first text with a keyword. -/
def firstText (lib : PngExternals) (keyword : List UInt8) (chunks : List PngChunk) : Option (List UInt8) :=
  chunks.findSome? fun chunk => ((usableText lib chunk).filter (·.1 = keyword)).map (·.2)

/-- The keyword of a plain or compressed text chunk, usable or not. -/
def chunkKeyword (chunk : PngChunk) : Option (List UInt8) :=
  if chunk.kind = textChunk ∨ chunk.kind = compressedTextChunk
  then (splitKeyword chunk.payload).map (·.1) else none

/-- The failure of the first chunk that fails before a usable `ccv3` text. -/
def firstFailure (lib : PngExternals) : List PngChunk → Option CoreError
  | [] => none
  | chunk :: rest =>
    match decodeChunk lib chunk with
    | .error error => some error
    | .ok decoded => if (decoded.filter (·.1 = v3Keyword)).isSome then none else firstFailure lib rest

/-- **The preference**: the first `ccv3` text decides, and where no chunk is marked `ccv3` the first `chara`
text. -/
structure PrefersV3 (lib : PngExternals) (chunks : List PngChunk) (result : Extracting (List UInt8)) :
    Prop where
  v3 : ∀ encoded, firstText lib v3Keyword chunks = some encoded → result = decodeCardBase64 lib encoded
  v2 : (∀ chunk ∈ chunks, chunkKeyword chunk ≠ some v3Keyword) →
    ∀ encoded, firstText lib v2Keyword chunks = some encoded → result = decodeCardBase64 lib encoded

/-! ## The walk -/

theorem readExact_append {n : Nat} {bytes rest : List UInt8} (h : bytes.length = n) :
    readExact n (bytes ++ rest) = some (bytes, rest) := by
  subst h
  simp [readExact]

theorem readChunk_bytes (chunk : FramedChunk) (rest : List UInt8) :
    readChunk (chunk.bytes ++ rest) = .ok (chunk.toPngChunk, rest) := by
  have hlength : beNat (beBytes 4 chunk.payload.length) = chunk.payload.length :=
    beNat_beBytes (Nat.lt_of_le_of_lt chunk.payload_length (by decide))
  have hheader : (beBytes 4 chunk.payload.length ++ chunk.kind).length = chunkTypeLength + 4 := by
    rw [List.length_append, length_beBytes, chunk.kind_length]
    rfl
  have htake : (beBytes 4 chunk.payload.length ++ chunk.kind).take 4 = beBytes 4 chunk.payload.length :=
    List.take_left' (length_beBytes _ _)
  have hdrop : (beBytes 4 chunk.payload.length ++ chunk.kind).drop 4 = chunk.kind :=
    List.drop_left' (length_beBytes _ _)
  unfold readChunk FramedChunk.bytes
  rw [List.append_assoc, List.append_assoc, readExact_append hheader]
  refine bind_eq_ok.2 ⟨_, rfl, ?_⟩
  dsimp only
  rw [htake, hdrop, hlength]
  refine seq_eq_ok.2 ⟨rejectIf_eq_ok.2 (Nat.not_lt.2 chunk.payload_length), ?_⟩
  rw [readExact_append rfl]
  refine bind_eq_ok.2 ⟨_, rfl, ?_⟩
  rw [readExact_append chunk.crc_length]
  exact bind_eq_ok.2 ⟨_, rfl, rfl⟩

/-- The result of the chunks before `IEND`. -/
def cardResult (lib : PngExternals) : Option (List UInt8) → List PngChunk → Extracting (List UInt8)
  | legacy, [] => finishLegacy lib legacy
  | legacy, chunk :: rest =>
    match decodeChunk lib chunk with
    | .error error => .error error
    | .ok decoded =>
      match decoded.filter (·.1 = v3Keyword) with
      | some (_, encoded) => decodeCardBase64 lib encoded
      | none => cardResult lib (keepLegacy legacy decoded) rest

/-- **The walk of a stream** is the walk of its chunks. -/
theorem walkChunks_bytes (last : FramedChunk) (hlast : last.kind = endChunk) (trailing : List UInt8) :
    ∀ {chunks : List FramedChunk} {more : Nat} {legacy : Option (List UInt8)},
      (∀ chunk ∈ chunks, chunk.kind ≠ endChunk) → chunks.length < more →
      (walkChunks lib more legacy
        (chunks.flatMap FramedChunk.bytes ++ (last.bytes ++ trailing))).result =
        cardResult lib legacy (chunks.map (·.toPngChunk))
  | [], more, legacy, _, hmore => by
    obtain ⟨more, rfl⟩ := Nat.exists_eq_add_of_lt hmore
    rw [List.flatMap_nil, List.nil_append]
    simp only [List.length_nil, Nat.zero_add, walkChunks, readChunk_bytes, hlast, if_true]
    rfl
  | chunk :: chunks, more, legacy, hkinds, hmore => by
    obtain ⟨more, rfl⟩ : ∃ n, more = n + 1 := ⟨more - 1, by omega⟩
    have hkind := hkinds chunk List.mem_cons_self
    have hrest : ∀ legacy, (walkChunks lib more legacy
        (chunks.flatMap FramedChunk.bytes ++ (last.bytes ++ trailing))).result =
        cardResult lib legacy (chunks.map (·.toPngChunk)) := fun legacy =>
      walkChunks_bytes last hlast trailing (fun c hc => hkinds c (List.mem_cons_of_mem _ hc))
        (by simpa using hmore)
    rw [List.flatMap_cons, List.append_assoc, List.map_cons, walkChunks, readChunk_bytes]
    dsimp only
    rw [if_neg hkind, cardResult]
    cases decodeChunk lib chunk.toPngChunk with
    | error error => rfl
    | ok decoded =>
      dsimp only
      cases decoded.filter (·.1 = v3Keyword) with
      | some text => rfl
      | none => exact hrest _

/-- **The result of the chunks**: the first failure, else the first `ccv3` text, else the first `chara`
text. -/
theorem cardResult_eq {chunks : List PngChunk} {legacy : Option (List UInt8)} :
    cardResult lib legacy chunks =
      match firstFailure lib chunks with
      | some error => .error error
      | none =>
        match firstText lib v3Keyword chunks with
        | some encoded => decodeCardBase64 lib encoded
        | none => finishLegacy lib (legacy.or (firstText lib v2Keyword chunks)) := by
  induction chunks generalizing legacy with
  | nil => simp [cardResult, firstFailure, firstText]
  | cons chunk rest ih =>
    have hfirst : ∀ keyword, firstText lib keyword (chunk :: rest) =
        (((usableText lib chunk).filter (·.1 = keyword)).map (·.2)).or (firstText lib keyword rest) :=
      fun keyword => by cases h : ((usableText lib chunk).filter (·.1 = keyword)).map (·.2) <;>
        simp [firstText, h]
    rw [cardResult, firstFailure, hfirst, hfirst]
    unfold usableText
    cases decodeChunk lib chunk with
    | error error => rfl
    | ok decoded =>
      have husable : (Except.ok decoded : Extracting _).toOption.join = decoded := by
        cases decoded <;> rfl
      rw [husable]
      dsimp only
      cases hv3 : decoded.filter (·.1 = v3Keyword) with
      | some text =>
        rw [if_pos Option.isSome_some]
        rfl
      | none =>
        rw [if_neg (by simp), Option.map_none, Option.none_or]
        dsimp only
        rw [ih]
        have hlegacy : (keepLegacy legacy decoded).or (firstText lib v2Keyword rest) =
            legacy.or (((decoded.filter (·.1 = v2Keyword)).map (·.2)).or
              (firstText lib v2Keyword rest)) := by
          cases decoded with
          | none => rfl
          | some text =>
            by_cases hkeyword : text.1 = v2Keyword <;> cases legacy <;>
              simp [keepLegacy, hkeyword, Option.filter]
        rw [hlegacy]

/-! ## The preference -/

theorem extractCardMetadata_bytes (stream : PngStream) :
    extractCardMetadata lib stream.bytes = cardResult lib none stream.content := by
  unfold extractCardMetadata walkCard PngStream.bytes
  rw [readExact_append rfl]
  exact walkChunks_bytes stream.last stream.last_kind stream.trailing stream.kinds stream.chunks_lt

/-- No text chunk fails before the text that is meant, or that text fails with the same error. -/
def NoFailureFirst (lib : PngExternals) (chunks : List PngChunk) : Prop :=
  ∀ error, firstFailure lib chunks = some error →
    (∀ encoded, firstText lib v3Keyword chunks = some encoded →
      decodeCardBase64 lib encoded = .error error) ∧
    ((∀ chunk ∈ chunks, chunkKeyword chunk ≠ some v3Keyword) →
      ∀ encoded, firstText lib v2Keyword chunks = some encoded →
        decodeCardBase64 lib encoded = .error error)

theorem usableText_keyword {chunk : PngChunk} {text : List UInt8 × List UInt8}
    (h : usableText lib chunk = some text) : chunkKeyword chunk = some text.1 := by
  have hdecoded : decodeChunk lib chunk = .ok (some text) := by
    unfold usableText at h
    cases hdecode : decodeChunk lib chunk with
    | error error =>
      rw [hdecode] at h
      cases h
    | ok decoded =>
      rw [hdecode] at h
      exact congrArg Except.ok (Option.join_eq_some_iff.1 h |> Option.some.inj)
  unfold decodeChunk at hdecoded
  unfold chunkKeyword
  split at hdecoded
  · rename_i hkind
    obtain ⟨parts, hparts, htext⟩ := Option.bind_eq_some_iff.1 (Except.ok.inj hdecoded)
    rw [if_pos (.inl hkind), hparts]
    split at htext
    · cases htext
    · cases htext
      rfl
  · split at hdecoded
    · rename_i hkind
      rw [if_pos (.inr hkind)]
      unfold readCompressedTextChunk at hdecoded
      split at hdecoded
      · cases hdecoded
      · rename_i keyword rest hparts
        rw [hparts]
        split at hdecoded
        · cases hdecoded
        · split at hdecoded
          · cases hdecoded
          · obtain ⟨-, hdecoded⟩ := seq_eq_ok.1 hdecoded
            obtain ⟨inflated, -, hdecoded⟩ := bind_eq_ok.1 hdecoded
            cases hdecoded
            rfl
    · cases hdecoded

/-- Where no chunk is marked `ccv3`, there is no such text. -/
theorem firstText_v3_eq_none {chunks : List PngChunk}
    (h : ∀ chunk ∈ chunks, chunkKeyword chunk ≠ some v3Keyword) :
    firstText lib v3Keyword chunks = none := by
  rw [firstText, List.findSome?_eq_none_iff]
  intro chunk hmem
  rw [Option.map_eq_none_iff, Option.filter_eq_none_iff]
  intro text htext hkeyword
  exact h chunk hmem ((usableText_keyword htext).trans (by simpa using hkeyword))

theorem prefersV3_iff (chunks : List PngChunk) :
    PrefersV3 lib chunks (cardResult lib none chunks) ↔ NoFailureFirst lib chunks := by
  rw [cardResult_eq]
  cases hfailure : firstFailure lib chunks with
  | some error =>
    unfold NoFailureFirst
    rw [hfailure]
    constructor
    · intro hprefers error' herror
      cases herror
      exact ⟨fun encoded h => (hprefers.v3 encoded h).symm, fun hno encoded h =>
        (hprefers.v2 hno encoded h).symm⟩
    · intro hno
      obtain ⟨hv3, hv2⟩ := hno error rfl
      exact ⟨fun encoded h => (hv3 encoded h).symm, fun hkeywords encoded h =>
        (hv2 hkeywords encoded h).symm⟩
  | none =>
    refine iff_of_true ⟨fun encoded h => ?_, fun hkeywords encoded h => ?_⟩ fun error herror => ?_
    · rw [h]
    · rw [firstText_v3_eq_none hkeywords, h]
      rfl
    · rw [hfailure] at herror
      cases herror

theorem walkChunks_le (legacy : Option (List UInt8)) (reader : List UInt8) (more : Nat) :
    (walkChunks lib more legacy reader).chunks ≤ more := by
  induction more generalizing legacy reader with
  | zero => exact Nat.le_refl 0
  | succ more ih =>
    rw [walkChunks]
    cases readChunk reader with
    | error error => exact Nat.succ_le_succ (Nat.zero_le more)
    | ok next =>
      obtain ⟨chunk, rest⟩ := next
      dsimp only
      split
      · exact Nat.succ_le_succ (Nat.zero_le more)
      · split
        · exact Nat.succ_le_succ (Nat.zero_le more)
        · split
          · exact Nat.succ_le_succ (Nat.zero_le more)
          · exact Nat.succ_le_succ (ih _ _)

/-- At most 4096 chunks are begun. -/
theorem walkCard_le (reader : List UInt8) : (walkCard lib reader).chunks ≤ maxPngChunks := by
  unfold walkCard
  split
  · exact Nat.zero_le _
  · split
    · exact Nat.zero_le _
    · exact walkChunks_le none _ _

/-- **PNG cards.** `ccv3` is preferred in a well-framed stream exactly where no text chunk fails first, and
every stream is walked for at most 4096 chunks. -/
theorem extractCardMetadata_prefersV3_iff (lib : PngExternals) :
    (∀ stream : PngStream, PrefersV3 lib stream.content (extractCardMetadata lib stream.bytes) ↔
      NoFailureFirst lib stream.content) ∧
    ∀ reader, (walkCard lib reader).chunks ≤ maxPngChunks := by
  refine ⟨fun stream => ?_, walkCard_le⟩
  rw [extractCardMetadata_bytes]
  exact prefersV3_iff stream.content

/-- Decoders that know one base64 text and no zlib stream. -/
def tidePngLibrary : PngExternals where
  zlibTake _ _ := none
  base64Decode bytes := if bytes = [0x51, 0x51, 0x3d, 0x3d] then some [0x41] else none

def crcChunk (kind payload : List UInt8) (hkind : kind.length = chunkTypeLength)
    (hpayload : payload.length ≤ maxChunkBytes) : FramedChunk :=
  ⟨⟨kind, payload⟩, [0, 0, 0, 0], hkind, hpayload, rfl⟩

/-- A compressed `chara` chunk with an unknown method before a plain `ccv3` chunk. -/
def tideCard : PngStream where
  chunks := [crcChunk compressedTextChunk (v2Keyword ++ [0, 1]) rfl (by decide),
    crcChunk textChunk (v3Keyword ++ [0, 0x51, 0x51, 0x3d, 0x3d]) rfl (by decide)]
  last := crcChunk endChunk [] rfl (by decide)
  trailing := []
  kinds := by decide
  last_kind := rfl
  chunks_lt := by decide

/-- The compressed chunk's failure hides the `ccv3` text. -/
theorem extractCardMetadata_hides_v3 : ¬ ∀ (lib : PngExternals) (stream : PngStream),
    PrefersV3 lib stream.content (extractCardMetadata lib stream.bytes) := by
  intro hclaim
  have htext : firstText tidePngLibrary v3Keyword tideCard.content = some [0x51, 0x51, 0x3d, 0x3d] := by
    decide
  have hresult := (hclaim tidePngLibrary tideCard).v3 _ htext
  have hdecoded : decodeCardBase64 tidePngLibrary [0x51, 0x51, 0x3d, 0x3d] = .ok [0x41] := by decide
  rw [hdecoded] at hresult
  have hfailed : (extractCardMetadata tidePngLibrary tideCard.bytes).isOk = false := by decide
  rw [hresult] at hfailed
  cases hfailed

end LorePia
