import LorePia.Content.Archive

/-!
# The ZIP preflight is exact

An accepted file is some bytes, the central directory, the ZIP64 end record with its locator when the end
record asks for one, and the end record with its comment (`ExactArchive`); the directory is tiled by as many
records as are declared (`Tiles`). The end record is the last one that reaches the end of the file, so bytes
in front of a classic archive do not change what is found (`findEnd_append`). No unchecked sum overflows.
-/

namespace LorePia

open Base

/-! ## No panic -/

/-- The computation does not overflow. -/
def NoOverflow {α : Type} (x : Preflight α) : Prop := x ≠ .error .panicked

section
variable {α β : Type}

theorem NoOverflow.ok (a : α) : NoOverflow (.ok a : Preflight α) := by
  unfold NoOverflow
  simp

theorem NoOverflow.bind {x : Preflight α} {f : α → Preflight β} (hx : NoOverflow x)
    (hf : ∀ a, x = .ok a → NoOverflow (f a)) : NoOverflow (x >>= f) := by
  cases x with
  | ok a => exact hf a rfl
  | error e => exact fun h => hx (by cases h; rfl)

theorem NoOverflow.rejectIf {bad : Prop} [Decidable bad] {error : CoreError} :
    NoOverflow (rejectIf bad (PreflightStop.failed error)) := by
  unfold NoOverflow Base.rejectIf
  split <;> simp

theorem NoOverflow.okOr {value : Option α} {error : CoreError} :
    NoOverflow (okOr value (PreflightStop.failed error)) := by
  unfold NoOverflow Base.okOr
  split <;> simp

end

theorem readU16_lt (bytes : List UInt8) (offset : Nat) : readU16 bytes offset < 2 ^ 16 := by
  refine Nat.lt_of_lt_of_le (leNat_lt _) ?_
  exact Nat.pow_le_pow_right (by omega) (length_slice_le bytes offset 2)

theorem add64_of_lt {a b : Nat} (h : a + b < 2 ^ 64) : add64 a b = .ok (a + b) := if_pos h

theorem variableSize_eq (header : List UInt8) :
    variableSize header = .ok (readU16 header 28 + readU16 header 30 + readU16 header 32) := by
  have h₁ := readU16_lt header 28
  have h₂ := readU16_lt header 30
  have h₃ := readU16_lt header 32
  rw [variableSize, add64_of_lt (by omega), ok_bind, add64_of_lt (by omega)]

/-! ## The end record -/

/-- An end record whose comment reaches its last byte. -/
structure EndRecord (record : List UInt8) : Prop where
  magic : slice record 0 4 = endOfCentralDirectoryMagic
  length : record.length = endOfCentralDirectoryBytes + readU16 record 20

/-- An end record at a position of the tail. -/
def EndsAt (tail : List UInt8) (position : Nat) : Prop :=
  position + endOfCentralDirectoryBytes ≤ tail.length ∧ EndRecord (tail.drop position)

/-- One position of the search. -/
theorem findEndBelow_succ {tail : List UInt8} (htail : tail.length < 2 ^ 63) {position : Nat}
    (hposition : position < tail.length) :
    (EndsAt tail position ∧ findEndBelow tail (position + 1) = .ok (some (position, tail.drop position))) ∨
      (¬ EndsAt tail position ∧ findEndBelow tail (position + 1) = findEndBelow tail position) := by
  have hread := readU16_lt (tail.drop position) 20
  have hwindow : slice tail position 4 = slice (tail.drop position) 0 4 := by
    rw [slice, slice, List.drop_zero]
  have hrecord : add64 position endOfCentralDirectoryBytes = .ok (position + endOfCentralDirectoryBytes) :=
    add64_of_lt (by unfold endOfCentralDirectoryBytes; omega)
  have hcomment : add64 endOfCentralDirectoryBytes (readU16 (tail.drop position) 20) =
      .ok (endOfCentralDirectoryBytes + readU16 (tail.drop position) 20) :=
    add64_of_lt (by unfold endOfCentralDirectoryBytes; omega)
  rw [findEndBelow]
  simp only [hrecord, hcomment, ok_bind]
  by_cases hmagic : slice tail position 4 = endOfCentralDirectoryMagic
  · rw [if_neg (not_not.2 hmagic)]
    by_cases hroom : position + endOfCentralDirectoryBytes > tail.length
    · rw [if_pos hroom]
      exact .inr ⟨fun h => absurd h.1 (by omega), rfl⟩
    · rw [if_neg hroom]
      by_cases hreach : endOfCentralDirectoryBytes + readU16 (tail.drop position) 20 =
          (tail.drop position).length
      · rw [if_pos hreach]
        exact .inl ⟨⟨by omega, hwindow ▸ hmagic, hreach.symm⟩, rfl⟩
      · rw [if_neg hreach]
        exact .inr ⟨fun h => hreach h.2.length.symm, rfl⟩
  · rw [if_pos hmagic]
    exact .inr ⟨fun h => hmagic (hwindow ▸ h.2.magic), rfl⟩

/-- The search succeeds; it finds an end record. -/
theorem findEndBelow_spec {tail : List UInt8} (htail : tail.length < 2 ^ 63) :
    ∀ {n : Nat}, n ≤ tail.length → ∃ found, findEndBelow tail n = .ok found ∧
      ∀ position eocd, found = some (position, eocd) → EndsAt tail position ∧ eocd = tail.drop position
  | 0, _ => ⟨none, rfl, fun _ _ h => by cases h⟩
  | n + 1, hn => by
    obtain ⟨hends, heq⟩ | ⟨-, heq⟩ := findEndBelow_succ htail (show n < tail.length by omega)
    · refine ⟨_, heq, fun position eocd h => ?_⟩
      cases h
      exact ⟨hends, rfl⟩
    · obtain ⟨found, hfound, hspec⟩ := findEndBelow_spec htail (show n ≤ tail.length by omega)
      exact ⟨found, heq.trans hfound, hspec⟩

/-- Bytes in front do not hide what is found. -/
theorem findEndBelow_append {front tail : List UInt8} (hlength : (front ++ tail).length < 2 ^ 63)
    {position : Nat} {eocd : List UInt8} : ∀ {n : Nat}, n ≤ tail.length →
      findEndBelow tail n = .ok (some (position, eocd)) →
      findEndBelow (front ++ tail) (front.length + n) = .ok (some (front.length + position, eocd))
  | 0, _, h => by cases h
  | n + 1, hn, h => by
    have htotal : (front ++ tail).length = front.length + tail.length := List.length_append
    have hdrop : (front ++ tail).drop (front.length + n) = tail.drop n := by
      rw [← List.drop_drop, List.drop_left]
    have hends : EndsAt (front ++ tail) (front.length + n) ↔ EndsAt tail n := by
      unfold EndsAt
      rw [hdrop, htotal]
      refine and_congr_left fun _ => ?_
      omega
    have hhere := @findEndBelow_succ tail (by omega) n (by omega)
    have hthere := @findEndBelow_succ (front ++ tail) hlength (front.length + n) (by omega)
    rw [hends, hdrop] at hthere
    rw [← Nat.add_assoc]
    obtain ⟨hat, heq⟩ | ⟨hat, heq⟩ := hhere
    · obtain ⟨-, heq'⟩ | ⟨hnot, -⟩ := hthere
      · rw [heq] at h
        cases h
        exact heq'
      · exact absurd hat hnot
    · obtain ⟨hat', -⟩ | ⟨-, heq'⟩ := hthere
      · exact absurd hat' hat
      · rw [heq']
        exact findEndBelow_append hlength (by omega) (heq ▸ h)

/-! ## The tail -/

theorem archiveTail_length (file : ArchiveFile) :
    (archiveTail file).length = min file.bytes.length maxTailLen := by
  rw [archiveTail, List.length_drop]
  omega

theorem archiveTail_lt (file : ArchiveFile) : (archiveTail file).length < 2 ^ 63 := by
  have := file.length_lt
  rw [archiveTail_length]
  omega

theorem findEnd_spec (file : ArchiveFile) :
    ∃ found, findEndOfCentralDirectory (archiveTail file) = .ok found ∧ ∀ position eocd,
      found = some (position, eocd) →
        EndsAt (archiveTail file) position ∧ eocd = (archiveTail file).drop position := by
  unfold findEndOfCentralDirectory
  split
  · exact ⟨none, rfl, fun _ _ h => by cases h⟩
  · exact findEndBelow_spec (archiveTail_lt file) (Nat.sub_le _ _)

/-- The tail of a file with more bytes in front. -/
theorem archiveTail_append {file file' : ArchiveFile} {front : List UInt8}
    (hfile : file'.bytes = front ++ file.bytes) :
    ∃ more, archiveTail file' = more ++ archiveTail file := by
  have hlength : file'.bytes.length = front.length + file.bytes.length := by
    rw [hfile, List.length_append]
  unfold archiveTail
  rw [hlength, hfile]
  by_cases hlong : maxTailLen ≤ file.bytes.length
  · refine ⟨[], ?_⟩
    rw [List.nil_append, show front.length + file.bytes.length -
      min (front.length + file.bytes.length) maxTailLen =
        front.length + (file.bytes.length - min file.bytes.length maxTailLen) by omega,
      ← List.drop_drop, List.drop_left]
  · refine ⟨front.drop (front.length + file.bytes.length -
      min (front.length + file.bytes.length) maxTailLen), ?_⟩
    rw [List.drop_append_of_le_length (by omega),
      show file.bytes.length - min file.bytes.length maxTailLen = 0 by omega, List.drop_zero]

/-- **The same end record is found** behind more bytes. -/
theorem findEnd_append {file file' : ArchiveFile} {front : List UInt8}
    (hfile : file'.bytes = front ++ file.bytes) {position : Nat} {eocd : List UInt8}
    (h : findEndOfCentralDirectory (archiveTail file) = .ok (some (position, eocd))) :
    ∃ position', findEndOfCentralDirectory (archiveTail file') = .ok (some (position', eocd)) ∧
      file'.bytes.length - (archiveTail file').length + position' =
        front.length + (file.bytes.length - (archiveTail file).length + position) := by
  obtain ⟨more, hmore⟩ := archiveTail_append hfile
  have hlt := archiveTail_lt file'
  have hlength : file'.bytes.length = front.length + file.bytes.length := by
    rw [hfile, List.length_append]
  have htail' := archiveTail_length file'
  have htail := archiveTail_length file
  have htotal : (archiveTail file').length = more.length + (archiveTail file).length := by
    rw [hmore, List.length_append]
  unfold findEndOfCentralDirectory at h ⊢
  split at h
  · cases h
  · rename_i hroom
    rw [Nat.not_lt] at hroom
    have hthree : 3 ≤ (archiveTail file).length := Nat.le_trans (by decide) hroom
    rw [if_neg (by omega)]
    refine ⟨more.length + position, ?_, by omega⟩
    rw [hmore] at hlt ⊢
    have hfound := findEndBelow_append hlt (Nat.sub_le _ 3) h
    rw [List.length_append, show more.length + (archiveTail file).length - 3 =
      more.length + ((archiveTail file).length - 3) by omega]
    exact hfound

/-! ## The records -/

/-- A central record: its header, and the bytes that the header declares. -/
structure CentralRecord (record : List UInt8) : Prop where
  magic : slice record 0 4 = centralDirectoryHeaderMagic
  length : record.length = centralDirectoryHeaderBytes +
    (readU16 record 28 + readU16 record 30 + readU16 record 32)

/-- The bytes are `n` central records and nothing else. -/
def Tiles (n : Nat) (bytes : List UInt8) : Prop :=
  ∃ records : List (List UInt8), records.length = n ∧ bytes = records.flatten ∧
    ∀ record ∈ records, CentralRecord record

theorem Tiles.nil : Tiles 0 [] := ⟨[], rfl, rfl, fun _ h => by cases h⟩

theorem Tiles.cons {n : Nat} {record bytes : List UInt8} (hrecord : CentralRecord record)
    (h : Tiles n bytes) : Tiles (n + 1) (record ++ bytes) := by
  obtain ⟨records, hlength, hbytes, hall⟩ := h
  refine ⟨record :: records, by rw [List.length_cons, hlength], by rw [List.flatten_cons, hbytes], ?_⟩
  exact List.forall_mem_cons.2 ⟨hrecord, hall⟩

/-- The declared length of the record at a position. -/
def recordSizeAt (bytes : List UInt8) (position : Nat) : Nat :=
  centralDirectoryHeaderBytes + (readU16 (slice bytes position centralDirectoryHeaderBytes) 28 +
    readU16 (slice bytes position centralDirectoryHeaderBytes) 30 +
    readU16 (slice bytes position centralDirectoryHeaderBytes) 32)

theorem readU16_slice {bytes : List UInt8} {position size offset : Nat} (h : offset + 2 ≤ size) :
    readU16 (slice bytes position size) offset = readU16 bytes (position + offset) := by
  rw [readU16, readU16, slice_slice h]

/-- The header decides the record at its position. -/
theorem centralRecord_slice {bytes : List UInt8} {position : Nat}
    (hroom : position + recordSizeAt bytes position ≤ bytes.length)
    (hmagic : slice (slice bytes position centralDirectoryHeaderBytes) 0 4 = centralDirectoryHeaderMagic) :
    CentralRecord (slice bytes position (recordSizeAt bytes position)) := by
  have hsize : centralDirectoryHeaderBytes ≤ recordSizeAt bytes position := Nat.le_add_right _ _
  have hread : ∀ offset, offset + 2 ≤ centralDirectoryHeaderBytes →
      readU16 (slice bytes position (recordSizeAt bytes position)) offset =
        readU16 (slice bytes position centralDirectoryHeaderBytes) offset := by
    intro offset hoffset
    rw [readU16_slice hoffset, readU16_slice (Nat.le_trans hoffset hsize)]
  refine ⟨?_, ?_⟩
  · rw [slice_slice (Nat.le_trans (by decide) hsize), ← hmagic, slice_slice (by decide)]
  · rw [length_slice hroom, hread 28 (by decide), hread 30 (by decide), hread 32 (by decide)]
    rfl

/-- One turn of the loop. -/
theorem validateRecords_succ {file : ArchiveFile} {size entries consumed position : Nat}
    (h : validateRecords file size (entries + 1) consumed position = .ok ()) :
    slice (slice file.bytes position centralDirectoryHeaderBytes) 0 4 = centralDirectoryHeaderMagic ∧
      consumed + recordSizeAt file.bytes position ≤ size ∧
      validateRecords file size entries (consumed + recordSizeAt file.bytes position)
        (position + recordSizeAt file.bytes position) = .ok () := by
  rw [validateRecords, bind_eq_ok] at h
  obtain ⟨remaining, -, h⟩ := h
  simp only [rejectIf_eq_ok, variableSize_eq, ok_bind, bind_eq_ok, okOr_eq_ok, exists_const] at h
  obtain ⟨-, -, hmagic, recordSize, hrecord, total, htotal, hfits, hrest⟩ := h
  unfold checkedAdd64 at hrecord htotal
  split at hrecord <;> cases hrecord
  split at htotal <;> cases htotal
  refine ⟨not_not.1 hmagic, Nat.le_of_not_lt hfits, ?_⟩
  rw [Nat.add_assoc position] at hrest
  exact hrest

/-- **The walk tiles the directory.** -/
theorem validateRecords_tiles {file : ArchiveFile} {size : Nat} :
    ∀ {entries consumed position : Nat}, validateRecords file size entries consumed position = .ok () →
      consumed ≤ size → position + (size - consumed) ≤ file.bytes.length →
      Tiles entries (slice file.bytes position (size - consumed))
  | 0, consumed, position, h, _, _ => by
    rw [validateRecords, rejectIf_eq_ok, not_not] at h
    rw [h, Nat.sub_self, slice, List.take_zero]
    exact .nil
  | entries + 1, consumed, position, h, hconsumed, hroom => by
    obtain ⟨hmagic, hfits, hrest⟩ := validateRecords_succ h
    have htail := validateRecords_tiles hrest hfits (by omega)
    rw [show size - consumed = recordSizeAt file.bytes position +
      (size - (consumed + recordSizeAt file.bytes position)) by omega, slice_add]
    exact htail.cons (centralRecord_slice (by omega) hmagic)

/-- Bytes in front move the walk. -/
theorem validateRecords_append {file file' : ArchiveFile} {front : List UInt8}
    (hfile : file'.bytes = front ++ file.bytes) {size : Nat} : ∀ {entries consumed position : Nat},
      validateRecords file' size entries consumed (front.length + position) =
        validateRecords file size entries consumed position
  | 0, _, _ => rfl
  | entries + 1, consumed, position => by
    have hlength : file'.bytes.length = front.length + file.bytes.length := by
      rw [hfile, List.length_append]
    have hheader : slice file'.bytes (front.length + position) centralDirectoryHeaderBytes =
        slice file.bytes position centralDirectoryHeaderBytes := by
      rw [hfile, slice_append_right]
    have hroom : (front.length + (position + centralDirectoryHeaderBytes) > file'.bytes.length) =
        (position + centralDirectoryHeaderBytes > file.bytes.length) := by
      rw [hlength]
      exact propext (by omega)
    rw [validateRecords, validateRecords, hheader]
    simp only [Nat.add_assoc, hroom, validateRecords_append hfile]

theorem validateRecords_noOverflow {file : ArchiveFile} {size : Nat} :
    ∀ {entries consumed position : Nat}, NoOverflow (validateRecords file size entries consumed position)
  | 0, _, _ => .rejectIf
  | entries + 1, consumed, position => by
    rw [validateRecords]
    refine .bind .okOr fun remaining _ => ?_
    refine .bind .rejectIf fun _ _ => ?_
    refine .bind .rejectIf fun _ _ => ?_
    refine .bind .rejectIf fun _ _ => ?_
    rw [variableSize_eq, ok_bind]
    refine .bind .okOr fun recordSize _ => ?_
    refine .bind .okOr fun total _ => ?_
    exact .bind .rejectIf fun _ _ => validateRecords_noOverflow

/-! ## The declared directory -/

/-- The ZIP64 end record and its locator, which start at an offset of the file. -/
structure Zip64End (start : Nat) (record locator : List UInt8) : Prop where
  magic : slice record 0 4 = zip64EndOfCentralDirectoryMagic
  length : record.length = 12 + readU64 record 4
  header : zip64EndOfCentralDirectoryBytes ≤ record.length
  locatorMagic : slice locator 0 4 = zip64EndOfCentralDirectoryLocatorMagic
  locatorLength : locator.length = zip64EndOfCentralDirectoryLocatorBytes
  locates : readU64 locator 8 = start

/-- The end records declare `entries` records in `size` bytes before `start`; `after` stands between the
directory and the end record. -/
inductive Declares (start entries size : Nat) (after eocd : List UInt8) : Prop
  | classic (hkind : asksForZip64 eocd = false) (hafter : after = []) (hentries : readU16 eocd 10 = entries)
      (hsize : readU32 eocd 12 = size)
  | zip64 (hkind : asksForZip64 eocd = true) {record locator : List UInt8} (hafter : after = record ++ locator)
      (hend : Zip64End start record locator) (hentries : readU64 record 32 = entries)
      (hsize : readU64 record 40 = size)

theorem readExactAt_eq_ok {file : ArchiveFile} {offset size : Nat} {bytes : List UInt8}
    (h : readExactAt file offset size = .ok bytes) :
    offset + size ≤ file.bytes.length ∧ bytes = slice file.bytes offset size := by
  unfold readExactAt at h
  simp only [seq_eq_ok, rejectIf_eq_ok, pure_eq_ok] at h
  exact ⟨Nat.le_of_not_lt h.2.1, h.2.2.symm⟩

theorem readExactAt_noOverflow {file : ArchiveFile} {offset size : Nat} :
    NoOverflow (readExactAt file offset size) := by
  unfold readExactAt
  refine .bind .rejectIf fun _ _ => ?_
  exact .bind .rejectIf fun _ _ => .ok _

theorem readU64_slice {bytes : List UInt8} {position size offset : Nat} (h : offset + 8 ≤ size) :
    readU64 (slice bytes position size) offset = readU64 bytes (position + offset) := by
  rw [readU64, readU64, slice_slice h]

/-- What is read of the ZIP64 records. -/
theorem readZip64CentralDirectory_eq_ok {file : ArchiveFile} {eocdOffset : Nat} {eocd : List UInt8}
    {central : CentralDirectory} (h : readZip64CentralDirectory file eocdOffset eocd = .ok central) :
    central.endOffset + (12 + readU64 file.bytes (central.endOffset + 4)) + 20 = eocdOffset ∧
      eocdOffset ≤ file.bytes.length ∧ 44 ≤ readU64 file.bytes (central.endOffset + 4) ∧
      slice file.bytes central.endOffset 4 = zip64EndOfCentralDirectoryMagic ∧
      slice file.bytes (eocdOffset - 20) 4 = zip64EndOfCentralDirectoryLocatorMagic ∧
      readU64 file.bytes (eocdOffset - 20 + 8) = central.endOffset ∧
      readU64 file.bytes (central.endOffset + 32) = central.entries ∧
      readU64 file.bytes (central.endOffset + 40) = central.size := by
  unfold readZip64CentralDirectory at h
  simp only [bind_eq_ok, rejectIf_eq_ok, okOr_eq_ok, exists_const, pure_eq_ok, not_not, not_or] at h
  obtain ⟨locatorOffset, hsub, locator, hlocator, hlocatorMagic, -, record, hrecord, hmagic, recordEnd, hadd,
    ⟨hmin, hend⟩, -, -, rfl⟩ := h
  unfold checkedSub64 at hsub
  split at hsub <;> cases hsub
  rename_i hbefore
  obtain ⟨hlocatorRoom, rfl⟩ := readExactAt_eq_ok hlocator
  obtain ⟨-, rfl⟩ := readExactAt_eq_ok hrecord
  rw [Option.bind_eq_some_iff] at hadd
  obtain ⟨header, hheader, hadd⟩ := hadd
  unfold checkedAdd64 at hheader hadd
  split at hheader <;> cases hheader
  split at hadd <;> cases hadd
  unfold zip64EndOfCentralDirectoryLocatorBytes zip64EndOfCentralDirectoryMinRecordSize
    zip64EndOfCentralDirectoryBytes at *
  rw [slice_slice (by decide)] at hlocatorMagic hmagic
  simp only [readU64_slice, Nat.reduceAdd, Nat.reduceLeDiff, Nat.add_zero] at *
  exact ⟨by omega, by omega, by omega, hmagic, hlocatorMagic, trivial, trivial, trivial⟩

/-- The ZIP64 records stand right before the end record. -/
theorem readZip64CentralDirectory_declares {file : ArchiveFile} {eocdOffset : Nat} {eocd : List UInt8}
    {central : CentralDirectory} (hkind : asksForZip64 eocd = true)
    (h : readZip64CentralDirectory file eocdOffset eocd = .ok central) :
    central.endOffset ≤ eocdOffset ∧ Declares central.endOffset central.entries central.size
      (slice file.bytes central.endOffset (eocdOffset - central.endOffset)) eocd := by
  obtain ⟨hend, hroom, hmin, hmagic, hlocatorMagic, hlocates, hentries, hsize⟩ :=
    readZip64CentralDirectory_eq_ok h
  generalize hlong : readU64 file.bytes (central.endOffset + 4) = recordSize at hend hmin
  have hlength : (slice file.bytes central.endOffset (12 + recordSize)).length = 12 + recordSize :=
    length_slice (by omega)
  refine ⟨by omega, .zip64 hkind (show _ = slice file.bytes central.endOffset (12 + recordSize) ++
    slice file.bytes (eocdOffset - 20) 20 from ?_) ⟨?_, ?_, ?_, ?_, ?_, ?_⟩ ?_ ?_⟩
  · rw [show eocdOffset - central.endOffset = 12 + recordSize + 20 by omega, slice_add,
      show central.endOffset + (12 + recordSize) = eocdOffset - 20 by omega]
  · rw [slice_slice (by omega)]
    exact hmagic
  · rw [hlength, readU64_slice (by omega), hlong]
  · rw [hlength, zip64EndOfCentralDirectoryBytes]
    omega
  · rw [slice_slice (by decide)]
    exact hlocatorMagic
  · exact length_slice (by omega)
  · rw [readU64_slice (by decide)]
    exact hlocates
  · rw [readU64_slice (by omega)]
    exact hentries
  · rw [readU64_slice (by omega)]
    exact hsize

theorem readZip64CentralDirectory_noOverflow {file : ArchiveFile} {eocdOffset : Nat} {eocd : List UInt8} :
    NoOverflow (readZip64CentralDirectory file eocdOffset eocd) := by
  unfold readZip64CentralDirectory
  refine .bind .okOr fun locatorOffset _ => ?_
  refine .bind readExactAt_noOverflow fun locator _ => ?_
  refine .bind .rejectIf fun _ _ => ?_
  refine .bind .rejectIf fun _ _ => ?_
  refine .bind readExactAt_noOverflow fun record _ => ?_
  refine .bind .rejectIf fun _ _ => ?_
  refine .bind .okOr fun recordEnd _ => ?_
  refine .bind .rejectIf fun _ _ => ?_
  refine .bind .rejectIf fun _ _ => ?_
  exact .bind .rejectIf fun _ _ => .ok _

/-- The directory of either kind of end record. -/
theorem readCentralDirectory_declares {file : ArchiveFile} {eocdOffset : Nat} {eocd : List UInt8}
    {central : CentralDirectory} (h : readCentralDirectory file eocdOffset eocd = .ok central) :
    central.endOffset ≤ eocdOffset ∧ Declares central.endOffset central.entries central.size
      (slice file.bytes central.endOffset (eocdOffset - central.endOffset)) eocd := by
  unfold readCentralDirectory at h
  rw [seq_eq_ok] at h
  obtain ⟨-, h⟩ := h
  cases hkind : asksForZip64 eocd with
  | true =>
    rw [hkind, if_pos rfl] at h
    exact readZip64CentralDirectory_declares hkind h
  | false =>
    rw [hkind, if_neg Bool.false_ne_true, seq_eq_ok, pure_eq_ok] at h
    obtain ⟨-, rfl⟩ := h
    refine ⟨Nat.le_refl _, .classic hkind ?_ rfl rfl⟩
    rw [Nat.sub_self, slice, List.take_zero]

theorem readCentralDirectory_noOverflow {file : ArchiveFile} {eocdOffset : Nat} {eocd : List UInt8} :
    NoOverflow (readCentralDirectory file eocdOffset eocd) := by
  unfold readCentralDirectory
  refine .bind .rejectIf fun _ _ => ?_
  split
  · exact readZip64CentralDirectory_noOverflow
  · exact .bind .rejectIf fun _ _ => .ok _

/-- A classic end record means the same directory wherever it stands. -/
theorem readCentralDirectory_moved {file file' : ArchiveFile} {eocdOffset eocdOffset' : Nat}
    {eocd : List UInt8} {central : CentralDirectory} (hkind : asksForZip64 eocd = false)
    (h : readCentralDirectory file eocdOffset eocd = .ok central) :
    central.endOffset = eocdOffset ∧
      readCentralDirectory file' eocdOffset' eocd = .ok { central with endOffset := eocdOffset' } := by
  unfold readCentralDirectory at h ⊢
  rw [hkind, if_neg Bool.false_ne_true] at h ⊢
  simp only [seq_eq_ok, pure_eq_ok] at h ⊢
  obtain ⟨hdisks, hsize, rfl⟩ := h
  exact ⟨rfl, hdisks, hsize, rfl⟩

/-- The checks of the declared directory. -/
theorem checkCentralDirectory_eq_ok {file : ArchiveFile} {limits : ImportLimits} {central : CentralDirectory}
    {start : Nat} (h : checkCentralDirectory file limits central = .ok start) :
    central.entries ≤ limits.maxEntries ∧ start + central.size = central.endOffset := by
  unfold checkCentralDirectory at h
  simp only [bind_eq_ok, rejectIf_eq_ok, okOr_eq_ok, exists_const, pure_eq_ok] at h
  obtain ⟨hentries, -, -, -, -, -, -, -, start, hsub, -, rfl⟩ := h
  unfold checkedSub64 at hsub
  split at hsub <;> cases hsub
  exact ⟨Nat.le_of_not_lt hentries, Nat.sub_add_cancel ‹_›⟩

theorem checkCentralDirectory_noOverflow {file : ArchiveFile} {limits : ImportLimits}
    {central : CentralDirectory} : NoOverflow (checkCentralDirectory file limits central) := by
  unfold checkCentralDirectory
  refine .bind .rejectIf fun _ _ => ?_
  refine .bind .rejectIf fun _ _ => ?_
  refine .bind .rejectIf fun _ _ => ?_
  refine .bind .okOr fun minimum _ => ?_
  refine .bind .okOr fun maximum _ => ?_
  refine .bind .rejectIf fun _ _ => ?_
  refine .bind .okOr fun start _ => ?_
  exact .bind .rejectIf fun _ _ => .ok _

/-- The checks still pass when the file grows in front. -/
theorem checkCentralDirectory_moved {file file' : ArchiveFile} {limits : ImportLimits}
    {central : CentralDirectory} {start more : Nat} (hlength : file.bytes.length ≤ file'.bytes.length)
    (h : checkCentralDirectory file limits central = .ok start) :
    checkCentralDirectory file' limits { central with endOffset := more + central.endOffset } =
      .ok (more + start) := by
  have hend := (checkCentralDirectory_eq_ok h).2
  unfold checkCentralDirectory at h ⊢
  simp only [bind_eq_ok, rejectIf_eq_ok, okOr_eq_ok, exists_const, pure_eq_ok] at h ⊢
  obtain ⟨hentries, hsize, hlimit, minimum, hminimum, maximum, hmaximum, hbounds, start, -, hoffset, rfl⟩ := h
  refine ⟨hentries, by omega, hlimit, minimum, hminimum, maximum, hmaximum, hbounds, more + start, ?_,
    by omega, rfl⟩
  rw [checkedSub64, if_pos (by omega)]
  exact congrArg some (by omega)

/-! ## The preflight -/

/-- Where the tail starts. -/
theorem archiveTail_start (file : ArchiveFile) :
    checkedSub64 file.bytes.length (archiveTail file).length =
      some (file.bytes.length - (archiveTail file).length) := by
  have := archiveTail_length file
  exact if_pos (by omega)

/-- The parts of an accepting run. -/
theorem preflightZipArchive_eq_ok {file : ArchiveFile} {limits : ImportLimits} {n : Nat} :
    preflightZipArchive file limits = .ok n ↔ ∃ position eocd central start,
      findEndOfCentralDirectory (archiveTail file) = .ok (some (position, eocd)) ∧
      readCentralDirectory file (file.bytes.length - (archiveTail file).length + position) eocd = .ok central ∧
      checkCentralDirectory file limits central = .ok start ∧
      validateRecords file central.size central.entries 0 start = .ok () ∧ central.entries = n := by
  have htail := archiveTail_length file
  have hlt := file.length_lt
  have hadd : ∀ {position eocd}, findEndOfCentralDirectory (archiveTail file) = .ok (some (position, eocd)) →
      checkedAdd64 (file.bytes.length - (archiveTail file).length) position =
        some (file.bytes.length - (archiveTail file).length + position) := by
    intro position eocd hfound
    obtain ⟨found, hfound', hspec⟩ := findEnd_spec file
    rw [hfound] at hfound'
    cases hfound'
    have hroom := (hspec position eocd rfl).1.1
    exact if_pos (by omega)
  unfold preflightZipArchive
  simp only [archiveTail_start, bind_eq_ok, okOr_eq_ok, pure_eq_ok]
  constructor
  · rintro ⟨_, hfound, ⟨position, eocd⟩, rfl, _, hstart, _, hoffset, central, hcentral, start, hcheck, _,
      hwalk, rfl⟩
    cases hstart
    rw [hadd hfound] at hoffset
    cases hoffset
    exact ⟨position, eocd, central, start, hfound, hcentral, hcheck, hwalk, rfl⟩
  · rintro ⟨position, eocd, central, start, hfound, hcentral, hcheck, hwalk, rfl⟩
    exact ⟨_, hfound, (position, eocd), rfl, _, rfl, _, hadd hfound, central, hcentral, start, hcheck, (),
      hwalk, rfl⟩

theorem preflightZipArchive_noOverflow (file : ArchiveFile) (limits : ImportLimits) :
    NoOverflow (preflightZipArchive file limits) := by
  obtain ⟨found, hfound, -⟩ := findEnd_spec file
  unfold preflightZipArchive
  dsimp only
  rw [hfound, ok_bind]
  refine .bind .okOr fun found _ => ?_
  refine .bind .okOr fun tailStart _ => ?_
  refine .bind .okOr fun eocdOffset _ => ?_
  refine .bind readCentralDirectory_noOverflow fun central _ => ?_
  refine .bind checkCentralDirectory_noOverflow fun start _ => ?_
  exact .bind validateRecords_noOverflow fun _ _ => .ok _

/-- Some bytes, the directory tiled by `n` records, the ZIP64 records when there are, and the end record that
declares them. -/
def ExactArchive (file : ArchiveFile) (n : Nat) (eocd : List UInt8) : Prop :=
  ∃ before central after, file.bytes = before ++ central ++ after ++ eocd ∧ EndRecord eocd ∧
    Declares (before.length + central.length) n central.length after eocd ∧ Tiles n central

/-- The end record is what the file ends in. -/
theorem findEnd_suffix {file : ArchiveFile} {position : Nat} {eocd : List UInt8}
    (h : findEndOfCentralDirectory (archiveTail file) = .ok (some (position, eocd))) :
    EndRecord eocd ∧ file.bytes.length - (archiveTail file).length + position ≤ file.bytes.length ∧
      eocd = file.bytes.drop (file.bytes.length - (archiveTail file).length + position) := by
  obtain ⟨found, hfound, hspec⟩ := findEnd_spec file
  rw [h] at hfound
  cases hfound
  obtain ⟨⟨hroom, hrecord⟩, rfl⟩ := hspec position eocd rfl
  have htail := archiveTail_length file
  refine ⟨hrecord, by omega, ?_⟩
  rw [archiveTail, List.drop_drop, ← archiveTail, htail]

/-- The accepted directory stands before the end records. -/
theorem exactArchive_of_walk {file : ArchiveFile} {limits : ImportLimits} {eocdOffset start : Nat}
    {eocd : List UInt8} {central : CentralDirectory} (hend : EndRecord eocd)
    (hoffset : eocdOffset ≤ file.bytes.length) (heocd : eocd = file.bytes.drop eocdOffset)
    (hcentral : readCentralDirectory file eocdOffset eocd = .ok central)
    (hcheck : checkCentralDirectory file limits central = .ok start)
    (hwalk : validateRecords file central.size central.entries 0 start = .ok ()) :
    ExactArchive file central.entries eocd := by
  obtain ⟨hbefore, hdeclares⟩ := readCentralDirectory_declares hcentral
  have hstart := (checkCentralDirectory_eq_ok hcheck).2
  have hlength : (slice file.bytes start central.size).length = central.size := length_slice (by omega)
  refine ⟨file.bytes.take start, slice file.bytes start central.size,
    slice file.bytes central.endOffset (eocdOffset - central.endOffset), ?_, hend, ?_, ?_⟩
  · have hrest := slice_split (file.bytes.drop central.endOffset) 0 (eocdOffset - central.endOffset)
    rw [List.take_zero, List.nil_append, List.drop_drop, slice, List.drop_drop, Nat.add_zero, Nat.zero_add,
      Nat.add_sub_cancel' hbefore, ← slice, ← heocd] at hrest
    rw [List.append_assoc, ← hrest, ← hstart]
    exact slice_split file.bytes start central.size
  · rw [List.length_take, hlength, Nat.min_eq_left (by omega), hstart]
    exact hdeclares
  · exact validateRecords_tiles hwalk (Nat.zero_le _) (by omega)

/-- Bytes in front of an accepted classic archive. -/
theorem preflightZipArchive_append {file file' : ArchiveFile} {limits : ImportLimits} {front : List UInt8}
    {position start : Nat} {eocd : List UInt8} {central : CentralDirectory}
    (hfile : file'.bytes = front ++ file.bytes) (hkind : asksForZip64 eocd = false)
    (hfound : findEndOfCentralDirectory (archiveTail file) = .ok (some (position, eocd)))
    (hcentral : readCentralDirectory file (file.bytes.length - (archiveTail file).length + position) eocd =
      .ok central)
    (hcheck : checkCentralDirectory file limits central = .ok start)
    (hwalk : validateRecords file central.size central.entries 0 start = .ok ()) :
    preflightZipArchive file' limits = .ok central.entries := by
  obtain ⟨position', hfound', hoffset⟩ := findEnd_append hfile hfound
  obtain ⟨hend, hcentral'⟩ := @readCentralDirectory_moved file file' _
    (file'.bytes.length - (archiveTail file').length + position') _ _ hkind hcentral
  rw [hoffset, ← hend] at hcentral'
  have hlength : file.bytes.length ≤ file'.bytes.length := by
    rw [hfile, List.length_append]
    omega
  refine preflightZipArchive_eq_ok.2 ⟨position', eocd, _, front.length + start, hfound', ?_,
    checkCentralDirectory_moved hlength hcheck, ?_, rfl⟩
  · rw [hoffset, ← hend]
    exact hcentral'
  · rw [validateRecords_append hfile]
    exact hwalk

/-- **The preflight is exact.** No offset computation overflows. An accepted file has at most as many records
as the limit, ends in an end record, and the declared directory before the end records is tiled by the
records; a classic archive is accepted with the same count behind any bytes. -/
theorem preflightZipArchive_exact (file : ArchiveFile) (limits : ImportLimits) :
    NoOverflow (preflightZipArchive file limits) ∧ ∀ n, preflightZipArchive file limits = .ok n →
      n ≤ limits.maxEntries ∧ ∃ position eocd,
        findEndOfCentralDirectory (archiveTail file) = .ok (some (position, eocd)) ∧
        ExactArchive file n eocd ∧ (asksForZip64 eocd = false → ∀ front (file' : ArchiveFile),
          file'.bytes = front ++ file.bytes → preflightZipArchive file' limits = .ok n) := by
  refine ⟨preflightZipArchive_noOverflow file limits, fun n h => ?_⟩
  obtain ⟨position, eocd, central, start, hfound, hcentral, hcheck, hwalk, rfl⟩ :=
    preflightZipArchive_eq_ok.1 h
  obtain ⟨hend, hoffset, heocd⟩ := findEnd_suffix hfound
  refine ⟨(checkCentralDirectory_eq_ok hcheck).1, position, eocd, hfound,
    exactArchive_of_walk hend hoffset heocd hcentral hcheck hwalk, fun hkind front file' hfile => ?_⟩
  exact preflightZipArchive_append hfile hkind hfound hcentral hcheck hwalk

/-- One record of a one-byte name, and the end record. -/
def oneRecordArchive : ArchiveFile where
  bytes := [0x50, 0x4b, 1, 2] ++ List.replicate 24 0 ++ [1] ++ List.replicate 17 0 ++ [0x61] ++
    [0x50, 0x4b, 5, 6, 0, 0, 0, 0, 1, 0, 1, 0, 47, 0, 0, 0, 0, 0, 0, 0, 0, 0]
  length_lt := by decide

def stubbedArchive : ArchiveFile where
  bytes := [0x23, 0x21] ++ oneRecordArchive.bytes
  length_lt := by decide

theorem preflightZipArchive_exact_stub :
    preflightZipArchive oneRecordArchive ⟨1, 100⟩ = .ok 1 ∧
      preflightZipArchive stubbedArchive ⟨1, 100⟩ = .ok 1 := by
  have hone : preflightZipArchive oneRecordArchive ⟨1, 100⟩ = .ok 1 := by decide +kernel
  obtain ⟨-, position, eocd, hfound, -, hfront⟩ :=
    (preflightZipArchive_exact oneRecordArchive ⟨1, 100⟩).2 1 hone
  have hend : findEndOfCentralDirectory (archiveTail oneRecordArchive) =
      .ok (some (47, oneRecordArchive.bytes.drop 47)) := by decide +kernel
  rw [hend] at hfound
  cases hfound
  exact ⟨hone, hfront (by decide +kernel) [0x23, 0x21] stubbedArchive rfl⟩

end LorePia
