import LorePia.Base.Bytes
import LorePia.Base.OrdMap
import LorePia.Domain.Error

/-!
# ZIP preflight (`crates/content/src/archive.rs`)

A file is its bytes; reading and seeking within it do not fail. Offsets are `u64` values: the checked
operations are those of the source, and an operation that the source leaves unchecked panics on overflow
(`add64`), as in a build with overflow checks. Conversions between `usize` and `u64` are those of a 64-bit
device.
-/

namespace LorePia

open Base

/-- A file: its length is an offset of the system. -/
structure ArchiveFile where
  bytes : List UInt8
  length_lt : bytes.length < 2 ^ 63

/-- The limits that the preflight reads. -/
structure ImportLimits where
  maxEntries : Nat
  maxSourceBytes : Nat

inductive PreflightStop
  | failed (error : CoreError)
  | panicked
deriving DecidableEq

abbrev Preflight := Except PreflightStop

def unsafeArchive (message : String) : PreflightStop := .failed ⟨.unsafeArchive, message, false⟩

def unsupportedArchive (message : String) : PreflightStop := .failed ⟨.unsupportedContent, message, false⟩

def archiveResourceLimit (message : String) : PreflightStop := .failed ⟨.unsupportedContent, message, true⟩

def archiveSeekError : PreflightStop :=
  .failed ⟨.storageUnavailable, "cannot read archive: Invalid argument (os error 22)", true⟩

def centralDirectoryHeaderMagic : List UInt8 := [0x50, 0x4b, 1, 2]
def centralDirectoryHeaderBytes : Nat := 46
def endOfCentralDirectoryMagic : List UInt8 := [0x50, 0x4b, 5, 6]
def endOfCentralDirectoryBytes : Nat := 22
def zip64EndOfCentralDirectoryMagic : List UInt8 := [0x50, 0x4b, 6, 6]
def zip64EndOfCentralDirectoryBytes : Nat := 56
def zip64EndOfCentralDirectoryMinRecordSize : Nat := 44
def zip64EndOfCentralDirectoryLocatorMagic : List UInt8 := [0x50, 0x4b, 6, 7]
def zip64EndOfCentralDirectoryLocatorBytes : Nat := 20

def u16Max : Nat := 0xffff
def u32Sentinel : Nat := 0xffffffff

/-- `a + b` on `u64`. -/
def add64 (a b : Nat) : Preflight Nat := if a + b < 2 ^ 64 then .ok (a + b) else .error .panicked

/-- `a.checked_add(b)` on `u64`. -/
def checkedAdd64 (a b : Nat) : Option Nat := if a + b < 2 ^ 64 then some (a + b) else none

/-- `a.checked_sub(b)`. -/
def checkedSub64 (a b : Nat) : Option Nat := if b ≤ a then some (a - b) else none

/-- `a.checked_mul(b)` on `u64`. -/
def checkedMul64 (a b : Nat) : Option Nat := if a * b < 2 ^ 64 then some (a * b) else none

/-- `read_u16`, `read_u32` and `read_u64`. -/
def readU16 (bytes : List UInt8) (offset : Nat) : Nat := leNat (slice bytes offset 2)
def readU32 (bytes : List UInt8) (offset : Nat) : Nat := leNat (slice bytes offset 4)
def readU64 (bytes : List UInt8) (offset : Nat) : Nat := leNat (slice bytes offset 8)

/-! ## The end record -/

/-- The search of `find_end_of_central_directory` below a position, from the last one on. -/
def findEndBelow (tail : List UInt8) : Nat → Preflight (Option (Nat × List UInt8))
  | 0 => pure none
  | position + 1 => do
    if slice tail position 4 ≠ endOfCentralDirectoryMagic then findEndBelow tail position
    else
      let recordEnd ← add64 position endOfCentralDirectoryBytes
      if recordEnd > tail.length then findEndBelow tail position
      else
        let eocd := tail.drop position
        let commentEnd ← add64 endOfCentralDirectoryBytes (readU16 eocd 20)
        if commentEnd = eocd.length then pure (some (position, eocd)) else findEndBelow tail position

def findEndOfCentralDirectory (tail : List UInt8) : Preflight (Option (Nat × List UInt8)) :=
  if tail.length < endOfCentralDirectoryBytes then pure none else findEndBelow tail (tail.length - 3)

def readExactAt (file : ArchiveFile) (offset size : Nat) : Preflight (List UInt8) := do
  rejectIf (offset ≥ 2 ^ 63) archiveSeekError
  rejectIf (offset + size > file.bytes.length)
    (unsafeArchive "archive central-directory metadata is truncated")
  pure (slice file.bytes offset size)

/-- What the end records say of the central directory. -/
structure CentralDirectory where
  entries : Nat
  size : Nat
  offset : Nat
  endOffset : Nat

/-- The disagreement of a classic field that is not its sentinel with a ZIP64 field. -/
def disagrees (classic sentinel zip64 : Nat) : Bool := classic != sentinel && classic != zip64

/-- `read_zip64_central_directory`, for the classic end record. -/
def readZip64CentralDirectory (file : ArchiveFile) (eocdOffset : Nat) (eocd : List UInt8) :
    Preflight CentralDirectory := do
  let locatorOffset ← okOr (checkedSub64 eocdOffset zip64EndOfCentralDirectoryLocatorBytes)
    (unsafeArchive "ZIP64 locator does not fit in the archive")
  let locator ← readExactAt file locatorOffset 20
  rejectIf (slice locator 0 4 ≠ zip64EndOfCentralDirectoryLocatorMagic)
    (unsafeArchive "archive is missing its ZIP64 central-directory locator")
  let locatorDisk := readU32 locator 4
  let zip64EocdOffset := readU64 locator 8
  let numberOfDisks := readU32 locator 16
  rejectIf (locatorDisk ≠ 0 ∨ numberOfDisks ≠ 1)
    (unsupportedArchive "multi-disk ZIP64 archives are not supported")
  let zip64Eocd ← readExactAt file zip64EocdOffset zip64EndOfCentralDirectoryBytes
  rejectIf (slice zip64Eocd 0 4 ≠ zip64EndOfCentralDirectoryMagic)
    (unsafeArchive "archive has an invalid ZIP64 central-directory record")
  let recordSize := readU64 zip64Eocd 4
  let recordEnd ← okOr ((checkedAdd64 zip64EocdOffset 12).bind (checkedAdd64 · recordSize))
    (unsafeArchive "ZIP64 central-directory record overflow")
  rejectIf (recordSize < zip64EndOfCentralDirectoryMinRecordSize ∨ recordEnd ≠ locatorOffset)
    (unsafeArchive "ZIP64 central-directory record size is inconsistent")
  let diskNumber := readU32 zip64Eocd 16
  let centralDirectoryDisk := readU32 zip64Eocd 20
  let entriesOnDisk := readU64 zip64Eocd 24
  let totalEntries := readU64 zip64Eocd 32
  let centralDirectorySize := readU64 zip64Eocd 40
  let centralDirectoryOffset := readU64 zip64Eocd 48
  rejectIf (diskNumber ≠ 0 ∨ centralDirectoryDisk ≠ 0 ∨ entriesOnDisk ≠ totalEntries ∨
      locatorDisk ≠ centralDirectoryDisk) (unsupportedArchive "multi-disk ZIP64 archives are not supported")
  rejectIf (disagrees (readU16 eocd 8) u16Max entriesOnDisk || disagrees (readU16 eocd 10) u16Max totalEntries ||
      disagrees (readU32 eocd 12) u32Sentinel centralDirectorySize ||
      disagrees (readU32 eocd 16) u32Sentinel centralDirectoryOffset)
    (unsafeArchive "ZIP32 and ZIP64 central-directory metadata disagree")
  pure ⟨totalEntries, centralDirectorySize, centralDirectoryOffset, zip64EocdOffset⟩

/-! ## The records -/

/-- The bytes after the header of a central record. -/
def variableSize (header : List UInt8) : Preflight Nat := do
  let nameAndExtra ← add64 (readU16 header 28) (readU16 header 30)
  add64 nameAndExtra (readU16 header 32)

/-- The loop of `validate_raw_central_directory`, at a position of the file. -/
def validateRecords (file : ArchiveFile) (centralSize : Nat) : Nat → Nat → Nat → Preflight Unit
  | 0, consumed, _ => rejectIf (consumed ≠ centralSize)
      (unsafeArchive "archive central directory contains undeclared records or trailing data")
  | entries + 1, consumed, position => do
    let remaining ← okOr (checkedSub64 centralSize consumed)
      (unsafeArchive "archive central-directory size underflow")
    rejectIf (remaining < centralDirectoryHeaderBytes)
      (unsafeArchive "archive central directory contains fewer records than declared")
    rejectIf (position + centralDirectoryHeaderBytes > file.bytes.length)
      (unsafeArchive "archive central directory is truncated")
    let header := slice file.bytes position centralDirectoryHeaderBytes
    rejectIf (slice header 0 4 ≠ centralDirectoryHeaderMagic)
      (unsafeArchive "archive central directory contains an invalid record")
    let variable_ ← variableSize header
    let recordSize ← okOr (checkedAdd64 centralDirectoryHeaderBytes variable_)
      (unsafeArchive "archive central record size overflow")
    let consumed ← okOr (checkedAdd64 consumed recordSize)
      (unsafeArchive "archive central-directory size overflow")
    rejectIf (consumed > centralSize)
      (unsafeArchive "archive central-directory record exceeds its declared size")
    validateRecords file centralSize entries consumed (position + centralDirectoryHeaderBytes + variable_)

/-! ## The preflight -/

def maxTailLen : Nat := u16Max + endOfCentralDirectoryBytes

/-- The end of the file that is searched. -/
def archiveTail (file : ArchiveFile) : List UInt8 :=
  file.bytes.drop (file.bytes.length - min file.bytes.length maxTailLen)

/-- The end record asks for a ZIP64 record. -/
def asksForZip64 (eocd : List UInt8) : Bool := readU16 eocd 10 == u16Max || readU32 eocd 16 == u32Sentinel

/-- The central directory that the end records declare. -/
def readCentralDirectory (file : ArchiveFile) (eocdOffset : Nat) (eocd : List UInt8) :
    Preflight CentralDirectory := do
  rejectIf (readU16 eocd 4 ≠ 0 ∨ readU16 eocd 6 ≠ 0 ∨ readU16 eocd 8 ≠ readU16 eocd 10)
    (unsupportedArchive "multi-disk ZIP archives are not supported")
  if asksForZip64 eocd then readZip64CentralDirectory file eocdOffset eocd
  else
    rejectIf (readU32 eocd 12 = u32Sentinel)
      (unsafeArchive "ZIP32 central-directory size uses an invalid ZIP64 sentinel")
    pure ⟨readU16 eocd 10, readU32 eocd 12, readU32 eocd 16, eocdOffset⟩

/-- The checks of the declared directory; the offset where it starts. -/
def checkCentralDirectory (file : ArchiveFile) (limits : ImportLimits) (central : CentralDirectory) :
    Preflight Nat := do
  rejectIf (central.entries > limits.maxEntries) (unsafeArchive
    s!"archive has {central.entries} raw central-directory entries; maximum is {limits.maxEntries}")
  rejectIf (central.size > file.bytes.length)
    (unsafeArchive "archive central directory extends beyond the file")
  rejectIf (central.size > limits.maxSourceBytes)
    (archiveResourceLimit "archive central directory exceeds the configured source limit")
  let minimum ← okOr (checkedMul64 central.entries centralDirectoryHeaderBytes)
    (unsafeArchive "archive central-directory size overflow")
  let maximum ← okOr (checkedMul64 central.entries (centralDirectoryHeaderBytes + 3 * u16Max))
    (unsafeArchive "archive central-directory size overflow")
  rejectIf (central.size < minimum ∨ central.size > maximum)
    (unsafeArchive "archive central-directory count and size are inconsistent")
  let centralStart ← okOr (checkedSub64 central.endOffset central.size)
    (unsafeArchive "archive central directory extends before the file")
  rejectIf (centralStart < central.offset) (unsafeArchive "archive central-directory offset is inconsistent")
  pure centralStart

def preflightZipArchive (file : ArchiveFile) (limits : ImportLimits) : Preflight Nat := do
  let tail := archiveTail file
  let found ← okOr (← findEndOfCentralDirectory tail)
    (unsafeArchive "archive has no valid central directory")
  let tailStart ← okOr (checkedSub64 file.bytes.length tail.length)
    (unsafeArchive "archive central directory offset underflow")
  let eocdOffset ← okOr (checkedAdd64 tailStart found.1)
    (unsafeArchive "archive central directory offset overflow")
  let central ← readCentralDirectory file eocdOffset found.2
  let centralStart ← checkCentralDirectory file limits central
  validateRecords file central.size central.entries 0 centralStart
  pure central.entries

/-! ## Path registration -/

/-- `text.rsplit_once(c)`. -/
def rsplitOnce (c : Char) (text : List Char) : Option (List Char × List Char) :=
  if c ∈ text then
    some (((text.reverse.dropWhile (· ≠ c)).drop 1).reverse, (text.reverse.takeWhile (· ≠ c)).reverse)
  else none

/-- The upward loop of `register_archive_path`. A parent is shorter than its path, so the length of the path
is enough fuel. -/
def rejectFileAncestor (archivePaths : OrdMap String Bool) (originalName : String) :
    Nat → List Char → Except CoreError Unit
  | 0, _ => .ok ()
  | fuel + 1, ancestor =>
    match rsplitOnce '/' ancestor with
    | none => .ok ()
    | some (parent, _) => do
      rejectIf (archivePaths.get? (String.ofList parent) = some false)
        ⟨.unsafeArchive, s!"archive path descends through a file: {originalName}", false⟩
      rejectFileAncestor archivePaths originalName fuel parent

def registerArchivePath (archivePaths : OrdMap String Bool) (collisionKey : String) (isDirectory : Bool)
    (originalName : String) : Except CoreError (OrdMap String Bool) := do
  rejectIf (archivePaths.contains collisionKey = true)
    ⟨.unsafeArchive, s!"archive path collides after normalization: {originalName}", false⟩
  rejectFileAncestor archivePaths originalName collisionKey.length collisionKey.toList
  rejectIf (isDirectory = false ∧
      ∃ path ∈ archivePaths.keys, (collisionKey.toList ++ ['/']).isPrefixOf path.toList = true)
    ⟨.unsafeArchive, s!"archive file path collides with a directory: {originalName}", false⟩
  pure (archivePaths.insert collisionKey isDirectory)

end LorePia
