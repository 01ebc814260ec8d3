import CodexOS.Crc32
import CodexOS.Filesystem.Tree
import CodexOS.Lib.Word64

/-! # Superblocks and records

A record holds all entries of one generation, a superblock says where a record
lies. Both carry checksums of everything in them.
-/

namespace CodexOS.Filesystem

open Bytes Block Word64

/-- `CDXFS1` and two zero bytes. -/
def superblockMagic : Bytes := [0x43, 0x44, 0x58, 0x46, 0x53, 0x31, 0, 0]

/-- `CDXREC1` and a zero byte. -/
def recordMagic : Bytes := [0x43, 0x44, 0x58, 0x52, 0x45, 0x43, 0x31, 0]

def formatVersion : Nat := 3
def minFormatVersion : Nat := 1
def superblockASector : Nat := 0
def superblockBSector : Nat := 1
def recordAreaStart : Nat := 8
def recordSectors : Nat := 64
def recordBytes : Nat := recordSectors * sectorSize
def maxRecordSectors : Nat := 8192
def maxRecordBytes : Nat := maxRecordSectors * sectorSize
def recordHeaderBytes : Nat := 64
def legacyRecordEntryBytes : Nat := 8
def recordEntryBytes : Nat := 12
def superCrcOffset : Nat := 44
def recordHeaderCrcOffset : Nat := 36
def entryKindFile : Nat := 1
def entryKindDirectory : Nat := 2

def putU16 (output : Bytes) (offset value : Nat) : Bytes :=
  put output offset (le 2 value)

def putU32 (output : Bytes) (offset value : Nat) : Bytes :=
  put output offset (le 4 value)

def putU64 (output : Bytes) (offset value : Nat) : Bytes :=
  put output offset (le 8 value)

/-- The little-endian number of `size` bytes, if they are there. -/
def getLe (size : Nat) (input : Bytes) (offset : Nat) : Fallible Nat :=
  if offset + size ≤ input.length then .ok (leNat (slice input offset size))
  else fail .corruptRecord

def getU16 (input : Bytes) (offset : Nat) : Fallible Nat :=
  getLe 2 input offset

def getU32 (input : Bytes) (offset : Nat) : Fallible Nat :=
  getLe 4 input offset

def getU64 (input : Bytes) (offset : Nat) : Fallible Nat :=
  getLe 8 input offset

/-- `&bytes[start..stop]`. -/
def range (bytes : Bytes) (start stop : Nat) : Fallible Bytes :=
  if start ≤ stop ∧ stop ≤ bytes.length then .ok (slice bytes start (stop - start))
  else .error .panicked

/-- `left.checked_add(right).ok_or(error)`. -/
def addOr (error : FsError) (left right : Nat) : Fallible Nat :=
  match checkedAdd left right with
  | some sum => .ok sum
  | none => fail error

structure Superblock where
  generation : Nat
  recordStart : Nat
  recordSectors : Nat
  recordBytes : Nat
  recordCrc : UInt32
  capacitySectors : Nat
  deriving DecidableEq

/-- A superblock before its checksum is filled in. -/
def superblockBody (superblock : Superblock) : Bytes :=
  let sector := zeros sectorSize
  let sector := put sector 0 superblockMagic
  let sector := putU32 sector 8 formatVersion
  let sector := putU32 sector 12 64
  let sector := putU64 sector 16 superblock.generation
  let sector := putU64 sector 24 superblock.recordStart
  let sector := putU32 sector 32 superblock.recordSectors
  let sector := putU32 sector 36 superblock.recordBytes
  let sector := putU32 sector 40 superblock.recordCrc.toNat
  putU64 sector 48 superblock.capacitySectors

@[simp] theorem length_superblockBody (superblock : Superblock) :
    (superblockBody superblock).length = sectorSize := by
  simp [superblockBody, putU32, putU64]

def encodeSuperblock (superblock : Superblock) : Sector where
  bytes :=
    putU32 (superblockBody superblock) superCrcOffset (crc32 (superblockBody superblock)).toNat
  length_eq := by simp [putU32]

def validRecordLayout (version sectors bytes : Nat) : Bool :=
  if sectors = 0 ∨ maxRecordSectors < sectors then false
  else if ¬(recordHeaderBytes ≤ bytes ∧ bytes ≤ maxRecordBytes) then false
  else if bytes ≠ sectors * sectorSize then false
  else 3 ≤ version ∨ sectors = recordSectors ∧ bytes = recordBytes

def decodeSuperblock (sector : Sector) (actualCapacity : Nat) : Fallible Superblock := do
  let sector := sector.bytes
  let version ← getU32 sector 8
  let headerBytes ← getU32 sector 12
  if slice sector 0 8 ≠ superblockMagic ∨
      ¬(minFormatVersion ≤ version ∧ version ≤ formatVersion) ∨ headerBytes ≠ 64 then
    fail .corruptSuperblocks
  else
    let recordSectors ← getU32 sector 32
    let recordBytes ← getU32 sector 36
    if ¬validRecordLayout version recordSectors recordBytes then fail .corruptSuperblocks
    else
      let storedChecksum ← getU32 sector superCrcOffset
      if (crc32 (putU32 sector superCrcOffset 0)).toNat ≠ storedChecksum then
        fail .corruptSuperblocks
      else
        let generation ← getU64 sector 16
        let recordStart ← getU64 sector 24
        let capacitySectors ← getU64 sector 48
        let recordEnd ← addOr .arithmeticOverflow recordStart recordSectors
        if generation = 0 ∨ recordStart < recordAreaStart ∨ actualCapacity < recordEnd then
          fail .corruptSuperblocks
        else if version < 3 ∧ (recordStart - recordAreaStart) % Filesystem.recordSectors ≠ 0 then
          fail .corruptSuperblocks
        else if actualCapacity < capacitySectors then fail .corruptSuperblocks
        else
          let recordCrc ← getU32 sector 40
          return {
            generation
            recordStart
            recordSectors
            recordBytes
            recordCrc := .ofNat recordCrc
            capacitySectors }

def encodeKind : EntryKind → Nat
  | .file => entryKindFile
  | .directory => entryKindDirectory

def decodeKind (raw : Nat) : Fallible EntryKind :=
  if raw = entryKindFile then .ok .file
  else if raw = entryKindDirectory then .ok .directory
  else fail .corruptRecord

def requiredRecordBytes (files : List FileEntry) : Fallible Nat :=
  files.foldlM (fun bytes file => do
    let bytes ← addOr .arithmeticOverflow bytes recordEntryBytes
    let bytes ← addOr .arithmeticOverflow bytes file.name.bytes.length
    addOr .arithmeticOverflow bytes file.data.length) recordHeaderBytes

/-- Rounding up to a power of two. -/
def alignUpUsize (value alignment : Nat) : Fallible Nat := do
  let value ← addOr .arithmeticOverflow value (alignment - 1)
  return value / alignment * alignment

/-- One turn of the loop of `encode_record`: an entry at the cursor. -/
def encodeEntry (state : Bytes × Nat) (file : FileEntry) : Fallible (Bytes × Nat) := do
  let (record, cursor) := state
  validatePath file.name
  let name := file.name.bytes
  let record := putU16 record cursor name.length
  let record := putU16 record (cursor + 2) (encodeKind file.kind)
  let record := putU32 record (cursor + 4) file.data.length
  let record := putU16 record (cursor + 8) file.permissions.toNat
  let record := putU16 record (cursor + 10) 0
  let cursor := cursor + recordEntryBytes
  let record := put record cursor name
  let cursor := cursor + name.length
  let record := put record cursor file.data
  return (record, cursor + file.data.length)

/-- A record of `size` bytes with the first fields of its header. -/
def recordFront (size generation count : Nat) : Bytes :=
  let record := zeros size
  let record := put record 0 recordMagic
  let record := putU32 record 8 formatVersion
  let record := putU32 record 12 recordHeaderBytes
  let record := putU64 record 16 generation
  putU32 record 24 count

/-- The rest of the header, once the entries are there. -/
def sealRecord (record : Bytes) (cursor : Nat) : Bytes :=
  let payloadBytes := cursor - recordHeaderBytes
  let record := putU32 record 28 payloadBytes
  let record := putU32 record 32 (crc32 (slice record recordHeaderBytes payloadBytes)).toNat
  putU32 record recordHeaderCrcOffset (crc32 (slice record 0 recordHeaderBytes)).toNat

def encodeRecord (generation : Nat) (files : List FileEntry) : Fallible Bytes :=
  if maxFiles < files.length then fail .tooManyFiles
  else do
    validateTree files true
    let requiredBytes ← requiredRecordBytes files
    let aligned ← alignUpUsize requiredBytes sectorSize
    let size := max aligned recordBytes
    if maxRecordBytes < size then fail .snapshotTooLarge
    else
      let (record, cursor) ←
        files.foldlM encodeEntry (recordFront size generation files.length, recordHeaderBytes)
      return sealRecord record cursor

/-- The kind and the permissions of an entry header at the cursor. -/
def decodeMode (record : Bytes) (version cursor flags : Nat) : Fallible (EntryKind × UInt16) :=
  if version = 1 then
    if flags ≠ 0 then fail .corruptRecord else .ok (.file, defaultFilePermissions)
  else do
    let kind ← decodeKind flags
    let permissions ← getU16 record (cursor + 8)
    let reserved ← getU16 record (cursor + 10)
    if reserved ≠ 0 then fail .corruptRecord
    else
      validatePermissions (.ofNat permissions)
      return (kind, .ofNat permissions)

/-- One turn of the loop of `decode_record`: the entry at the cursor, and where the next one is. -/
def decodeEntry (record : Bytes) (version payloadEnd cursor : Nat) (files : List FileEntry) :
    Fallible (FileEntry × Nat) := do
  let entryHeaderBytes := if version = 1 then legacyRecordEntryBytes else recordEntryBytes
  let metadataEnd ← addOr .corruptRecord cursor entryHeaderBytes
  if payloadEnd < metadataEnd then fail .corruptRecord
  else
    let nameLen ← getU16 record cursor
    let flags ← getU16 record (cursor + 2)
    let dataLen ← getU32 record (cursor + 4)
    let (kind, permissions) ← decodeMode record version cursor flags
    let nameEnd ← addOr .corruptRecord metadataEnd nameLen
    let dataEnd ← addOr .corruptRecord nameEnd dataLen
    if payloadEnd < dataEnd then fail .corruptRecord
    else
      let nameBytes ← range record metadataEnd nameEnd
      match fromUtf8 nameBytes with
      | none => fail .invalidUtf8
      | some name =>
        validatePath name
        if kind = .directory ∧ dataLen ≠ 0 then fail .corruptRecord
        else if files.any fun entry => entry.name = name then fail .corruptRecord
        else
          let data ← range record nameEnd dataEnd
          return ({ name, data, kind, permissions }, dataEnd)

def decodeEntries (record : Bytes) (version payloadEnd : Nat) :
    Nat → Nat → List FileEntry → Fallible (List FileEntry × Nat)
  | 0, cursor, files => .ok (files, cursor)
  | count + 1, cursor, files => do
    let (entry, cursor) ← decodeEntry record version payloadEnd cursor files
    decodeEntries record version payloadEnd count cursor (files ++ [entry])

def decodeRecord (record : Bytes) (expectedGeneration : Nat) : Fallible (List FileEntry) :=
  if record.length < recordHeaderBytes then fail .corruptRecord
  else do
    let version ← getU32 record 8
    let headerBytes ← getU32 record 12
    let generation ← getU64 record 16
    if slice record 0 8 ≠ recordMagic ∨
        ¬(minFormatVersion ≤ version ∧ version ≤ formatVersion) ∨
        headerBytes ≠ recordHeaderBytes ∨ generation ≠ expectedGeneration then
      fail .corruptRecord
    else
      let header := slice record 0 recordHeaderBytes
      let storedHeaderCrc ← getU32 header recordHeaderCrcOffset
      if (crc32 (putU32 header recordHeaderCrcOffset 0)).toNat ≠ storedHeaderCrc then
        fail .corruptRecord
      else
        let entryCount ← getU32 record 24
        let payloadBytes ← getU32 record 28
        if maxFiles < entryCount then fail .corruptRecord
        else
          let payloadEnd ← addOr .corruptRecord recordHeaderBytes payloadBytes
          if record.length < payloadEnd then fail .corruptRecord
          else
            let payload ← range record recordHeaderBytes payloadEnd
            let payloadCrc ← getU32 record 32
            if (crc32 payload).toNat ≠ payloadCrc then fail .corruptRecord
            else
              let (files, cursor) ←
                decodeEntries record version payloadEnd entryCount recordHeaderBytes []
              if cursor ≠ payloadEnd then fail .corruptRecord
              else
                validateTree files (version ≠ 1)
                return files

end CodexOS.Filesystem
