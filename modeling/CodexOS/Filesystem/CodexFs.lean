import CodexOS.Filesystem.Record

/-! # The mounted file system

The entries live in memory. A change is committed by writing all entries as a
record to a free part of the device, and then a superblock that names the record,
with a flush after each. Superblocks alternate between two sectors, so that the
last one stays when the next one is written.
-/

namespace CodexOS.Filesystem

open Bytes Block BlockDevice Effect Word64

inductive MountState
  | existing
  | formatted
  deriving DecidableEq

structure LoadedSnapshot where
  superblock : Superblock
  files : List FileEntry
  deriving DecidableEq

structure CodexFs (δ : Type) where
  device : δ
  files : List FileEntry
  generation : Nat
  recordSlots : Nat
  recordSlotSectors : Nat
  activeRecordStart : Nat
  activeRecordSectors : Nat
  mountState : MountState

variable {δ σ α : Type}

/-! ## Calls -/

/-- A fallible computation as a step that leaves the state alone. -/
def lift (x : Fallible α) : EStateM Stop σ α := fun state =>
  match x with
  | .ok a => .ok a state
  | .error stop => .error stop state

theorem lift_ok_bind (a : α) (f : α → EStateM Stop σ β) : (lift (.ok a) >>= f) = f a :=
  rfl

/-- A call of the device; its error becomes `FsError::Block`. -/
def call (x : EStateM BlockError δ α) : EStateM Stop δ α := fun device =>
  match x.run device with
  | .ok a device => .ok a device
  | .error error device => .error (.failed (.block error)) device

/-- A step of the device of a mounted file system. -/
def onDevice (x : EStateM Stop δ α) : EStateM Stop (CodexFs δ) α := fun filesystem =>
  match x.run filesystem.device with
  | .ok a device => .ok a { filesystem with device }
  | .error stop device => .error stop { filesystem with device }

/-- `result.ok()`: an error is dropped, a panic is not. -/
def okOf (result : Fallible α) : Fallible (Option α) :=
  match result with
  | .ok a => .ok (some a)
  | .error (.failed _) => .ok none
  | .error .panicked => .error .panicked

/-! ## Slots -/

def recordSlotSpan (sectorCount : Nat) : Fallible Nat :=
  match checkedSub sectorCount recordAreaStart with
  | none => fail .deviceTooSmall
  | some available =>
    let half := available / 2
    if half < recordSectors then fail .deviceTooSmall
    else .ok (min maxRecordSectors half)

def recordSlotCount (sectorCount slotSpanSectors : Nat) : Fallible Nat :=
  match checkedSub sectorCount recordAreaStart with
  | none => fail .deviceTooSmall
  | some available =>
    let slots := available / slotSpanSectors
    if slots < 2 then fail .deviceTooSmall else .ok slots

def rangesOverlap (leftStart leftSectors rightStart rightSectors : Nat) : Fallible Bool := do
  let leftEnd ← addOr .arithmeticOverflow leftStart leftSectors
  let rightEnd ← addOr .arithmeticOverflow rightStart rightSectors
  return leftStart < rightEnd ∧ rightStart < leftEnd

/-- `left.checked_mul(right).ok_or(FsError::ArithmeticOverflow)`. -/
def mulOr (left right : Nat) : Fallible Nat :=
  match checkedMul left right with
  | some product => .ok product
  | none => fail .arithmeticOverflow

/-! ## Reading -/

section

variable [BlockDevice δ]

/-- The loop of `read_record` over the sectors that are left. -/
def readSectors (start : Nat) : Nat → Nat → Bytes → EStateM Stop δ Bytes
  | _, 0, record => pure record
  | offset, left + 1, record => do
    let sector ← call (readSector (start + offset))
    if offset * sectorSize + sectorSize ≤ record.length then
      readSectors start (offset + 1) left (put record (offset * sectorSize) sector.bytes)
    else throw .panicked

def readRecord (superblock : Superblock) : EStateM Stop δ (List FileEntry) := do
  let record ← readSectors superblock.recordStart 0 superblock.recordSectors
    (zeros superblock.recordBytes)
  if crc32 record ≠ superblock.recordCrc then throw (.failed .corruptRecord)
  else lift (decodeRecord record superblock.generation)

/-- A superblock sector: the superblock in it, and whether any byte is not zero. -/
def readSuperblock (number : Nat) : EStateM Stop δ (Option Superblock × Bool) := do
  let sector ← call (readSector number)
  let device ← get
  let candidate ← lift (okOf (decodeSuperblock sector (sectorCount device)))
  return (candidate, sector.bytes.any (· ≠ 0))

/-- The second loop of `load_latest_snapshot`: a candidate against the best one so far. -/
def considerCandidate (best : Option LoadedSnapshot) :
    Option Superblock → EStateM Stop δ (Option LoadedSnapshot)
  | none => pure best
  | some superblock => do
    let result ← attempt (readRecord superblock)
    let files ← lift (okOf result)
    match files with
    | none => return best
    | some files =>
      if best.all fun current => current.superblock.generation < superblock.generation then
        return some { superblock, files }
      else return best

def loadLatestSnapshot : EStateM Stop δ (Option LoadedSnapshot) := do
  let (candidateA, nonzeroA) ← readSuperblock superblockASector
  let (candidateB, nonzeroB) ← readSuperblock superblockBSector
  let best ← considerCandidate none candidateA
  let best ← considerCandidate best candidateB
  if best.isNone ∧ (nonzeroA ∨ nonzeroB) then throw (.failed .corruptSuperblocks)
  else return best

end

/-! ## Committing -/

section

variable [BlockDevice δ]

/-- The loop of `select_record_start` over the attempts that are left. -/
def selectFrom (filesystem : CodexFs δ) (generation recordSectors : Nat) :
    Nat → Nat → Fallible Nat
  | _, 0 => fail .snapshotTooLarge
  | attempt, left + 1 => do
    let probe ← addOr .arithmeticOverflow generation attempt
    let slot := probe % filesystem.recordSlots
    let offset ← mulOr slot filesystem.recordSlotSectors
    let recordStart ← addOr .arithmeticOverflow recordAreaStart offset
    let recordEnd ← addOr .arithmeticOverflow recordStart recordSectors
    if sectorCount filesystem.device < recordEnd then
      selectFrom filesystem generation recordSectors (attempt + 1) left
    else if filesystem.activeRecordSectors = 0 then return recordStart
    else
      let overlap ← rangesOverlap recordStart recordSectors filesystem.activeRecordStart
        filesystem.activeRecordSectors
      if overlap then selectFrom filesystem generation recordSectors (attempt + 1) left
      else return recordStart

def selectRecordStart (filesystem : CodexFs δ) (generation recordSectors : Nat) : Fallible Nat :=
  selectFrom filesystem generation recordSectors 0 filesystem.recordSlots

/-- `&record[offset * 512..offset * 512 + 512]` copied to a sector. -/
def sectorOf (record : Bytes) (offset : Nat) : Fallible Sector :=
  let bytes := slice record (offset * sectorSize) sectorSize
  if whole : bytes.length = sectorSize then .ok ⟨bytes, whole⟩ else .error .panicked

/-- The loop of `commit_files` over the sectors that are left. -/
def writeSectors (start : Nat) (record : Bytes) : Nat → Nat → EStateM Stop δ Unit
  | _, 0 => pure ()
  | offset, left + 1 => do
    let sector ← lift (sectorOf record offset)
    call (writeSector (start + offset) sector)
    writeSectors start record (offset + 1) left

def superSector (generation : Nat) : Nat :=
  if generation % 2 = 0 then superblockASector else superblockBSector

/-- What `commit_files` settles before its first write. -/
structure Prepared where
  generation : Nat
  record : Bytes
  recordSectors : Nat
  recordStart : Nat

def prepare (filesystem : CodexFs δ) (files : List FileEntry) : Fallible Prepared := do
  let generation ← addOr .arithmeticOverflow filesystem.generation 1
  let record ← encodeRecord generation files
  let recordSectors := record.length / sectorSize
  if 2 ^ 32 ≤ recordSectors then fail .arithmeticOverflow
  else if recordSectors = 0 ∨ filesystem.recordSlotSectors < recordSectors then
    fail .snapshotTooLarge
  else
    let recordStart ← selectRecordStart filesystem generation recordSectors
    return { generation, record, recordSectors, recordStart }

def Prepared.superblock (prepared : Prepared) (capacitySectors : Nat) : Superblock where
  generation := prepared.generation
  recordStart := prepared.recordStart
  recordSectors := prepared.recordSectors
  recordBytes := prepared.record.length
  recordCrc := crc32 prepared.record
  capacitySectors

/-- The device calls of `commit_files`. -/
def storeSnapshot (prepared : Prepared) : EStateM Stop δ Unit := do
  writeSectors prepared.recordStart prepared.record 0 prepared.recordSectors
  call flush
  let device ← get
  let sector := encodeSuperblock (prepared.superblock (sectorCount device))
  call (writeSector (superSector prepared.generation) sector)
  call flush

def commitFiles (files : List FileEntry) : EStateM Stop (CodexFs δ) Unit := do
  let filesystem ← get
  let prepared ← lift (prepare filesystem files)
  onDevice (storeSnapshot prepared)
  modify fun filesystem => { filesystem with
    generation := prepared.generation
    activeRecordStart := prepared.recordStart
    activeRecordSectors := prepared.recordSectors }

/-- Commit the entries and take them over. -/
def replaceFiles (next : List FileEntry) : EStateM Stop (CodexFs δ) Unit := do
  commitFiles next
  modify fun filesystem => { filesystem with files := next }

/-- The same, if there is a change. -/
def replaceIfChanged (next : List FileEntry) : EStateM Stop (CodexFs δ) Unit := do
  let filesystem ← get
  if next ≠ filesystem.files then replaceFiles next else pure ()

end

/-! ## Public operations -/

section

/-- The end of `mount_or_format` on a blank device. -/
def handOver : EStateM.Result Stop (CodexFs δ) Unit → Except (Stop × δ) (CodexFs δ)
  | .ok _ filesystem => .ok filesystem
  | .error stop filesystem => .error (stop, filesystem.device)

variable [BlockDevice δ]

/-- A mounted file system, or the error and the device as the failed call left it. -/
def mountOrFormat (device : δ) : Except (Stop × δ) (CodexFs δ) :=
  if ¬supportsFlush device then .error (.failed .flushUnsupported, device)
  else
    match recordSlotSpan (sectorCount device) with
    | .error stop => .error (stop, device)
    | .ok recordSlotSectors =>
      match recordSlotCount (sectorCount device) recordSlotSectors with
      | .error stop => .error (stop, device)
      | .ok recordSlots =>
        match loadLatestSnapshot.run device with
        | .error stop device => .error (stop, device)
        | .ok (some snapshot) device =>
          .ok {
            device
            files := snapshot.files
            generation := snapshot.superblock.generation
            recordSlots
            recordSlotSectors
            activeRecordStart := snapshot.superblock.recordStart
            activeRecordSectors := snapshot.superblock.recordSectors
            mountState := .existing }
        | .ok none device =>
          let filesystem := {
            device
            files := []
            generation := 0
            recordSlots
            recordSlotSectors
            activeRecordStart := 0
            activeRecordSectors := 0
            mountState := .formatted }
          handOver ((commitFiles []).run filesystem)

section

variable (path : Text)

def writeFileInner (data : Bytes) (permissions : Option UInt16) :
    EStateM Stop (CodexFs δ) Unit := do
  let filesystem ← get
  let next ← lift (writeFileEntries filesystem.files path data permissions)
  replaceFiles next

def writeFile (data : Bytes) : EStateM Stop (CodexFs δ) Unit :=
  writeFileInner path data none

def writeFileWithPermissions (data : Bytes) (permissions : UInt16) :
    EStateM Stop (CodexFs δ) Unit := do
  lift (validatePermissions permissions)
  writeFileInner path data (some permissions)

def createDir (permissions : UInt16) : EStateM Stop (CodexFs δ) Unit := do
  let filesystem ← get
  let next ← lift (createDirEntries filesystem.files path permissions)
  replaceIfChanged next

def createDirAll (permissions : UInt16) : EStateM Stop (CodexFs δ) Unit := do
  let filesystem ← get
  let next ← lift (createDirAllEntries filesystem.files path permissions)
  replaceIfChanged next

def setPermissions (permissions : UInt16) : EStateM Stop (CodexFs δ) Unit := do
  let filesystem ← get
  let next ← lift (setPermissionsEntries filesystem.files path permissions)
  replaceIfChanged next

def removeFile : EStateM Stop (CodexFs δ) Unit := do
  let filesystem ← get
  let next ← lift (removeFileEntries filesystem.files path)
  replaceFiles next

def removeDir : EStateM Stop (CodexFs δ) Unit := do
  let filesystem ← get
  let next ← lift (removeDirEntries filesystem.files path)
  replaceFiles next

end

def verifyCommittedState : EStateM Stop (CodexFs δ) Unit := do
  let found ← onDevice loadLatestSnapshot
  let filesystem ← get
  match found with
  | none => throw (.failed .verificationFailed)
  | some loaded =>
    if loaded.superblock.generation ≠ filesystem.generation ∨ loaded.files ≠ filesystem.files then
      throw (.failed .verificationFailed)
    else
      set { filesystem with
        activeRecordStart := loaded.superblock.recordStart
        activeRecordSectors := loaded.superblock.recordSectors }

/-- The flush; the device is the one of the state it leaves. -/
def unmount : EStateM Stop (CodexFs δ) Unit :=
  onDevice (call flush)

end

/-- The operations that change entries. -/
inductive Operation
  | writeFile (path : Text) (data : Bytes)
  | writeFileWithPermissions (path : Text) (data : Bytes) (permissions : UInt16)
  | createDir (path : Text) (permissions : UInt16)
  | createDirAll (path : Text) (permissions : UInt16)
  | setPermissions (path : Text) (permissions : UInt16)
  | removeFile (path : Text)
  | removeDir (path : Text)

def Operation.perform [BlockDevice δ] : Operation → EStateM Stop (CodexFs δ) Unit
  | .writeFile path data => Filesystem.writeFile path data
  | .writeFileWithPermissions path data permissions =>
    Filesystem.writeFileWithPermissions path data permissions
  | .createDir path permissions => Filesystem.createDir path permissions
  | .createDirAll path permissions => Filesystem.createDirAll path permissions
  | .setPermissions path permissions => Filesystem.setPermissions path permissions
  | .removeFile path => Filesystem.removeFile path
  | .removeDir path => Filesystem.removeDir path

end CodexOS.Filesystem
