import CodexOS.Release.Format
import CodexOS.BootInfo

/-! # Parsing and staging the kernel image

What the loader does with a verified kernel file: read its program headers, ask
the firmware for pages, copy the segments there and apply the relative
relocations. The ELF reader and the firmware's page service are parameters; the
memory the loader fills is kept as the list of its writes.
-/

namespace CodexOS.Release

open Bytes Word64

def maxKernelImageSegments : Nat := 8
def lowMemoryReserveBytes : Nat := 1024 * 1024
def kernelSegmentFlagRead : Nat := 1
def kernelSegmentFlagWrite : Nat := 2
def kernelSegmentFlagExecute : Nat := 4

/-- One program header, as the ELF reader reports it. -/
structure ProgramHeader where
  isLoad : Bool
  virtualAddr : UInt64
  physicalAddr : UInt64
  offset : UInt64
  fileSize : UInt64
  memSize : UInt64
  isRead : Bool
  isWrite : Bool
  isExecute : Bool
  deriving DecidableEq

structure Relocation where
  type : UInt32
  symbolTableIndex : UInt32
  offset : UInt64
  addend : UInt64
  deriving DecidableEq

/-- The section contents the loader tells apart. -/
inductive SectionData where
  | rela64 (relocations : List Relocation)
  | rela32
  | other
  deriving DecidableEq

/-- What the loader reads of an ELF file; a section whose data is malformed is `none`. -/
structure ElfFile where
  entryPoint : UInt64
  phCount : Nat
  programHeaders : List ProgramHeader
  sections : List (Option SectionData)
  deriving DecidableEq

inductive AllocateType where
  | address (base : Nat)
  | anyPages
  deriving DecidableEq

/-- The code and services the loader is linked with: hashing, signatures, the ELF
    reader, the firmware's page allocator and the key compiled into the loader. -/
structure Platform where
  sha256 : Bytes → Sha256Hash
  /-- `VerifyingKey::from_bytes` accepts the key. -/
  validKey : PublicKey → Bool
  verifyStrict : PublicKey → Bytes → Signature → Bool
  trustedPublicKeyHex : Option Bytes
  elfFile : Bytes → Option ElfFile
  allocatePages : AllocateType → Nat → Option Nat

structure KernelImageSegment where
  virtualAddress : Nat
  physicalAddress : Nat
  fileOffset : Nat
  fileSize : Nat
  memorySize : Nat
  flags : Nat
  loadAddress : Nat
  loadPageCount : Nat
  deriving DecidableEq

structure KernelImageInfo where
  imageSize : Nat
  releaseVersion : UInt64
  bootStateGeneration : UInt64
  systemSlot : UInt8
  recoveryFallback : UInt8
  signatureVerified : UInt8
  verificationKeyId : KeyId
  kernelSha256 : Sha256Hash
  entryPoint : Nat
  loadedEntryPoint : Nat
  loadBase : Nat
  loadPageCount : Nat
  programHeaderCount : Nat
  /-- `segments[..load_segment_count]`; never more than the record has room for. -/
  segments : List KernelImageSegment
  loadSegmentTotal : Nat
  loadedSegmentCount : Nat
  relocationCount : Nat
  deriving DecidableEq

def encodeSegmentFlags (header : ProgramHeader) : Nat :=
  (if header.isRead then kernelSegmentFlagRead else 0) +
    (if header.isWrite then kernelSegmentFlagWrite else 0) +
    (if header.isExecute then kernelSegmentFlagExecute else 0)

def segmentOfHeader (header : ProgramHeader) : KernelImageSegment where
  virtualAddress := header.virtualAddr.toNat
  physicalAddress := header.physicalAddr.toNat
  fileOffset := header.offset.toNat
  fileSize := header.fileSize.toNat
  memorySize := header.memSize.toNat
  flags := encodeSegmentFlags header
  loadAddress := 0
  loadPageCount := 0

section

variable (platform : Platform)

def parseKernelImage (bytes : Bytes) : Option KernelImageInfo :=
  match platform.elfFile bytes with
  | none => none
  | some elf =>
    let loads := elf.programHeaders.filter (·.isLoad)
    some
      { imageSize := bytes.length
        releaseVersion := 0
        bootStateGeneration := 0
        systemSlot := 0
        recoveryFallback := 0
        signatureVerified := 0
        verificationKeyId := Vector.replicate 16 0
        kernelSha256 := Vector.replicate 32 0
        entryPoint := elf.entryPoint.toNat
        loadedEntryPoint := 0
        loadBase := 0
        loadPageCount := 0
        programHeaderCount := elf.phCount
        -- headers past the room of the record are counted and dropped
        segments := (loads.take maxKernelImageSegments).map segmentOfHeader
        loadSegmentTotal := loads.length
        loadedSegmentCount := 0
        relocationCount := 0 }

def alignDown (value : Nat) : Nat :=
  value - value % pageSize

def alignUp (value : Nat) : Nat :=
  alignDown (saturatingAdd value (pageSize - 1))

/-- Bytes the loader stores at a physical address. -/
structure MemoryWrite where
  address : Nat
  bytes : Bytes
  deriving DecidableEq

/-- Staging fails without a reason; the writes made before the failure stay made. -/
abbrev Staging := EStateM Unit (List MemoryWrite)

def Staging.write (address : Nat) (bytes : Bytes) : Staging Unit :=
  modify (· ++ [{ address, bytes }])

def Staging.ofOption {α : Type} : Option α → Staging α
  | some a => pure a
  | none => throw ()

def allocateKernelPages (base pageCount : Nat) : Option Nat :=
  if base ≥ lowMemoryReserveBytes then
    match platform.allocatePages (.address base) pageCount with
    | some pages => some pages
    | none => platform.allocatePages .anyPages pageCount
  else platform.allocatePages .anyPages pageCount

/-- Lowest page and page-rounded end of the segments that occupy memory. -/
def imageSpan (segments : List KernelImageSegment) : Nat × Nat :=
  segments.foldl
    (fun (imageBase, imageEnd) segment =>
      if segment.memorySize = 0 then (imageBase, imageEnd)
      else
        (min imageBase (alignDown segment.virtualAddress),
          max imageEnd (alignUp (saturatingAdd segment.virtualAddress segment.memorySize))))
    (maxValue, 0)

def copySegments (bytes : Bytes) (imageBase allocationPhys : Nat) :
    List KernelImageSegment → Staging Unit
  | [] => pure ()
  | segment :: rest => do
    if segment.memorySize = 0 then copySegments bytes imageBase allocationPhys rest
    else
      let fileEnd ← Staging.ofOption (checkedAdd segment.fileOffset segment.fileSize)
      if fileEnd > bytes.length then throw ()
      let destinationOffset := segment.virtualAddress - imageBase
      Staging.write (allocationPhys + destinationOffset)
        (slice bytes segment.fileOffset segment.fileSize)
      copySegments bytes imageBase allocationPhys rest

def applyRelocations (imageBase allocationPhys spanBytes : Nat) :
    List Relocation → Staging Nat
  | [] => pure 0
  | relocation :: rest => do
    -- R_X86_64_RELATIVE, and no symbol
    if relocation.type ≠ 8 ∨ relocation.symbolTableIndex ≠ 0 then throw ()
    let targetOffset ← Staging.ofOption (checkedSub relocation.offset.toNat imageBase)
    let targetEnd ← Staging.ofOption (checkedAdd targetOffset 8)
    if targetEnd > spanBytes then throw ()
    let targetAddress ← Staging.ofOption (checkedAdd allocationPhys targetOffset)
    Staging.write targetAddress (le 8 relocation.addend.toNat)
    let applied ← applyRelocations imageBase allocationPhys spanBytes rest
    pure (applied + 1)

def relocateSections (imageBase allocationPhys spanBytes : Nat) :
    List (Option SectionData) → Staging Nat
  | [] => pure 0
  | none :: _ => throw ()
  | some .rela32 :: _ => throw ()
  | some .other :: rest => relocateSections imageBase allocationPhys spanBytes rest
  | some (.rela64 relocations) :: rest => do
    let here ← applyRelocations imageBase allocationPhys spanBytes relocations
    let later ← relocateSections imageBase allocationPhys spanBytes rest
    pure (here + later)

def applyKernelRelocations (bytes : Bytes) (imageBase allocationPhys spanBytes : Nat) :
    Staging Nat := do
  let elf ← Staging.ofOption (platform.elfFile bytes)
  relocateSections imageBase allocationPhys spanBytes elf.sections

/-- The span the segments were staged into. -/
structure StagedSpan where
  imageBase : Nat
  pageCount : Nat
  allocationPhys : Nat
  relocationCount : Nat
  deriving DecidableEq

def stageKernelImageSpan (segments : List KernelImageSegment) (bytes : Bytes) :
    Staging StagedSpan := do
  let (imageBase, imageEnd) := imageSpan segments
  if imageBase = maxValue ∨ imageEnd ≤ imageBase then throw ()
  let spanBytes := imageEnd - imageBase
  let pageCount := spanBytes / pageSize
  let allocationPhys ← Staging.ofOption (allocateKernelPages platform imageBase pageCount)
  Staging.write allocationPhys (zeros spanBytes)
  copySegments bytes imageBase allocationPhys segments
  let relocationCount ←
    applyKernelRelocations platform bytes imageBase allocationPhys spanBytes
  pure { imageBase, pageCount, allocationPhys, relocationCount }

def placeSegment (imageBase allocationPhys : Nat) (segment : KernelImageSegment) :
    KernelImageSegment :=
  let segmentBase := alignDown segment.virtualAddress
  let pageOffset := segment.virtualAddress - segmentBase
  let spanBytes := alignUp (saturatingAdd pageOffset segment.memorySize)
  { segment with
    loadAddress := saturatingAdd allocationPhys (segment.virtualAddress - imageBase)
    loadPageCount := spanBytes / pageSize }

/-- The image record after staging, or nothing when staging fails. -/
def stageKernelSegments (info : KernelImageInfo) (bytes : Bytes) : Option KernelImageInfo :=
  match (stageKernelImageSpan platform info.segments bytes).run [] with
  | .error _ _ => none
  | .ok span _ =>
    some
      { info with
        loadBase := span.allocationPhys
        loadPageCount := span.pageCount
        loadedEntryPoint :=
          saturatingAdd span.allocationPhys (info.entryPoint - span.imageBase)
        relocationCount := span.relocationCount
        segments := info.segments.map (placeSegment span.imageBase span.allocationPhys)
        loadedSegmentCount := info.loadedSegmentCount + info.segments.length }

end

end CodexOS.Release
