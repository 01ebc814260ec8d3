import CodexOS.Lib.Word64

/-! # What the loader tells the kernel about memory

The memory map and the ranges the loader has already used. Both tables have a
fixed size in the source, and the lists here are their filled parts.
-/

namespace CodexOS

open Word64

def pageSize : Nat := 4096
def maxMemoryRegions : Nat := 128
def maxReservedMemoryRanges : Nat := 16

inductive MemoryRegionKind where
  | reserved
  | loaderCode
  | loaderData
  | bootServicesCode
  | bootServicesData
  | runtimeServicesCode
  | runtimeServicesData
  | conventional
  | unusable
  | acpiReclaim
  | acpiNonVolatile
  | mmio
  | mmioPortSpace
  | palCode
  | persistentMemory
  | unaccepted
  | unknown
  deriving DecidableEq

def MemoryRegionKind.isReclaimableByKernel : MemoryRegionKind → Bool
  | .conventional | .loaderCode | .loaderData | .bootServicesCode | .bootServicesData
  | .acpiReclaim => true
  | _ => false

inductive FirmwareMode where
  | uefiBootServices
  | postExitBootServices
  deriving DecidableEq

def FirmwareMode.regionIsCurrentlyUsable : FirmwareMode → MemoryRegionKind → Bool
  | .uefiBootServices, .conventional | .uefiBootServices, .loaderCode
  | .uefiBootServices, .loaderData => true
  | .uefiBootServices, _ => false
  | .postExitBootServices, kind => kind.isReclaimableByKernel

inductive ReservedMemoryKind where
  | lowMemory
  | loaderImage
  | frameBuffer
  | memoryMap
  | kernelImageLoad
  | runtimeHeap
  | kernelHeap
  | descriptorTables
  | pageTables
  | unknown
  deriving DecidableEq

structure MemoryRegion where
  start : UInt64
  pageCount : UInt64
  kind : MemoryRegionKind
  deriving DecidableEq

def MemoryRegion.sizeBytes (region : MemoryRegion) : Nat :=
  saturatingMul region.pageCount.toNat pageSize

/-- The source's `end`. -/
def MemoryRegion.stop (region : MemoryRegion) : Nat :=
  saturatingAdd region.start.toNat region.sizeBytes

structure ReservedMemoryRange where
  start : UInt64
  length : UInt64
  kind : ReservedMemoryKind
  deriving DecidableEq

/-- The source's `end`. -/
def ReservedMemoryRange.stop (range : ReservedMemoryRange) : Nat :=
  saturatingAdd range.start.toNat range.length.toNat

structure BootInfo where
  firmwareMode : FirmwareMode
  memoryRegions : List MemoryRegion
  reservedMemory : List ReservedMemoryRange
  regionsFit : memoryRegions.length ≤ maxMemoryRegions
  rangesFit : reservedMemory.length ≤ maxReservedMemoryRanges

theorem no_ranges_fit : ([] : List ReservedMemoryRange).length ≤ maxReservedMemoryRanges :=
  Nat.zero_le _

def ReservedMemoryRange.grow (range : ReservedMemoryRange) (length : UInt64) :
    ReservedMemoryRange :=
  { range with length := .ofNat (saturatingAdd range.length.toNat length.toNat) }

/-- Enter a range behind one of its kind or as a new one; `none` is the source's `false`. -/
def BootInfo.reserveMemory (bootInfo : BootInfo) (start length : UInt64)
    (kind : ReservedMemoryKind) : Option BootInfo :=
  if length = 0 then none
  else
    match bootInfo.reservedMemory.findIdx? fun range =>
        range.kind = kind && range.stop = start.toNat with
    | some index =>
      some { bootInfo with
        reservedMemory := bootInfo.reservedMemory.modify index (·.grow length)
        rangesFit := by
          rw [List.length_modify]
          exact bootInfo.rangesFit }
    | none =>
      if room : bootInfo.reservedMemory.length < maxReservedMemoryRanges then
        some { bootInfo with
          reservedMemory := bootInfo.reservedMemory ++ [{ start, length, kind }]
          rangesFit := by
            rw [List.length_append]
            exact room }
      else none

end CodexOS
