import CodexOS.Release.KernelImage
import CodexOS.Vm.UserSpace

/-! # The address space for the boot

Before the kernel leaves the firmware's tables it enters what it will need: a window
of low memory and its stack where they are, all memory it knows of through the direct
map, and its own image where it is linked.
-/

namespace CodexOS.Vm

open Word64 Memory VirtualMemoryManager
open Release (KernelImageInfo KernelImageSegment kernelSegmentFlagWrite kernelSegmentFlagExecute)

/-- What the loader tells the kernel, with the record of the staged image. -/
structure StagedBootInfo extends BootInfo where
  kernelImage : KernelImageInfo

structure BootVmReport where
  identityRanges : Nat
  identityPages : Nat
  kernelImageRanges : Nat
  kernelImagePages : Nat
  kernelWritablePages : Nat
  kernelExecutablePages : Nat
  kernelWxPages : Nat
  stackWindowStart : Nat
  stackWindowPages : Nat
  higherHalfRanges : Nat
  higherHalfPages : Nat
  higherHalfBase : Nat
  deriving DecidableEq

namespace BootVmReport

def empty : BootVmReport where
  identityRanges := 0
  identityPages := 0
  kernelImageRanges := 0
  kernelImagePages := 0
  kernelWritablePages := 0
  kernelExecutablePages := 0
  kernelWxPages := 0
  stackWindowStart := 0
  stackWindowPages := 0
  higherHalfRanges := 0
  higherHalfPages := 0
  higherHalfBase := highHalfDirectMapBase

section

variable (report : BootVmReport)

def addIdentity (pages : Nat) : BootVmReport :=
  if pages ≠ 0 then
    { report with
      identityRanges := report.identityRanges + 1
      identityPages := saturatingAdd report.identityPages pages }
  else report

def addStack (stackStart pages : Nat) : BootVmReport :=
  if pages ≠ 0 then
    { report.addIdentity pages with
      stackWindowStart := alignDown stackStart
      stackWindowPages := pages }
  else report

def addHigherHalf (pages : Nat) : BootVmReport :=
  if pages ≠ 0 then
    { report with
      higherHalfRanges := report.higherHalfRanges + 1
      higherHalfPages := saturatingAdd report.higherHalfPages pages }
  else report

def addKernel (writable executable : Bool) (pages : Nat) : BootVmReport :=
  let counted (holds : Bool) (count : Nat) := if holds then saturatingAdd count pages else count
  { report with
    kernelImageRanges := saturatingAdd report.kernelImageRanges 1
    kernelImagePages := saturatingAdd report.kernelImagePages pages
    kernelWritablePages := counted writable report.kernelWritablePages
    kernelExecutablePages := counted executable report.kernelExecutablePages
    kernelWxPages := counted (writable && executable) report.kernelWxPages }

end

end BootVmReport

section

section

variable (segment : KernelImageSegment)

/-- The segment has pages of its own in memory. -/
def isStaged : Bool :=
  segment.loadPageCount ≠ 0 && segment.memorySize ≠ 0

/-- The pages of a segment between two addresses, if there are any. -/
def kernelHole (start stop : Nat) (segment : KernelImageSegment) : Option (Nat × Nat) :=
  if !isStaged segment then none
  else
    let holeStart := alignDown (max segment.virtualAddress start)
    let holeEnd := alignUp (min (saturatingAdd segment.virtualAddress segment.memorySize) stop)
    if holeEnd > holeStart then some (holeStart, holeEnd) else none

def kernelVirtualHoles (bootInfo : StagedBootInfo) (start stop : Nat) : List (Nat × Nat) :=
  (bootInfo.kernelImage.segments.filterMap (kernelHole start stop)).mergeSort
    fun hole hole' => hole.1 ≤ hole'.1

structure KernelPagePermissions where
  present : Bool
  writable : Bool
  executable : Bool
  deriving DecidableEq

def KernelPagePermissions.default : KernelPagePermissions where
  present := false
  writable := false
  executable := false

structure KernelPageMapping where
  virtStart : Nat
  physStart : Nat
  pageCount : Nat
  writable : Bool
  executable : Bool
  deriving DecidableEq

/-- The page of the first staged segment. -/
def imageBase (segments : List KernelImageSegment) : Option Nat :=
  ((segments.filter isStaged).map (alignDown ·.virtualAddress)).min?

def isWritable : Bool :=
  segment.flags &&& kernelSegmentFlagWrite ≠ 0

def isExecutable : Bool :=
  segment.flags &&& kernelSegmentFlagExecute ≠ 0

/-- A page of the plan once a segment has it too. -/
def grant (page : KernelPagePermissions) : Except VmError KernelPagePermissions :=
  let writable := page.writable || isWritable segment
  let executable := page.executable || isExecutable segment
  if writable && executable then .error .kernelWritableExecutable
  else .ok { present := true, writable, executable }

end

/-- Enter the pages of a segment in the plan. -/
def planSegment (base : Nat) (segment : KernelImageSegment) (plan : List KernelPagePermissions) :
    Except VmError (List KernelPagePermissions) := do
  let offset ← orError (checkedSub (alignDown segment.virtualAddress) base) .kernelImageConflict
  let firstPage := offset / pageSize
  let endPage ← orError (checkedAdd firstPage segment.loadPageCount) .addressOverflow
  if endPage > plan.length then .error .kernelImageConflict
  else
    let granted ← ((plan.drop firstPage).take segment.loadPageCount).mapM (grant segment)
    return plan.take firstPage ++ granted ++ plan.drop endPage

/-- The loop of `kernel_page_mappings` over the segments. -/
def planSegments (base : Nat) :
    List KernelImageSegment → List KernelPagePermissions → Except VmError (List KernelPagePermissions)
  | [], plan => .ok plan
  | segment :: segments, plan =>
    if !isStaged segment then planSegments base segments plan
    else do
      let plan ← planSegment base segment plan
      planSegments base segments plan

/-- The pages of the plan, as runs of equal ones. -/
def pageRuns : List KernelPagePermissions → List (Nat × KernelPagePermissions)
  | [] => []
  | page :: pages =>
    match pageRuns pages with
    | [] => [(1, page)]
    | (count, next) :: runs =>
      if next = page then (count + 1, next) :: runs else (1, page) :: (count, next) :: runs

/-- The loop of `kernel_page_mappings` over the runs of the plan, from page `index` on. -/
def mappingsOfRuns (base loadBase : Nat) :
    Nat → List (Nat × KernelPagePermissions) → Except VmError (List KernelPageMapping)
  | _, [] => .ok []
  | index, (count, permissions) :: runs =>
    if !permissions.present then mappingsOfRuns base loadBase (index + count) runs
    else do
      let pageOffset ← orError (checkedMul index pageSize) .addressOverflow
      let virtStart ← orError (checkedAdd base pageOffset) .addressOverflow
      let physStart ← orError (checkedAdd loadBase pageOffset) .addressOverflow
      let mappings ← mappingsOfRuns base loadBase (index + count) runs
      return {
        virtStart
        physStart
        pageCount := count
        writable := permissions.writable
        executable := permissions.executable } :: mappings

def kernelPageMappings (info : KernelImageInfo) : Except VmError (List KernelPageMapping) :=
  if info.loadPageCount = 0 ∨ info.loadBase = 0 then .ok []
  else do
    let base ← orError (imageBase info.segments) .kernelImageConflict
    let plan ← planSegments base info.segments (List.replicate info.loadPageCount .default)
    mappingsOfRuns base info.loadBase 0 (pageRuns plan)

end

section

variable {α : Type} [PageSource α]

/-- `x`, with a conflict reported as `remapped`. -/
def onConflict {β : Type} (remapped : VmError) (x : VmM α β) : VmM α β := fun machine =>
  match x.run machine with
  | .ok b machine => .ok b machine
  | .error error machine => .error (remapConflict error remapped) machine

/-- Ranges that stay where they are. -/
def keepIdentity : ReservedMemoryKind → Bool
  | .loaderImage | .lowMemory | .runtimeHeap | .kernelHeap | .descriptorTables => true
  | _ => false

def identityExecutable : ReservedMemoryKind → Bool
  | .loaderImage | .lowMemory => true
  | _ => false

def mapReservedIdentity (range : ReservedMemoryRange) : VmM α Nat :=
  if keepIdentity range.kind then
    onConflict .reservedIdentityConflict
      (mapIdentityRange range.start.toNat range.stop true (identityExecutable range.kind))
  else return 0

/-- The loop over the reserved ranges. -/
def mapReservedRanges (report : BootVmReport) : List ReservedMemoryRange → VmM α BootVmReport
  | [] => return report
  | range :: ranges => do
    let kept ← mapReservedIdentity range
    let windowVirt ← orFail (higherHalfPhys range.start.toNat) .addressOverflow
    let pages ← onConflict .reservedWindowConflict
      (mapWindowRange windowVirt range.start.toNat range.stop true false)
    mapReservedRanges ((report.addIdentity kept).addHigherHalf pages) ranges

/-- The loop over the memory regions. -/
def mapUsableRegions (firmwareMode : FirmwareMode) (report : BootVmReport) :
    List MemoryRegion → VmM α BootVmReport
  | [] => return report
  | region :: regions =>
    if !firmwareMode.regionIsCurrentlyUsable region.kind ∨ region.pageCount = 0 then
      mapUsableRegions firmwareMode report regions
    else do
      let windowVirt ← orFail (higherHalfPhys region.start.toNat) .addressOverflow
      let regionEnd ← orFail (checkedAdd region.start.toNat region.sizeBytes) .addressOverflow
      let pages ← onConflict .bootWindowConflict
        (mapWindowRange windowVirt region.start.toNat regionEnd true false)
      mapUsableRegions firmwareMode (report.addHigherHalf pages) regions

/-- The loop over the parts of the kernel image. -/
def mapKernelRanges (report : BootVmReport) : List KernelPageMapping → VmM α BootVmReport
  | [] => return report
  | mapping :: mappings => do
    let pages ← onConflict .kernelImageConflict
      (mapFixedRange mapping.virtStart mapping.physStart mapping.pageCount mapping.writable
        mapping.executable)
    mapKernelRanges (report.addKernel mapping.writable mapping.executable pages) mappings

/-- `current_stack_pointer` is given. -/
def prepareBootIdentityMap (bootInfo : StagedBootInfo) (stackPointer : Nat) :
    VmM α BootVmReport := do
  if !(← get).manager.initialized then throw .notInitialized
  else do
    let kernelHoles := kernelVirtualHoles bootInfo 0 identityBootWindowBytes
    let lowPages ← onConflict .bootIdentityConflict
      (mapIdentityRangeExcluding 0 identityBootWindowBytes kernelHoles true true)
    let stackStart := stackPointer - stackWindowBytes / 2
    let stackEnd := saturatingAdd stackPointer (stackWindowBytes / 2)
    let stackPages ← onConflict .bootStackConflict (mapIdentityRange stackStart stackEnd true false)
    let bootWindowVirt ← orFail (higherHalfPhys 0) .addressOverflow
    let windowPages ← onConflict .bootWindowConflict
      (mapWindowRange bootWindowVirt 0 highHalfBootWindowBytes true false)
    let report := ((BootVmReport.empty.addIdentity lowPages).addStack stackStart stackPages
      ).addHigherHalf windowPages
    let report ← mapReservedRanges report bootInfo.reservedMemory
    let report ← mapUsableRegions bootInfo.firmwareMode report bootInfo.memoryRegions
    let mappings ← check (kernelPageMappings bootInfo.kernelImage)
    let report ← mapKernelRanges report mappings
    discard syncPages
    return report

end

end CodexOS.Vm
