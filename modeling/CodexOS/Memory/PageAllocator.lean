import CodexOS.BootInfo

/-! # The physical page allocator

Usable memory is kept as regions with a mark up to which their pages have been
handed out once. Pages that come back are kept as free extents, in order, and
are handed out again first.
-/

namespace CodexOS.Memory

open Word64

def maxAllocatorRegions : Nat := maxMemoryRegions + maxReservedMemoryRanges + 8
def maxFreeExtents : Nat := 1024

structure RegionCursor where
  start : Nat
  pageCount : Nat
  nextPage : Nat
  kind : MemoryRegionKind
  deriving DecidableEq

def RegionCursor.remainingPages (region : RegionCursor) : Nat :=
  region.pageCount - region.nextPage

/-- The first address that was never handed out. -/
def RegionCursor.mark (region : RegionCursor) : Nat :=
  saturatingAdd region.start (saturatingMul region.nextPage pageSize)

structure RegionSpan where
  start : Nat
  stop : Nat
  deriving DecidableEq

def RegionSpan.isEmpty (span : RegionSpan) : Bool :=
  span.stop ≤ span.start

structure FreeExtent where
  start : Nat
  pageCount : Nat
  deriving DecidableEq

def FreeExtent.empty : FreeExtent where
  start := 0
  pageCount := 0

/-- The source's `end`. -/
def FreeExtent.stop (extent : FreeExtent) : Nat :=
  saturatingAdd extent.start (saturatingMul extent.pageCount pageSize)

/-- The filled parts of the two tables, whose lengths are the source's counters. -/
structure PhysicalPageAllocator where
  initialized : Bool
  regions : List RegionCursor
  totalUsablePages : Nat
  allocatedPages : Nat
  freeExtents : List FreeExtent
  deriving DecidableEq

structure MemoryStats where
  usableRegionCount : Nat
  totalUsablePages : Nat
  allocatedPages : Nat
  remainingPages : Nat
  deriving DecidableEq

def alignDown (value : Nat) : Nat :=
  value - value % pageSize

def alignUp (value : Nat) : Nat :=
  alignDown (saturatingAdd value (pageSize - 1))

def pushSpan (spans : List RegionSpan) (span : RegionSpan) : List RegionSpan :=
  if span.isEmpty || spans.length ≥ maxReservedMemoryRanges + 1 then spans else spans ++ [span]

/-- What a span loses to a reserved range: the part before it and the part behind it stay. -/
def spanPieces (reservedStart reservedEnd : Nat) (span : RegionSpan) : List RegionSpan :=
  if span.isEmpty then []
  else
    let overlapStart := max span.start reservedStart
    let overlapEnd := min span.stop reservedEnd
    if overlapEnd ≤ overlapStart then [span]
    else
      (if span.start < overlapStart then [{ start := span.start, stop := overlapStart }] else []) ++
        if overlapEnd < span.stop then [{ start := overlapEnd, stop := span.stop }] else []

/-- The spans that are left after all reserved ranges are cut out. -/
def cutReserved (active : List RegionSpan) : List ReservedMemoryRange → List RegionSpan
  | [] => active
  | range :: reserved =>
    if range.length = 0 then cutReserved active reserved
    else
      let reservedStart := alignDown range.start.toNat
      let reservedEnd := alignUp range.stop
      if reservedEnd ≤ reservedStart then cutReserved active reserved
      else
        let scratch := active.foldl
          (fun scratch span => (spanPieces reservedStart reservedEnd span).foldl pushSpan scratch) []
        if scratch.isEmpty then scratch else cutReserved scratch reserved

namespace PhysicalPageAllocator

def new : PhysicalPageAllocator where
  initialized := false
  regions := []
  totalUsablePages := 0
  allocatedPages := 0
  freeExtents := []

def pushRegion (allocator : PhysicalPageAllocator) (kind : MemoryRegionKind) (span : RegionSpan) :
    PhysicalPageAllocator :=
  let start := alignUp span.start
  let stop := alignDown span.stop
  if stop ≤ start || allocator.regions.length ≥ maxAllocatorRegions then allocator
  else
    let pageCount := (stop - start) / pageSize
    if pageCount = 0 then allocator
    else
      { allocator with
        regions := allocator.regions ++ [{ start, pageCount, nextPage := 0, kind }]
        totalUsablePages := saturatingAdd allocator.totalUsablePages pageCount }

def addRegionFragments (allocator : PhysicalPageAllocator) (start stop : Nat)
    (kind : MemoryRegionKind) (reserved : List ReservedMemoryRange) : PhysicalPageAllocator :=
  (cutReserved [{ start, stop }] reserved).foldl (·.pushRegion kind) allocator

def init (bootInfo : BootInfo) : PhysicalPageAllocator :=
  bootInfo.memoryRegions.foldl
    (fun allocator region =>
      if !bootInfo.firmwareMode.regionIsCurrentlyUsable region.kind || region.pageCount = 0 then
        allocator
      else
        allocator.addRegionFragments region.start.toNat
          (saturatingAdd region.start.toNat region.sizeBytes) region.kind bootInfo.reservedMemory)
    { new with initialized := true }

end PhysicalPageAllocator

section

variable (extents : List FreeExtent)

def removeFreeExtent (index : Nat) : List FreeExtent :=
  extents.eraseIdx index

/-- The loop of `coalesce_free_extents` from the extent at its index on. -/
def coalesceFrom (current : FreeExtent) : List FreeExtent → List FreeExtent
  | [] => [current]
  | next :: rest =>
    if current.stop = next.start then
      coalesceFrom { current with pageCount := saturatingAdd current.pageCount next.pageCount } rest
    else current :: coalesceFrom next rest

def coalesceFreeExtents : List FreeExtent → List FreeExtent
  | [] => []
  | current :: rest => coalesceFrom current rest

/-- Hand out the first pages of an extent. -/
def takeFromExtent (index pageCount : Nat) : List FreeExtent :=
  let extent := extents.getD index .empty
  let left : FreeExtent :=
    { start := saturatingAdd extent.start (saturatingMul pageCount pageSize)
      pageCount := extent.pageCount - pageCount }
  if left.pageCount = 0 then removeFreeExtent (extents.set index left) index
  else extents.set index left

/-- Hand out pages of the first region that still has enough of them. -/
def takeFromRegions (pageCount : Nat) : List RegionCursor → Option (Nat × List RegionCursor)
  | [] => none
  | region :: rest =>
    if region.remainingPages < pageCount then
      (takeFromRegions pageCount rest).map fun taken => (taken.1, region :: taken.2)
    else
      some (region.mark, { region with nextPage := saturatingAdd region.nextPage pageCount } :: rest)

/-- Put an extent in its place in the table, if there is room or a neighbour to join. -/
def insertFreeExtent (start stop pageCount : Nat) : Option (List FreeExtent) :=
  let insertion := extents.findIdx fun extent => start < extent.start
  let previous := extents.getD (insertion - 1) .empty
  let next := extents.getD insertion .empty
  if 0 < insertion ∧ previous.stop = start then
    let grown := { previous with pageCount := saturatingAdd previous.pageCount pageCount }
    if insertion < extents.length ∧ grown.stop = next.start then
      let joined := { grown with pageCount := saturatingAdd grown.pageCount next.pageCount }
      some (removeFreeExtent (extents.set (insertion - 1) joined) insertion)
    else some (extents.set (insertion - 1) grown)
  else if insertion < extents.length ∧ stop = next.start then
    some (extents.set insertion { start, pageCount := saturatingAdd next.pageCount pageCount })
  else if extents.length ≥ maxFreeExtents then none
  else some (coalesceFreeExtents (extents.insertIdx insertion { start, pageCount }))

end

namespace PhysicalPageAllocator

section

variable (allocator : PhysicalPageAllocator)

def allocateContiguousPages (pageCount : Nat) : Option Nat × PhysicalPageAllocator :=
  if pageCount = 0 then (none, allocator)
  else if !allocator.initialized then (none, allocator)
  else
    let extents := allocator.freeExtents
    match extents.findIdx? fun extent => pageCount ≤ extent.pageCount with
    | some index =>
      (some (extents.getD index .empty).start,
        { allocator with
          freeExtents := takeFromExtent extents index pageCount
          allocatedPages := saturatingAdd allocator.allocatedPages pageCount })
    | none =>
      match takeFromRegions pageCount allocator.regions with
      | some (address, regions) =>
        (some address,
          { allocator with
            regions
            allocatedPages := saturatingAdd allocator.allocatedPages pageCount })
      | none => (none, allocator)

def allocatePage : Option Nat × PhysicalPageAllocator :=
  allocator.allocateContiguousPages 1

def deallocateContiguousPages (start pageCount : Nat) : Bool × PhysicalPageAllocator :=
  if !allocator.initialized || pageCount = 0 || start % pageSize ≠ 0 ||
      allocator.allocatedPages < pageCount then
    (false, allocator)
  else
    match checkedMul pageCount pageSize with
    | none => (false, allocator)
    | some length =>
      match checkedAdd start length with
      | none => (false, allocator)
      | some stop =>
        let wasAllocated := allocator.regions.any fun region =>
          start ≥ region.start && stop ≤ region.mark
        if !wasAllocated ||
            allocator.freeExtents.any (fun extent => start < extent.stop && extent.start < stop) then
          (false, allocator)
        else
          match insertFreeExtent allocator.freeExtents start stop pageCount with
          | none => (false, allocator)
          | some freeExtents =>
            (true,
              { allocator with
                freeExtents
                allocatedPages := allocator.allocatedPages - pageCount })

def deallocatePage (start : Nat) : Bool × PhysicalPageAllocator :=
  allocator.deallocateContiguousPages start 1

def stats : MemoryStats where
  usableRegionCount := allocator.regions.length
  totalUsablePages := allocator.totalUsablePages
  allocatedPages := allocator.allocatedPages
  remainingPages := allocator.totalUsablePages - allocator.allocatedPages

def firstUsableKind : MemoryRegionKind :=
  match allocator.regions with
  | [] => .reserved
  | region :: _ => region.kind

/-- What was ever handed out, as (start, length) pairs. -/
def allocatedRanges : List (Nat × Nat) :=
  (allocator.regions.filter fun region => region.nextPage ≠ 0).map fun region =>
    (region.start, saturatingMul region.nextPage pageSize)

end

end PhysicalPageAllocator

end CodexOS.Memory
