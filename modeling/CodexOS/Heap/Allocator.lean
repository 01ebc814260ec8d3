import CodexOS.Lib.ByteMemory
import CodexOS.Lib.Word64

/-! # The reclaiming heap

A first-fit allocator over one region of bytes. Free blocks are linked through
their own first bytes, in the order of their offsets; every allocation keeps a
header right below the pointer it returns. Offsets count from the start of the
region. The loops that follow the links take fuel, and return `none` when it
runs out.
-/

namespace CodexOS.HeapAllocator

open Word64 ByteMemory

def freeListEnd : Nat := maxValue
def allocationMagic : Nat := 0x4344584845415031

/-- `size_of::<FreeBlock>()`, two words. -/
def freeBlockSize : Nat := 16
/-- `size_of::<AllocationHeader>()`, four words. -/
def headerSize : Nat := 32
/-- The alignment of both structures. -/
def wordAlign : Nat := 8

structure FreeBlock where
  size : Nat
  next : Nat
  deriving DecidableEq

structure AllocationHeader where
  magic : Nat
  blockStart : Nat
  blockSize : Nat
  requestedSize : Nat
  deriving DecidableEq

/-- A size and an alignment as the language admits them. -/
structure Layout where
  size : Nat
  align : Nat
  powerOfTwo : ∃ k, align = 2 ^ k

structure AllocatorState where
  initialized : Bool
  freeHead : Nat
  usedBytes : Nat
  peakUsedBytes : Nat
  liveAllocations : Nat
  totalAllocations : Nat
  totalDeallocations : Nat
  failedAllocations : Nat
  deriving DecidableEq

def AllocatorState.new : AllocatorState where
  initialized := false
  freeHead := freeListEnd
  usedBytes := 0
  peakUsedBytes := 0
  liveAllocations := 0
  totalAllocations := 0
  totalDeallocations := 0
  failedAllocations := 0

/-- The allocator's own state and the bytes of its region. -/
structure Heap where
  state : AllocatorState
  memory : ByteMemory

/-- Where the region is: the caller promises that it is aligned, large enough for one free block
    and that its end is an address. -/
structure Region where
  base : Nat
  capacity : Nat
  baseAligned : base % wordAlign = 0
  capacityAligned : capacity % wordAlign = 0
  room : freeBlockSize ≤ capacity
  inMemory : base + capacity < size

def alignUp (value alignment : Nat) : Option Nat :=
  (checkedAdd value (alignment - 1)).map fun aligned => aligned - aligned % alignment

namespace Heap

def readFreeBlock (heap : Heap) (offset : Nat) : FreeBlock where
  size := loadWord heap.memory offset
  next := loadWord heap.memory (offset + 8)

def writeFreeBlock (heap : Heap) (offset : Nat) (block : FreeBlock) : Heap :=
  { heap with memory := storeWords heap.memory offset [block.size, block.next] }

def readHeader (heap : Heap) (offset : Nat) : AllocationHeader where
  magic := loadWord heap.memory offset
  blockStart := loadWord heap.memory (offset + 8)
  blockSize := loadWord heap.memory (offset + 16)
  requestedSize := loadWord heap.memory (offset + 24)

def writeHeader (heap : Heap) (offset : Nat) (header : AllocationHeader) : Heap :=
  { heap with
    memory := storeWords heap.memory offset
      [header.magic, header.blockStart, header.blockSize, header.requestedSize] }

/-- Make `target` follow the block `previous`, or the list begin with it. -/
def link (heap : Heap) (previous target : Nat) : Heap :=
  if previous = freeListEnd then { heap with state := { heap.state with freeHead := target } }
  else { heap with memory := storeWords heap.memory (previous + 8) [target] }

def initializeRegion (heap : Heap) (capacity : Nat) : Heap :=
  if heap.state.initialized then heap
  else
    let heap := heap.writeFreeBlock 0 { size := capacity, next := freeListEnd }
    { heap with state := { heap.state with freeHead := 0, initialized := true } }

/-- The end of the loop of `allocate_from_free_list`, once a block is large enough. -/
def takeBlock (heap : Heap) (previous current : Nat) (block : FreeBlock)
    (blockEnd userStart allocationEnd requestedSize : Nat) : Option (Nat × Heap) :=
  match alignUp allocationEnd wordAlign with
  | none => none
  | some alignedSuffixStart =>
    let splits := alignedSuffixStart ≤ blockEnd ∧ blockEnd - alignedSuffixStart ≥ freeBlockSize
    let heap :=
      if splits then
        heap.writeFreeBlock alignedSuffixStart
          { size := blockEnd - alignedSuffixStart, next := block.next }
      else heap
    let allocatedEnd := if splits then alignedSuffixStart else blockEnd
    let replacement := if splits then alignedSuffixStart else block.next
    let heap := heap.link previous replacement
    let blockSize := allocatedEnd - current
    let heap := heap.writeHeader (userStart - headerSize)
      { magic := allocationMagic, blockStart := current, blockSize, requestedSize }
    let usedBytes := saturatingAdd heap.state.usedBytes blockSize
    some (userStart,
      { heap with
        state :=
          { heap.state with
            usedBytes
            peakUsedBytes := max heap.state.peakUsedBytes usedBytes
            liveAllocations := saturatingAdd heap.state.liveAllocations 1
            totalAllocations := saturatingAdd heap.state.totalAllocations 1 } })

/-- The loop of `allocate_from_free_list`. -/
def searchFreeList (heap : Heap) (requestedSize alignment : Nat) :
    Nat → Nat → Nat → Option (Option (Nat × Heap))
  | 0, _, _ => none
  | fuel + 1, previous, current =>
    if current = freeListEnd then some none
    else
      let block := heap.readFreeBlock current
      match checkedAdd current block.size with
      | none => some none
      | some blockEnd =>
        match (checkedAdd current headerSize).bind (alignUp · alignment) with
        | none => some none
        | some userStart =>
          match checkedAdd userStart requestedSize with
          | none => searchFreeList heap requestedSize alignment fuel current block.next
          | some allocationEnd =>
            if allocationEnd ≤ blockEnd then
              some (heap.takeBlock previous current block blockEnd userStart allocationEnd
                requestedSize)
            else searchFreeList heap requestedSize alignment fuel current block.next

/-- The offset of the new allocation. A list in a region of `capacity` bytes has fewer blocks than
    that, so the fuel suffices for it. -/
def allocateFromFreeList (heap : Heap) (capacity : Nat) (layout : Layout) :
    Option (Option (Nat × Heap)) :=
  let requestedSize := max layout.size 1
  let alignment := max layout.align wordAlign
  heap.searchFreeList requestedSize alignment capacity freeListEnd heap.state.freeHead

/-- The loop of `insert_free_block`: the blocks around the place of `blockStart`. -/
def findPlace (heap : Heap) (blockStart : Nat) : Nat → Nat → Nat → Option (Nat × Nat)
  | 0, _, _ => none
  | fuel + 1, previous, current =>
    if current ≠ freeListEnd ∧ current < blockStart then
      findPlace heap blockStart fuel current (heap.readFreeBlock current).next
    else some (previous, current)

/-- The step of `insert_free_block` that joins the new block with the one behind it. -/
def joinNext (heap : Heap) (blockStart blockSize current : Nat) : Heap :=
  if current ≠ freeListEnd ∧ saturatingAdd blockStart blockSize = current then
    let next := heap.readFreeBlock current
    heap.writeFreeBlock blockStart { size := saturatingAdd blockSize next.size, next := next.next }
  else heap

/-- The step that joins it with the one before it. -/
def joinPrevious (heap : Heap) (previous blockStart : Nat) : Heap :=
  if previous ≠ freeListEnd then
    let previousBlock := heap.readFreeBlock previous
    if saturatingAdd previous previousBlock.size = blockStart then
      let inserted := heap.readFreeBlock blockStart
      heap.writeFreeBlock previous
        { size := saturatingAdd previousBlock.size inserted.size, next := inserted.next }
    else heap
  else heap

def insertFreeBlock (heap : Heap) (capacity blockStart blockSize : Nat) : Option Heap :=
  match heap.findPlace blockStart capacity freeListEnd heap.state.freeHead with
  | none => none
  | some (previous, current) =>
    let heap := heap.writeFreeBlock blockStart { size := blockSize, next := current }
    let heap := heap.link previous blockStart
    let heap := heap.joinNext blockStart blockSize current
    some (heap.joinPrevious previous blockStart)

def deallocateIntoRegion (heap : Heap) (base capacity pointer : Nat) : Option Heap :=
  if !heap.state.initialized then some heap
  else
    match checkedAdd base capacity with
    | none => some heap
    | some heapEnd =>
      if pointer < saturatingAdd base headerSize ∨ pointer > heapEnd then some heap
      else
        let headerOffset := pointer - headerSize - base
        let header := heap.readHeader headerOffset
        let validEnd := checkedAdd header.blockStart header.blockSize
        if header.magic ≠ allocationMagic ∨ header.blockStart ≥ capacity ∨ header.blockSize = 0 ∨
            validEnd.all (· > capacity) then
          some heap
        else
          let heap := heap.writeHeader headerOffset
            { magic := 0, blockStart := 0, blockSize := 0, requestedSize := 0 }
          (heap.insertFreeBlock capacity header.blockStart header.blockSize).map fun heap =>
            { heap with
              state :=
                { heap.state with
                  usedBytes := heap.state.usedBytes - header.blockSize
                  liveAllocations := heap.state.liveAllocations - 1
                  totalDeallocations := saturatingAdd heap.state.totalDeallocations 1 } }

/-- `GlobalAlloc::alloc` of the heap: the address returned, or `none` for a null pointer. -/
def alloc (region : Region) (heap : Heap) (layout : Layout) : Option (Option Nat × Heap) :=
  let heap := heap.initializeRegion region.capacity
  match heap.allocateFromFreeList region.capacity layout with
  | none => none
  | some (some (userStart, heap)) => some (some (region.base + userStart), heap)
  | some none =>
    some (none,
      { heap with
        state :=
          { heap.state with
            failedAllocations := saturatingAdd heap.state.failedAllocations 1 } })

/-- `GlobalAlloc::dealloc` of the heap. -/
def dealloc (region : Region) (heap : Heap) (pointer : Nat) : Option Heap :=
  if pointer = 0 then some heap
  else heap.deallocateIntoRegion region.base region.capacity pointer

end Heap

end CodexOS.HeapAllocator
