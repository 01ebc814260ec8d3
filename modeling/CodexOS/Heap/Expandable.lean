import CodexOS.Heap.Tiling

/-! # The heap that can be extended

A heap starts on storage of its own and is given a second region once, which it
prefers from then on. Both regions are run by the same allocator, and a pointer goes
back to the region whose addresses it is among.
-/

namespace CodexOS.HeapAllocator

open Word64 ByteMemory Intervals

structure HeapStats where
  capacityBytes : Nat
  usedBytes : Nat
  peakUsedBytes : Nat
  freeBytes : Nat
  largestFreeBlock : Nat
  liveAllocations : Nat
  totalAllocations : Nat
  totalDeallocations : Nat
  failedAllocations : Nat
  deriving DecidableEq

namespace Heap

/-- The loop of `region_stats`: the free bytes and the largest free block. -/
def measureFree (heap : Heap) : Nat → Nat → Nat → Nat → Option (Nat × Nat)
  | 0, _, _, _ => none
  | fuel + 1, current, freeBytes, largestFreeBlock =>
    if current = freeListEnd then some (freeBytes, largestFreeBlock)
    else
      let block := heap.readFreeBlock current
      heap.measureFree fuel block.next (saturatingAdd freeBytes block.size)
        (max largestFreeBlock block.size)

def regionStats (heap : Heap) (capacity : Nat) : Option HeapStats :=
  (heap.measureFree capacity heap.state.freeHead 0 0).map fun (freeBytes, largestFreeBlock) =>
    { capacityBytes := capacity
      usedBytes := heap.state.usedBytes
      peakUsedBytes := heap.state.peakUsedBytes
      freeBytes
      largestFreeBlock
      liveAllocations := heap.state.liveAllocations
      totalAllocations := heap.state.totalAllocations
      totalDeallocations := heap.state.totalDeallocations
      failedAllocations := heap.state.failedAllocations }

/-- Asking for the figures sets the region up. -/
def stats (region : Region) (heap : Heap) : Option (HeapStats × Heap) :=
  let heap := heap.initializeRegion region.capacity
  (heap.regionStats region.capacity).map fun stats => (stats, heap)

def countFailure (heap : Heap) : Heap :=
  { heap with
    state :=
      { heap.state with failedAllocations := saturatingAdd heap.state.failedAllocations 1 } }

end Heap

def HeapStats.add (total external : HeapStats) : HeapStats where
  capacityBytes := saturatingAdd total.capacityBytes external.capacityBytes
  usedBytes := saturatingAdd total.usedBytes external.usedBytes
  peakUsedBytes := saturatingAdd total.peakUsedBytes external.peakUsedBytes
  freeBytes := saturatingAdd total.freeBytes external.freeBytes
  largestFreeBlock := max total.largestFreeBlock external.largestFreeBlock
  liveAllocations := saturatingAdd total.liveAllocations external.liveAllocations
  totalAllocations := saturatingAdd total.totalAllocations external.totalAllocations
  totalDeallocations := saturatingAdd total.totalDeallocations external.totalDeallocations
  failedAllocations := saturatingAdd total.failedAllocations external.failedAllocations

inductive HeapInitError where
  | alreadyInitialized
  | invalidAddress
  | invalidCapacity
  | overlapsBootstrap
  deriving DecidableEq

/-- The second region and the allocator on it. -/
structure External (bootstrap : Region) where
  region : Region
  heap : Heap
  notNull : region.base ≠ 0
  apart : region.base + region.capacity ≤ bootstrap.base ∨
    bootstrap.base + bootstrap.capacity ≤ region.base

/-- `external_base` is zero as long as there is no second region. -/
structure ExpandableHeap (bootstrapRegion : Region) where
  bootstrap : Heap
  external : Option (External bootstrapRegion)

namespace ExpandableHeap

variable {bootstrapRegion : Region}

def new (memory : ByteMemory) : ExpandableHeap bootstrapRegion where
  bootstrap := { state := .new, memory }
  external := none

theorem apart_of_not_overlaps (fits : address + capacity < size)
    (overlaps : ¬(address < saturatingAdd bootstrapRegion.base bootstrapRegion.capacity ∧
      bootstrapRegion.base < saturatingAdd address capacity)) :
    address + capacity ≤ bootstrapRegion.base ∨
      bootstrapRegion.base + bootstrapRegion.capacity ≤ address := by
  rw [saturatingAdd_of_lt bootstrapRegion.inMemory, saturatingAdd_of_lt fits] at overlaps
  omega

section

variable (heap : ExpandableHeap bootstrapRegion)

/-- `memory` is what the region holds when it is handed over. -/
def initializeExternal (address capacity : Nat) (memory : ByteMemory) :
    Except HeapInitError (ExpandableHeap bootstrapRegion) :=
  if badAddress : address = 0 ∨ address % wordAlign ≠ 0 then .error .invalidAddress
  else if badCapacity : capacity < freeBlockSize ∨ capacity % wordAlign ≠ 0 ∨
      checkedAdd address capacity = none then .error .invalidCapacity
  else if overlaps : address < saturatingAdd bootstrapRegion.base bootstrapRegion.capacity ∧
      bootstrapRegion.base < saturatingAdd address capacity then .error .overlapsBootstrap
  else
    match heap.external with
    | some _ => .error .alreadyInitialized
    | none =>
      have fits : address + capacity < size := by
        rw [not_or, not_or, checkedAdd, ite_eq_right_iff] at badCapacity
        by_contra large
        exact badCapacity.2.2 fun small => absurd small large
      .ok
        { heap with
          external := some
            { region :=
                { base := address
                  capacity
                  baseAligned := not_not.mp fun odd => badAddress (.inr odd)
                  capacityAligned := not_not.mp fun odd => badCapacity (.inr (.inl odd))
                  room := Nat.le_of_not_lt fun small => badCapacity (.inl small)
                  inMemory := fits }
              heap := Heap.initializeRegion { state := .new, memory } capacity
              notNull := fun null => badAddress (.inl null)
              apart := apart_of_not_overlaps fits overlaps } }

/-- The address returned, or `none` for a null pointer. -/
def alloc (layout : Layout) : Option (Option Nat × ExpandableHeap bootstrapRegion) :=
  match heap.external with
  | none =>
    (heap.bootstrap.alloc bootstrapRegion layout).map fun (pointer, bootstrap) =>
      (pointer, { heap with bootstrap })
  | some external =>
    match external.heap.allocateFromFreeList external.region.capacity layout with
    | none => none
    | some (some (userStart, used)) =>
      some (some (external.region.base + userStart),
        { heap with external := some { external with heap := used } })
    | some none =>
      (heap.bootstrap.alloc bootstrapRegion layout).map fun (pointer, bootstrap) =>
        (pointer,
          { bootstrap
            external := some { external with heap := external.heap.countFailure } })

/-- The pointer is an address of the second region. -/
def External.owns (external : External bootstrapRegion) (pointer : Nat) : Bool :=
  external.region.base ≤ pointer &&
    pointer < saturatingAdd external.region.base external.region.capacity

def deallocBootstrap (pointer : Nat) : Option (ExpandableHeap bootstrapRegion) :=
  (heap.bootstrap.dealloc bootstrapRegion pointer).map fun bootstrap => { heap with bootstrap }

def dealloc (pointer : Nat) : Option (ExpandableHeap bootstrapRegion) :=
  if pointer = 0 then some heap
  else
    match heap.external with
    | none => heap.deallocBootstrap pointer
    | some external =>
      if External.owns external pointer then
        (external.heap.deallocateIntoRegion external.region.base external.region.capacity
          pointer).map fun freed =>
            { heap with external := some { external with heap := freed } }
      else heap.deallocBootstrap pointer

def stats : Option (HeapStats × ExpandableHeap bootstrapRegion) :=
  match heap.bootstrap.stats bootstrapRegion with
  | none => none
  | some (total, bootstrap) =>
    match heap.external with
    | none => some (total, { heap with bootstrap })
    | some external =>
      (external.heap.regionStats external.region.capacity).map fun figures =>
        (total.add figures, { heap with bootstrap })

end

end ExpandableHeap

end CodexOS.HeapAllocator
