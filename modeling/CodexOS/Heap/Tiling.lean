import CodexOS.Heap.FirstFit

/-! # The heap over whole runs

The free blocks and the blocks of the live allocations tile the region, after
every sequence of allocations, deallocations and writes of the users into their
own bytes.
-/

namespace CodexOS.HeapAllocator

open Word64 ByteMemory Intervals

/-- What the user knows of an allocation: the pointer, and the size asked for. -/
structure Allocation where
  pointer : Nat
  size : Nat
  deriving DecidableEq

namespace Allocation

section

variable (region : Region)

/-- The user's bytes, as offsets in the region. -/
def userRange (allocation : Allocation) : Interval where
  start := allocation.pointer - region.base
  length := max allocation.size 1

def headerRange (allocation : Allocation) : Interval where
  start := allocation.pointer - region.base - headerSize
  length := headerSize

def header (heap : Heap) (allocation : Allocation) : AllocationHeader :=
  heap.readHeader (allocation.pointer - region.base - headerSize)

/-- The block recorded in the header. -/
def block (heap : Heap) (allocation : Allocation) : Interval where
  start := (allocation.header region heap).blockStart
  length := (allocation.header region heap).blockSize

end

end Allocation

/-- The states of a heap, with the allocations that are live and the values `used_bytes` has had.
    A heap is set up when it is first used. -/
inductive Run (region : Region) : Heap → List Allocation → List Nat → Prop
  | start (memory : ByteMemory) :
      Run region (Heap.initializeRegion { state := .new, memory } region.capacity) [] [0]
  | allocated {heap heap' live history pointer} (layout : Layout) :
      Run region heap live history → heap.alloc region layout = some (some pointer, heap') →
      Run region heap' ({ pointer, size := layout.size } :: live) (heap'.state.usedBytes :: history)
  | refused {heap heap' live history} (layout : Layout) :
      Run region heap live history → heap.alloc region layout = some (none, heap') →
      Run region heap' live (heap'.state.usedBytes :: history)
  | deallocated {heap heap' before allocation after history} :
      Run region heap (before ++ allocation :: after) history →
      heap.dealloc region allocation.pointer = some heap' →
      Run region heap' (before ++ after) (heap'.state.usedBytes :: history)
  | written {heap live history} (memory : ByteMemory) :
      Run region heap live history →
      (∀ address, (∀ allocation ∈ live, address ∉ (allocation.userRange region).points) →
        memory address = heap.memory address) →
      Run region { heap with memory } live history

theorem alloc_initializeRegion (region : Region) (heap : Heap) (layout : Layout) :
    (heap.initializeRegion region.capacity).alloc region layout = heap.alloc region layout := by
  have again : (heap.initializeRegion region.capacity).initializeRegion region.capacity =
      heap.initializeRegion region.capacity := by
    by_cases initialized : heap.state.initialized
    · simp only [Heap.initializeRegion, if_pos initialized]
    · simp only [Heap.initializeRegion, if_neg initialized, if_true]
  simp only [Heap.alloc, again]

/-- Both ends of the block are on word boundaries. -/
def Granular (block : Interval) : Prop :=
  block.start % wordAlign = 0 ∧ block.length % wordAlign = 0

/-- The header of a live allocation says where its block is, and the user's bytes lie in it behind
    the header. -/
structure Recorded (region : Region) (heap : Heap) (allocation : Allocation) : Prop where
  inRegion : region.base ≤ allocation.pointer
  magic : (allocation.header region heap).magic = allocationMagic
  behindHeader : (allocation.block region heap).start + headerSize ≤
    (allocation.userRange region).start
  fits : (allocation.userRange region).stop ≤ (allocation.block region heap).stop
  granular : Granular (allocation.block region heap)

structure Intact (region : Region) (heap : Heap) (live : List Allocation) (blocks : List Interval) :
    Prop where
  initialized : heap.state.initialized = true
  segment : Segment heap.memory heap.state.freeHead blocks freeListEnd
  separated : Separated blocks
  large : ∀ block ∈ blocks, freeBlockSize ≤ block.length
  granular : ∀ block ∈ blocks, Granular block
  recorded : ∀ allocation ∈ live, Recorded region heap allocation
  tiles : Tiles (blocks ++ live.map (·.block region heap)) region.capacity
  used : heap.state.usedBytes = total (live.map (·.block region heap))
  count : heap.state.liveAllocations = live.length

section

variable {region : Region} {heap heap' : Heap} {live : List Allocation} {blocks : List Interval}
  {allocation : Allocation}

theorem Region.small (region : Region) : region.capacity < size :=
  (Nat.le_add_left _ _).trans_lt region.inMemory

section

variable (recorded : Recorded region heap allocation)

include recorded

theorem Recorded.headerRange_subset :
    (allocation.headerRange region).points ⊆ (allocation.block region heap).points := by
  have behind := recorded.behindHeader
  have fits := recorded.fits
  intro address
  simp only [Allocation.headerRange, Allocation.userRange, Interval.mem_points,
    Interval.stop] at *
  omega

theorem Recorded.userRange_subset :
    (allocation.userRange region).points ⊆ (allocation.block region heap).points := by
  have behind := recorded.behindHeader
  have fits := recorded.fits
  intro address
  simp only [Interval.mem_points]
  omega

theorem Recorded.headerSize_lt : headerSize < (allocation.block region heap).length := by
  have behind := recorded.behindHeader
  have fits := recorded.fits
  simp only [Allocation.userRange, Interval.stop] at *
  omega

theorem Recorded.headerRange_disjoint :
    Disjoint (allocation.headerRange region).points (allocation.userRange region).points := by
  have behind := recorded.behindHeader
  simp only [Finset.disjoint_left, Allocation.headerRange, Allocation.userRange,
    Interval.mem_points, Interval.stop] at *
  intro address
  omega

end

theorem header_congr (same : ∀ address ∈ (allocation.headerRange region).points,
    heap'.memory address = heap.memory address) :
    allocation.header region heap' = allocation.header region heap := by
  have word {place : Nat} (lower : (allocation.headerRange region).start ≤ place)
      (upper : place + 8 ≤ (allocation.headerRange region).stop) :
      loadWord heap'.memory place = loadWord heap.memory place :=
    loadWord_congr fun address _ _ => same address (Interval.mem_points.mpr (by omega))
  simp only [Allocation.headerRange, Interval.stop, headerSize] at word
  simp only [Allocation.header, Heap.readHeader, headerSize, AllocationHeader.mk.injEq]
  refine ⟨word ?_ ?_, word ?_ ?_, word ?_ ?_, word ?_ ?_⟩
  all_goals omega

theorem block_congr (same : allocation.header region heap' = allocation.header region heap) :
    allocation.block region heap' = allocation.block region heap := by
  rw [Allocation.block, Allocation.block, same]

theorem Recorded.congr (recorded : Recorded region heap allocation)
    (same : allocation.header region heap' = allocation.header region heap) :
    Recorded region heap' allocation := by
  have block := block_congr same
  refine ⟨recorded.inRegion, ?_, ?_, ?_, ?_⟩
  · rw [same]
    exact recorded.magic
  · rw [block]
    exact recorded.behindHeader
  · rw [block]
    exact recorded.fits
  · rw [block]
    exact recorded.granular

namespace Intact

theorem disjoint_free (intact : Intact region heap live blocks) (mem : allocation ∈ live) :
    Disjoint (allocation.block region heap).points (cover blocks) := by
  obtain ⟨-, -, between⟩ := List.pairwise_append.mp intact.tiles.disjoint
  exact disjoint_cover.mpr fun block inFree =>
    (between block inFree _ (List.mem_map_of_mem mem)).symm

theorem disjoint_live (intact : Intact region heap live blocks) (mem : allocation ∈ live)
    (mem' : other ∈ live) (ne : allocation ≠ other) :
    Disjoint (allocation.block region heap).points (other.block region heap).points := by
  obtain ⟨-, apart, -⟩ := List.pairwise_append.mp intact.tiles.disjoint
  have : Std.Symm fun a b : Allocation =>
      Disjoint (a.block region heap).points (b.block region heap).points :=
    ⟨fun _ _ apart => apart.symm⟩
  exact (List.pairwise_map.mp apart).forall mem mem' ne

theorem mem_of_mem_others (mem : other ∈ before ++ after) :
    other ∈ before ++ allocation :: after := by
  simp only [List.mem_append, List.mem_cons] at mem ⊢
  tauto

theorem disjoint_others (intact : Intact region heap (before ++ allocation :: after) blocks)
    (mem : other ∈ before ++ after) :
    Disjoint (other.block region heap).points
      ((allocation.block region heap).points ∪ cover blocks) := by
  obtain ⟨-, apart, -⟩ := List.pairwise_append.mp intact.tiles.disjoint
  rw [List.pairwise_map, List.pairwise_middle fun {_ _} apart => apart.symm,
    List.pairwise_cons] at apart
  exact Finset.disjoint_union_right.mpr
    ⟨(apart.1 other mem).symm, intact.disjoint_free (mem_of_mem_others mem)⟩

section

variable (intact : Intact region heap live blocks)

include intact

theorem bounded (mem : block ∈ blocks ++ live.map (·.block region heap))
    (nonempty : 0 < block.length) : block.stop ≤ region.capacity := by
  have last : block.stop - 1 ∈ cover (blocks ++ live.map (·.block region heap)) := by
    refine points_subset_cover mem (Interval.mem_points.mpr ?_)
    simp only [Interval.stop]
    omega
  rw [intact.tiles.covers, Finset.mem_range] at last
  omega

theorem placed : Placed region.capacity blocks := by
  refine placed_of_separated intact.separated intact.large fun block mem => ?_
  exact intact.bounded (List.mem_append_left _ mem) (intact.separated.nonempty block mem)

theorem total_eq : heap.state.usedBytes + total blocks = region.capacity := by
  obtain ⟨-, sum⟩ := tiles_iff.mp intact.tiles
  rw [total_append] at sum
  rw [intact.used]
  omega

theorem length_live_le : heap.state.liveAllocations ≤ heap.state.usedBytes := by
  have bytes : 1 * (live.map (·.block region heap)).length ≤ _ :=
    mul_length_le_total (List.forall_mem_map.mpr fun allocation mem =>
      Nat.zero_lt_of_lt (intact.recorded allocation mem).headerSize_lt)
  rw [List.length_map, ← intact.used, ← intact.count] at bytes
  omega

theorem length_lt : blocks.length < region.capacity := by
  have count := mul_length_le_total intact.large
  have sum := intact.total_eq
  have room := region.room
  simp only [freeBlockSize] at count room
  omega

end

theorem records_congr (heap' : Heap)
    (recorded : ∀ allocation ∈ live, Recorded region heap allocation)
    (same : ∀ allocation ∈ live, ∀ address ∈ (allocation.headerRange region).points,
      heap'.memory address = heap.memory address) :
    (∀ allocation ∈ live, Recorded region heap' allocation) ∧
      live.map (·.block region heap') = live.map (·.block region heap) :=
  ⟨fun allocation mem => (recorded allocation mem).congr (header_congr (same allocation mem)),
    List.map_congr_left fun allocation mem => block_congr (header_congr (same allocation mem))⟩

theorem start (region : Region) (memory : ByteMemory) :
    Intact region (Heap.initializeRegion { state := .new, memory } region.capacity) []
      [{ start := 0, length := region.capacity }] := by
  have room := region.room
  have positive : 0 < region.capacity := lt_of_lt_of_le (by decide) room
  refine ⟨rfl, ?_, ?_, ?_, ?_, nofun, ?_, rfl, rfl⟩
  · have empty : Segment memory freeListEnd [] freeListEnd := rfl
    have whole : Segment (storeWords memory (Interval.mk 0 region.capacity).start
        [(Interval.mk 0 region.capacity).length, freeListEnd]) 0
        [{ start := 0, length := region.capacity }] freeListEnd :=
      empty.write region.small (by decide) nofun
    exact whole
  · exact separated_cons.mpr ⟨positive, nofun, separated_nil⟩
  · simpa using room
  · simpa [Granular] using region.capacityAligned
  · refine tiles_iff.mpr ⟨?_, ?_⟩
    · ext address
      simp [Interval.stop]
    · simp

theorem granular_carve (granular : ∀ other ∈ before ++ block :: after, Granular other)
    (aligned : n % wordAlign = 0) :
    ∀ other ∈ before ++ block.rest n ++ after, Granular other := by
  intro other mem
  simp only [List.append_assoc, List.mem_append] at mem
  rcases mem with mem | mem | mem
  · exact granular other (by simp [mem])
  · have whole := granular block (by simp)
    have start := start_of_mem_rest mem
    have stop := (of_mem_rest mem).2.1
    simp only [Granular, wordAlign, Interval.stop] at *
    omega
  · exact granular other (by simp [mem])

/-- An allocation takes the front of a free block. -/
theorem taken {before after : List Interval} {block : Interval} {userStart n : Nat} {layout : Layout}
    (intact : Intact region heap live (before ++ block :: after))
    (behindHeader : block.start + headerSize ≤ userStart)
    (taken : Taken heap heap' before block after userStart (max layout.size 1) n) :
    Intact region heap' ({ pointer := region.base + userStart, size := layout.size } :: live)
      (before ++ block.rest n ++ after) := by
  have isBlock : block ∈ before ++ block :: after := by simp
  have carved := intact.placed.carve taken.remainder
  have new : Allocation.header region heap'
      { pointer := region.base + userStart, size := layout.size } =
        { magic := allocationMagic, blockStart := block.start, blockSize := n,
          requestedSize := max layout.size 1 } := by
    rw [Allocation.header, ← taken.header, Nat.add_sub_cancel_left]
  have newBlock : Allocation.block region heap'
      { pointer := region.base + userStart, size := layout.size } =
        { start := block.start, length := n } := by
    rw [Allocation.block, new]
  obtain ⟨recorded, records⟩ := records_congr heap' intact.recorded
    fun allocation mem address inHeader => taken.memory address fun inFree =>
      Finset.disjoint_left.mp (intact.disjoint_free mem)
        ((intact.recorded allocation mem).headerRange_subset inHeader) inFree
  obtain ⟨covers, sum⟩ := tiles_iff.mp intact.tiles
  have within := taken.within
  have carvedTotal : total (before ++ block.rest n ++ after) + n = _ := total_carve within
  have front : (Interval.mk block.start n).points ⊆ cover (before ++ block :: after) := by
    refine Finset.Subset.trans (fun address => ?_) (points_subset_cover isBlock)
    simp only [Interval.mem_points, Interval.stop]
    omega
  refine ⟨?_, taken.segment, intact.separated.carve n, carved.large,
    granular_carve intact.granular taken.granular, ?_, ?_, ?_, ?_⟩
  · rw [taken.state]
    exact intact.initialized
  · refine List.forall_mem_cons.mpr ⟨⟨Nat.le_add_right _ _, ?_, ?_, ?_, ?_⟩, recorded⟩
    · rw [new]
    · rw [newBlock]
      simpa [Allocation.userRange] using behindHeader
    · rw [newBlock]
      simpa [Allocation.userRange, Interval.stop] using taken.fits
    · rw [newBlock]
      exact ⟨(intact.granular block isBlock).1, taken.granular⟩
  · rw [List.map_cons, newBlock, records]
    refine tiles_iff.mpr ⟨?_, ?_⟩
    · rw [cover_append _ (_ :: _), cover_carve intact.separated taken.within, cover_cons,
        ← Finset.union_assoc, Finset.sdiff_union_of_subset front, ← cover_append, covers]
    · simp only [total_append _ (_ :: _), total_cons]
      rw [total_append] at sum
      omega
  · rw [taken.state, List.map_cons, newBlock, records, total_cons, ← intact.used, Nat.add_comm]
    refine saturatingAdd_of_lt (lt_of_le_of_lt ?_ region.small)
    have := intact.total_eq
    omega
  · rw [taken.state, List.length_cons, ← intact.count]
    refine saturatingAdd_of_lt (lt_of_le_of_lt ?_ region.small)
    have sum := intact.total_eq
    have few := intact.length_live_le
    have fits := taken.fits
    omega

/-- The counters once a block of `n` bytes has been given back. -/
def recordDeallocation (heap : Heap) (n : Nat) : Heap where
  state :=
    { heap.state with
      usedBytes := heap.state.usedBytes - n
      liveAllocations := heap.state.liveAllocations - 1
      totalDeallocations := saturatingAdd heap.state.totalDeallocations 1 }
  memory := heap.memory

/-- The header of a pointer that is given back. -/
def voidHeader : AllocationHeader where
  magic := 0
  blockStart := 0
  blockSize := 0
  requestedSize := 0

section

variable (intact : Intact region heap live blocks)

include intact

theorem dealloc_eq (mem : allocation ∈ live) :
    heap.dealloc region allocation.pointer =
      ((heap.writeHeader (allocation.headerRange region).start voidHeader).insertFreeBlock
          region.capacity (allocation.block region heap).start
          (allocation.block region heap).length).map
            (recordDeallocation · (allocation.block region heap).length) := by
  have recorded := intact.recorded allocation mem
  have behind := recorded.behindHeader
  have fits := recorded.fits
  have inRegion := recorded.inRegion
  have large := recorded.headerSize_lt
  have inMemory := region.inMemory
  have bounded := intact.bounded (List.mem_append_right _ (List.mem_map_of_mem mem))
    (Nat.zero_lt_of_lt large)
  have place : allocation.pointer - headerSize - region.base =
      allocation.pointer - region.base - headerSize := Nat.sub_right_comm _ _ _
  have whole : (allocation.block region heap).stop =
      (allocation.block region heap).start + (allocation.block region heap).length := rfl
  have endOfHeap : checkedAdd region.base region.capacity = some (region.base + region.capacity) :=
    checkedAdd_eq_some.mpr ⟨inMemory, rfl⟩
  simp only [Allocation.userRange, Interval.stop, headerSize] at behind fits large
  have low : saturatingAdd region.base headerSize = region.base + headerSize :=
    saturatingAdd_of_lt (by simp only [headerSize]; omega)
  have validEnd : checkedAdd (allocation.block region heap).start
      (allocation.block region heap).length = some (allocation.block region heap).stop :=
    checkedAdd_eq_some.mpr ⟨bounded.trans_lt region.small, rfl⟩
  have accepted : ¬((allocation.header region heap).magic ≠ allocationMagic ∨
      (allocation.header region heap).blockStart ≥ region.capacity ∨
      (allocation.header region heap).blockSize = 0 ∨
      (checkedAdd (allocation.header region heap).blockStart
        (allocation.header region heap).blockSize).all (· > region.capacity)) := by
    rintro (magic | start | empty | tooLong)
    · exact magic recorded.magic
    · change (allocation.block region heap).start ≥ region.capacity at start
      omega
    · change (allocation.block region heap).length = 0 at empty
      omega
    · change (checkedAdd (allocation.block region heap).start
        (allocation.block region heap).length).all (· > region.capacity) = true at tooLong
      rw [validEnd, Option.all_some, decide_eq_true_eq] at tooLong
      omega
  have inside : ¬(allocation.pointer < region.base + headerSize ∨
      allocation.pointer > region.base + region.capacity) := by
    simp only [headerSize]
    omega
  have header : heap.readHeader (allocation.pointer - region.base - headerSize) =
      allocation.header region heap := rfl
  rw [Heap.dealloc, if_neg (by omega), Heap.deallocateIntoRegion, intact.initialized, endOfHeap]
  simp only [low, if_neg inside, place, header, if_neg accepted, Bool.not_true, Bool.false_eq_true,
    if_false]
  rfl

theorem wiped (mem : allocation ∈ live) :
    Listed heap (heap.writeHeader (allocation.headerRange region).start voidHeader)
      ((allocation.block region heap).points ∪ cover blocks) blocks := by
  have untouched : Listed heap heap ((allocation.block region heap).points ∪ cover blocks) blocks :=
    ⟨intact.segment, fun _ _ => rfl, rfl⟩
  have within := (intact.recorded allocation mem).headerRange_subset
  refine untouched.writeHeader (within.trans Finset.subset_union_left) ?_
  intro other mem' address node inHeader
  exact Finset.disjoint_left.mp (intact.disjoint_free mem) (within inHeader)
    (points_subset_cover mem' (mem_points_of_inNode (intact.large other mem') node))

theorem roomy (mem : allocation ∈ live) :
    freeBlockSize ≤ (allocation.block region heap).length ∧
      (allocation.block region heap).stop ≤ region.capacity := by
  have large := (intact.recorded allocation mem).headerSize_lt
  refine ⟨?_, intact.bounded (List.mem_append_right _ (List.mem_map_of_mem mem))
    (Nat.zero_lt_of_lt large)⟩
  simp only [freeBlockSize, headerSize] at *
  omega

end

theorem released {before after : List Allocation}
    (intact : Intact region heap (before ++ allocation :: after) blocks) :
    ∃ heap', heap.dealloc region allocation.pointer = some heap' ∧
      Intact region heap' (before ++ after) (join (allocation.block region heap) blocks) ∧
      (∀ address, address ∉ (allocation.block region heap).points ∪ cover blocks →
        heap'.memory address = heap.memory address) ∧
      heap'.state.peakUsedBytes = heap.state.peakUsedBytes ∧
      heap'.state.usedBytes ≤ heap.state.usedBytes := by
  have isLive : allocation ∈ before ++ allocation :: after := by simp
  have recorded := intact.recorded allocation isLive
  have free := intact.disjoint_free isLive
  have wiped := intact.wiped isLive
  obtain ⟨roomy, bounded⟩ := intact.roomy isLive
  obtain ⟨heap', inserted, listed⟩ := insertFreeBlock_listed wiped.segment intact.separated
    intact.placed region.small roomy bounded free intact.length_lt
  rw [intact.dealloc_eq isLive, inserted, Option.map_some]
  obtain ⟨final, isFinal⟩ : ∃ final,
    recordDeallocation heap' (allocation.block region heap).length = final := ⟨_, rfl⟩
  obtain ⟨freeHead, kept⟩ : ∃ freeHead, heap'.state = { heap.state with freeHead } :=
    ⟨_, listed.state⟩
  have state : final.state =
      { heap.state with
        freeHead
        usedBytes := heap.state.usedBytes - (allocation.block region heap).length
        liveAllocations := heap.state.liveAllocations - 1
        totalDeallocations := saturatingAdd heap.state.totalDeallocations 1 } := by
    rw [← isFinal, recordDeallocation, kept]
  have bytes : final.memory = heap'.memory := by
    rw [← isFinal, recordDeallocation]
  have memory (address : Nat)
      (outside : address ∉ (allocation.block region heap).points ∪ cover blocks) :
      final.memory address = heap.memory address := by
    rw [bytes, listed.memory address outside, wiped.memory address outside]
  have segment : Segment final.memory final.state.freeHead
      (join (allocation.block region heap) blocks) freeListEnd := by
    have links := listed.segment
    rw [kept] at links
    rw [bytes, state]
    exact links
  rw [isFinal]
  refine ⟨final, rfl, ?_, memory, by rw [state], by rw [state]; exact Nat.sub_le _ _⟩
  obtain ⟨recorded', records⟩ := records_congr final
    (fun other mem => intact.recorded other (mem_of_mem_others mem)) fun other mem address inHeader =>
      memory address fun touched => Finset.disjoint_left.mp (intact.disjoint_others mem)
        ((intact.recorded other (mem_of_mem_others mem)).headerRange_subset inHeader) touched
  obtain ⟨covers, sum⟩ := tiles_iff.mp intact.tiles
  have used := intact.used
  have count := intact.count
  simp only [List.map_append, List.map_cons, total_append, total_cons, List.length_append,
    List.length_cons] at sum used count
  refine ⟨?_, segment, intact.separated.join (lt_of_lt_of_le (by decide) roomy) free, ?_, ?_, recorded', ?_, ?_, ?_⟩
  · rw [state]
    exact intact.initialized
  · refine forall_mem_join (fun i j large _ _ => ?_) roomy intact.large
    exact large.trans (Nat.le_add_right _ _)
  · refine forall_mem_join (fun i j first second touch => ?_) recorded.granular intact.granular
    simp only [Granular, wordAlign] at *
    omega
  · rw [records]
    refine tiles_iff.mpr ⟨?_, ?_⟩
    · rw [← covers, cover_append, cover_join]
      simp only [List.map_append, List.map_cons, cover_append, cover_cons]
      ac_rfl
    · rw [total_append, total_join]
      simp only [List.map_append, total_append]
      omega
  · rw [records, state]
    simp only [List.map_append, total_append]
    omega
  · rw [state]
    simp only [List.length_append]
    omega

theorem written (intact : Intact region heap live blocks)
    (only : ∀ address, (∀ allocation ∈ live, address ∉ (allocation.userRange region).points) →
      memory address = heap.memory address) :
    Intact region { heap with memory } live blocks := by
  have headers (allocation : Allocation) (mem : allocation ∈ live) (address : Nat)
      (inHeader : address ∈ (allocation.headerRange region).points) :
      memory address = heap.memory address := by
    refine only address fun other mem' inRange => ?_
    by_cases same : allocation = other
    · subst same
      exact Finset.disjoint_left.mp (intact.recorded allocation mem).headerRange_disjoint inHeader
        inRange
    · exact Finset.disjoint_left.mp (intact.disjoint_live mem mem' same)
        ((intact.recorded allocation mem).headerRange_subset inHeader)
        ((intact.recorded other mem').userRange_subset inRange)
  obtain ⟨recorded, records⟩ := records_congr { heap with memory } intact.recorded headers
  refine ⟨intact.initialized, ?_, intact.separated, intact.large, intact.granular, recorded, ?_, ?_,
    intact.count⟩
  · refine intact.segment.congr fun block mem address node => only address fun other mem' inRange => ?_
    have inBlock := (intact.recorded other mem').userRange_subset inRange
    have inFree := points_subset_cover mem (mem_points_of_inNode (intact.large block mem) node)
    exact Finset.disjoint_left.mp (intact.disjoint_free mem') inBlock inFree
  · rw [records]
    exact intact.tiles
  · rw [records]
    exact intact.used

theorem refused (intact : Intact region heap live blocks) (failedAllocations : Nat) :
    Intact region { heap with state := { heap.state with failedAllocations } } live blocks :=
  ⟨intact.initialized, intact.segment, intact.separated, intact.large, intact.granular,
    fun allocation mem => (intact.recorded allocation mem).congr rfl, intact.tiles, intact.used,
    intact.count⟩

/-- The search returns, with the first block that can serve the request if there is one. -/
theorem allocateFromFreeList_cases (intact : Intact region heap live blocks) (layout : Layout) :
    Searched heap (max layout.size 1) (max layout.align wordAlign) [] blocks
      (heap.allocateFromFreeList region.capacity layout) := by
  have segment : Segment heap.memory heap.state.freeHead ([] ++ blocks) freeListEnd := intact.segment
  have placed : Placed region.capacity ([] ++ blocks) := intact.placed
  have searched := @searchFreeList_cases heap region.capacity (max layout.size 1) [] blocks _ _
    segment placed region.small intact.granular layout.powerOfTwo_max intact.length_lt
  rw [← intact.segment.head_eq] at searched
  exact searched

theorem alloc_cases (intact : Intact region heap live blocks) (layout : Layout) :
    heap.alloc region layout =
        some (none, { heap with
          state := { heap.state with
            failedAllocations := saturatingAdd heap.state.failedAllocations 1 } }) ∨
      ∃ before block after heap' n,
        blocks = before ++ block :: after ∧
        heap.alloc region layout = some (some (region.base + layout.userStart block), heap') ∧
        Taken heap heap' before block after (layout.userStart block) (max layout.size 1) n := by
  have again : heap.initializeRegion region.capacity = heap := if_pos intact.initialized
  unfold Heap.alloc
  rw [again]
  obtain ⟨nothing, -⟩ | ⟨before, block, after, heap', n, split, -, -, found, taken⟩ :=
    intact.allocateFromFreeList_cases layout
  · left
    simp only [nothing]
  · right
    simp only [found]
    exact ⟨before, block, after, heap', n, split, rfl, taken⟩

end Intact

end

/-- What holds of a heap with this free list after every run. -/
structure Sound (region : Region) (heap : Heap) (live : List Allocation) (history : List Nat)
    (blocks : List Interval) : Prop where
  /-- The links lead through these blocks to the end of the list. -/
  chain : Segment heap.memory heap.state.freeHead blocks freeListEnd
  increasing : blocks.Pairwise fun block block' => block.stop < block'.start
  tiles : Tiles (blocks ++ live.map (·.block region heap)) region.capacity
  pointer : ∀ allocation ∈ live,
    allocation.pointer = region.base + (allocation.userRange region).start
  userInside : ∀ allocation ∈ live,
    (allocation.block region heap).start + headerSize ≤ (allocation.userRange region).start ∧
      (allocation.userRange region).stop ≤ (allocation.block region heap).stop
  used : heap.state.usedBytes + total blocks = region.capacity
  count : heap.state.liveAllocations = live.length
  peak : heap.state.peakUsedBytes = history.foldr max 0
  emptied : live = [] → blocks = [{ start := 0, length := region.capacity }]
  /-- An allocation returns, and no user's bytes change. -/
  allocates : ∀ layout, ∃ result heap', heap.alloc region layout = some (result, heap') ∧
    ∀ allocation ∈ live, ∀ address ∈ (allocation.userRange region).points,
      heap'.memory address = heap.memory address
  /-- A deallocation returns, and no other user's bytes change. -/
  deallocates : ∀ before allocation after, live = before ++ allocation :: after →
    ∃ heap', heap.dealloc region allocation.pointer = some heap' ∧
      ∀ other ∈ before ++ after, ∀ address ∈ (other.userRange region).points,
        heap'.memory address = heap.memory address

section

variable {region : Region} {heap : Heap} {live : List Allocation} {history : List Nat}
  {blocks : List Interval}

/-- The counter of the peak is the largest value `used_bytes` has had. -/
def Peaked (heap : Heap) (history : List Nat) : Prop :=
  heap.state.peakUsedBytes = history.foldr max 0 ∧
    heap.state.usedBytes ≤ heap.state.peakUsedBytes

theorem Run.intact (run : Run region heap live history) :
    (∃ blocks, Intact region heap live blocks) ∧ Peaked heap history := by
  induction run with
  | start memory => exact ⟨⟨_, Intact.start region memory⟩, rfl, le_rfl⟩
  | allocated layout _ made ih =>
    obtain ⟨⟨blocks, intact⟩, peak, below⟩ := ih
    obtain failed | ⟨before, block, after, heap', n, rfl, found, taken⟩ :=
      intact.alloc_cases layout
    · rw [failed] at made
      cases made
    · rw [found] at made
      cases made
      refine ⟨⟨_, intact.taken (layout.behindHeader block) taken⟩, ?_, ?_⟩
      · rw [taken.state, List.foldr_cons, ← peak, max_comm]
      · rw [taken.state]
        exact le_max_right _ _
  | refused layout _ made ih =>
    obtain ⟨⟨blocks, intact⟩, peak, below⟩ := ih
    obtain failed | ⟨before, block, after, heap', n, rfl, found, -⟩ := intact.alloc_cases layout
    · rw [failed] at made
      cases made
      refine ⟨⟨blocks, intact.refused _⟩, ?_, below⟩
      rw [List.foldr_cons, ← peak]
      exact (max_eq_right below).symm
    · rw [found] at made
      cases made
  | deallocated _ made ih =>
    obtain ⟨⟨blocks, intact⟩, peak, below⟩ := ih
    obtain ⟨heap', freed, intact', -, samePeak, less⟩ := intact.released
    rw [freed] at made
    cases made
    have below' := less.trans (below.trans_eq samePeak.symm)
    refine ⟨⟨_, intact'⟩, ?_, below'⟩
    rw [List.foldr_cons, ← peak, ← samePeak]
    exact (max_eq_right below').symm
  | written memory _ only ih =>
    obtain ⟨⟨blocks, intact⟩, peaked⟩ := ih
    exact ⟨⟨blocks, intact.written only⟩, peaked⟩

theorem Intact.sound (intact : Intact region heap live blocks) (peaked : Peaked heap history) :
    Sound region heap live history blocks where
  chain := intact.segment
  increasing := intact.separated.apart
  tiles := intact.tiles
  pointer allocation mem := (Nat.add_sub_of_le (intact.recorded allocation mem).inRegion).symm
  userInside allocation mem :=
    ⟨(intact.recorded allocation mem).behindHeader, (intact.recorded allocation mem).fits⟩
  used := intact.total_eq
  count := intact.count
  peak := peaked.1
  emptied none := by
    subst none
    have covers := intact.tiles.covers
    rw [List.map_nil, List.append_nil] at covers
    exact intact.separated.eq_singleton covers (lt_of_lt_of_le (by decide) region.room)
  allocates layout := by
    obtain failed | ⟨before, block, after, heap', n, rfl, found, taken⟩ := intact.alloc_cases layout
    · exact ⟨_, _, failed, fun _ _ _ _ => rfl⟩
    · refine ⟨_, _, found, fun allocation mem address inRange => taken.memory address ?_⟩
      exact Finset.disjoint_left.mp (intact.disjoint_free mem)
        ((intact.recorded allocation mem).userRange_subset inRange)
  deallocates before allocation after split := by
    subst split
    obtain ⟨heap', freed, -, memory, -⟩ := intact.released
    refine ⟨heap', freed, fun other mem address inRange => memory address ?_⟩
    exact Finset.disjoint_left.mp (intact.disjoint_others mem)
      ((intact.recorded other (Intact.mem_of_mem_others mem)).userRange_subset inRange)

/-- The free list and the blocks of the live allocations tile the region after every run. -/
theorem heap_tiles (run : Run region heap live history) :
    ∃ blocks, Sound region heap live history blocks := by
  obtain ⟨⟨blocks, intact⟩, peaked⟩ := run.intact
  exact ⟨blocks, intact.sound peaked⟩

end

def sampleRegion : Region where
  base := 4096
  capacity := 256
  baseAligned := by decide
  capacityAligned := by decide
  room := by decide
  inMemory := by decide

def sampleLayout : Layout where
  size := 10
  align := 64
  powerOfTwo := ⟨6, rfl⟩

theorem sample_run : ∃ heap, Run sampleRegion heap [{ pointer := 4160, size := 10 }] [80, 0] := by
  have begin : Run sampleRegion _ [] [0] := Run.start fun _ => 0
  have made : ((Heap.initializeRegion { state := .new, memory := fun _ => 0 } 256).alloc sampleRegion
      sampleLayout).map (fun result => (result.1, result.2.state.usedBytes)) =
        some (some 4160, 80) := by
    decide +kernel
  obtain ⟨⟨result, heap⟩, alloc, fields⟩ := Option.map_eq_some_iff.mp made
  simp only [Prod.mk.injEq] at fields
  obtain ⟨rfl, used⟩ := fields
  have run := Run.allocated sampleLayout begin alloc
  rw [used] at run
  exact ⟨heap, run⟩

/-- The free list goes on behind an allocation whose alignment leaves a gap before its header. -/
theorem heap_tiles_aligned_allocation :
    ∃ heap, Run sampleRegion heap [{ pointer := 4160, size := 10 }] [80, 0] ∧
      ∃ blocks, Sound sampleRegion heap [{ pointer := 4160, size := 10 }] [80, 0] blocks := by
  obtain ⟨heap, run⟩ := sample_run
  exact ⟨heap, run, heap_tiles run⟩

end CodexOS.HeapAllocator
