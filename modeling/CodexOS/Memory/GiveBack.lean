import CodexOS.Memory.Safety

/-! # Giving pages back

A range in use can be given back exactly if it lies in one region. Free extents
of adjacent regions are joined, and a later allocation may then straddle the
border: such a range is refused.
-/

namespace CodexOS.Memory

open Word64 Intervals

section

variable {bootInfo : BootInfo} {allocator allocator' : PhysicalPageAllocator} {live : List Interval}
  {pageCount address : Nat}

theorem total_used (regions : List RegionCursor) :
    total (regions.map RegionCursor.used) = (regions.map RegionCursor.nextPage).sum * pageSize := by
  induction regions with
  | nil => rfl
  | cons region rest ih =>
    simp only [List.map_cons, total_cons, List.sum_cons, Nat.add_mul, ih]
    rfl

namespace Consistent

variable (h : Consistent bootInfo allocator live)

include h

theorem areas_disjoint (mem : region ∈ allocator.regions) (mem' : region' ∈ allocator.regions)
    (different : region ≠ region') :
    Disjoint region.area.points region'.area.points := by
  have : Std.Symm fun region region' : RegionCursor =>
      Disjoint region.area.points region'.area.points := ⟨fun _ _ apart => apart.symm⟩
  exact (List.pairwise_map.mp h.areas.disjoint).forall mem mem' different

/-- As many pages are counted as allocated as are in use. -/
theorem card_inUse : (cover live).card = allocator.allocatedPages * pageSize := by
  have used : (allocator.regions.map RegionCursor.used).Pairwise fun range range' =>
      Disjoint range.points range'.points := by
    refine List.pairwise_map.mpr ((List.pairwise_map.mp h.areas.disjoint).imp_of_mem ?_)
    intro region region' mem mem' apart
    exact (apart.mono_left (used_subset_area (h.marks region mem))).mono_right
      (used_subset_area (h.marks region' mem'))
  have balance : (allocator.regions.map RegionCursor.nextPage).sum =
      allocator.allocatedPages + freePages allocator.freeExtents := h.balance
  rw [h.inUse, Finset.card_sdiff_of_subset h.below, PhysicalPageAllocator.marked,
    PhysicalPageAllocator.free, card_cover used, h.separated.card, total_used, total_intervals,
    balance, Nat.add_mul, Nat.add_sub_cancel]

theorem below_mark (isLive : range ∈ live) (isRegion : region ∈ allocator.regions)
    (inside : range.points ⊆ region.area.points) :
    region.start ≤ range.start ∧ range.stop ≤ region.used.stop := by
  have nonempty := (h.whole range isLive).2.2
  have first : range.start ∈ range.points := by
    simp only [Interval.mem_points, Interval.stop]
    omega
  have last : range.stop - 1 ∈ range.points := by
    simp only [Interval.mem_points, Interval.stop]
    omega
  refine ⟨(Interval.mem_points.mp (inside first)).1, ?_⟩
  have isMarked := points_subset_cover isLive last
  rw [h.inUse] at isMarked
  obtain ⟨region', isRegion', inUsed⟩ := mem_marked.mp (Finset.sdiff_subset isMarked)
  by_cases same : region = region'
  · rw [← same, Interval.mem_points] at inUsed
    omega
  · have inArea := used_subset_area (h.marks region' isRegion') inUsed
    exact absurd inArea (Finset.disjoint_left.mp (h.areas_disjoint isRegion isRegion' same) (inside last))

end Consistent

theorem pageCount_le (h : Consistent bootInfo allocator live)
    (isLive : pageRange address pageCount ∈ live) : pageCount ≤ allocator.allocatedPages := by
  have le := Finset.card_le_card (points_subset_cover isLive)
  rw [h.card_inUse, Interval.card_points] at le
  exact Nat.le_of_mul_le_mul_right le (by decide)

theorem Consistent.giveBack (h : Consistent bootInfo allocator live)
    (room : allocator.freeExtents.length < maxFreeExtents)
    (isLive : pageRange address pageCount ∈ live) (isRegion : region ∈ allocator.regions)
    (starts : region.start ≤ address)
    (ends : address + pageCount * pageSize ≤ region.start + region.pageCount * pageSize) :
    ∃ extents, TakenBack allocator address pageCount extents := by
  have inside : (pageRange address pageCount).points ⊆ region.area.points := by
    intro x
    simp only [Interval.mem_points, Interval.stop, pageRange, RegionCursor.area]
    omega
  obtain ⟨-, belowMark⟩ := h.below_mark isLive isRegion inside
  obtain ⟨aligned, -, positive⟩ := h.whole _ isLive
  obtain ⟨extents, inserted⟩ : ∃ extents, insertFreeExtent allocator.freeExtents address
      (address + pageCount * pageSize) pageCount = some extents := isSome_insertFreeExtent room
  have bounded := h.bounded isRegion
  refine ⟨extents, Nat.pos_of_mul_pos_right positive, aligned, pageCount_le h isLive, ?_,
    ⟨region, isRegion, starts, ?_⟩, ?_, inserted⟩
  · exact ends.trans_lt (bounded.trans_lt lastPage_lt_size)
  · rwa [mark_eq (h.marks region isRegion) bounded]
  · intro extent mem overlap
    have isInterval : extent.interval ∈ allocator.freeExtents.map FreeExtent.interval :=
      List.mem_map_of_mem mem
    have apart := h.inUse_disjoint (points_subset_cover isInterval) _ isLive
    rw [Interval.disjoint_points (h.separated.nonempty _ isInterval) positive] at apart
    rw [FreeExtent.stop_eq (h.extentsOk.bounded extent mem)] at overlap
    simp only [Interval.stop, FreeExtent.interval, pageRange] at apart overlap
    omega

/-- A range in use is given back, and the count goes down by its pages, exactly if it lies in one
    region. -/
theorem giveBack_iff (disjoint : DisjointRegions bootInfo) (run : Reachable bootInfo allocator live)
    (room : allocator.freeExtents.length < maxFreeExtents)
    (isLive : pageRange address pageCount ∈ live) :
    (∃ allocator', allocator.deallocateContiguousPages address pageCount = (true, allocator') ∧
        allocator'.allocatedPages + pageCount = allocator.allocatedPages) ↔
      ∃ region ∈ allocator.regions,
        region.start ≤ address ∧
          address + pageCount * pageSize ≤ region.start + region.pageCount * pageSize := by
  have h := run.consistent disjoint
  have counted := pageCount_le h isLive
  constructor
  · rintro ⟨allocator', step, -⟩
    obtain ⟨impossible, -⟩ | ⟨-, extents, taken, -⟩ := deallocate_cases step
    · cases impossible
    obtain ⟨region, isRegion, starts, ends⟩ := taken.inRegion
    refine ⟨region, isRegion, starts, ?_⟩
    rw [mark_eq (h.marks region isRegion) (h.bounded isRegion)] at ends
    have product := Nat.mul_le_mul_right pageSize (h.marks region isRegion)
    simp only [Interval.stop, RegionCursor.used] at ends
    omega
  · rintro ⟨region, isRegion, starts, ends⟩
    obtain ⟨extents, taken⟩ := h.giveBack room isLive isRegion starts ends
    refine ⟨_, deallocate_of_takenBack h.ready taken, ?_⟩
    simp only
    omega

theorem Reachable.allocate (run : Reachable bootInfo allocator live) (pageCount address : Nat)
    (returned : (allocator.allocateContiguousPages pageCount).1 = some address) :
    Reachable bootInfo (allocator.allocateContiguousPages pageCount).2
      (pageRange address pageCount :: live) :=
  .allocated run (Prod.ext returned rfl)

theorem Reachable.deallocate (run : Reachable bootInfo allocator live) (address pageCount : Nat)
    (returned : (allocator.deallocateContiguousPages address pageCount).1 = true) :
    Reachable bootInfo (allocator.deallocateContiguousPages address pageCount).2
      (without live (pageRange address pageCount)) :=
  .freed run (Prod.ext returned rfl)

/-- Four pages behind a reserved one are given back. -/
theorem giveBack_iff_behind_reserved :
    ∃ allocator, Reachable sampleBootInfo allocator [pageRange 0x102000 4] ∧
      ∃ allocator', allocator.deallocateContiguousPages 0x102000 4 = (true, allocator') ∧
        allocator'.allocatedPages + 4 = allocator.allocatedPages := by
  have run : Reachable sampleBootInfo _ [pageRange 0x102000 4] :=
    Reachable.init.allocate 4 0x102000 (by decide +kernel)
  have disjoint : DisjointRegions sampleBootInfo := List.pairwise_singleton _ _
  refine ⟨_, run, (giveBack_iff disjoint run (by decide +kernel) (List.mem_singleton.mpr rfl)).mpr ?_⟩
  exact ⟨{ start := 0x102000, pageCount := 14, nextPage := 4, kind := .conventional },
    by decide +kernel, by decide, by decide⟩

def adjacentBootInfo : BootInfo where
  firmwareMode := .postExitBootServices
  memoryRegions :=
    [{ start := 0x100000, pageCount := 1, kind := .conventional },
     { start := 0x101000, pageCount := 1, kind := .loaderData }]
  reservedMemory := []
  regionsFit := by decide
  rangesFit := no_ranges_fit

/-- Both pages are allocated and given back one by one, then allocated together. -/
def straddled : PhysicalPageAllocator :=
  let allocator := (PhysicalPageAllocator.init adjacentBootInfo).allocatePage.2.allocatePage.2
  let allocator := ((allocator.deallocatePage 0x100000).2.deallocatePage 0x101000).2
  (allocator.allocateContiguousPages 2).2

/-- The two pages lie in different regions, and the allocator does not take them back. -/
theorem straddling_range_is_refused :
    DisjointRegions adjacentBootInfo ∧
      ∃ live, Reachable adjacentBootInfo straddled live ∧
        straddled.freeExtents.length < maxFreeExtents ∧ pageRange 0x100000 2 ∈ live ∧
        (straddled.deallocateContiguousPages 0x100000 2).1 = false := by
  refine ⟨?_, ?_⟩
  · refine List.pairwise_pair.mpr fun address => ?_
    simp only [MemoryRegion.stop, MemoryRegion.sizeBytes, saturatingAdd, saturatingMul, maxValue,
      size, pageSize, UInt64.reduceToNat]
    omega
  · have start : Reachable adjacentBootInfo _ _ := .init
    have one := start.allocate 1 0x100000 (by decide +kernel)
    have both := one.allocate 1 0x101000 (by decide +kernel)
    have none := (both.deallocate 0x100000 1 (by decide +kernel)).deallocate 0x101000 1
      (by decide +kernel)
    have together := none.allocate 2 0x100000 (by decide +kernel)
    exact ⟨_, together, by decide +kernel, List.mem_cons_self, by decide +kernel⟩

end

end CodexOS.Memory
