import CodexOS.Memory.Regions
import CodexOS.Memory.Extents
import Mathlib.Algebra.Order.BigOperators.Group.List
import Mathlib.Algebra.Order.Ring.Nat

/-! # Page ranges in use

A run of the allocator, with the ranges that are handed out at each moment. They
are disjoint, usable and not reserved, and together with the free extents they
make up everything below the marks of the regions.
-/

namespace CodexOS.Memory

open Word64 Intervals

/-- The part of a region that was handed out at least once. -/
def RegionCursor.used (region : RegionCursor) : Interval where
  start := region.start
  length := region.nextPage * pageSize

namespace PhysicalPageAllocator

section

variable (allocator : PhysicalPageAllocator)

/-- Everything below the marks of the regions. -/
def marked : Finset Nat :=
  cover (allocator.regions.map RegionCursor.used)

def free : Finset Nat :=
  cover (allocator.freeExtents.map FreeExtent.interval)

def markedPages : Nat :=
  (allocator.regions.map RegionCursor.nextPage).sum

end

end PhysicalPageAllocator

def pageRange (start pageCount : Nat) : Interval where
  start := start
  length := pageCount * pageSize

/-- A run of the allocator after `init`, with any arguments, and the ranges in use. -/
inductive Reachable (bootInfo : BootInfo) : PhysicalPageAllocator → List Interval → Prop where
  | init : Reachable bootInfo (.init bootInfo) []
  | allocated {allocator allocator' : PhysicalPageAllocator} {live : List Interval}
      {pageCount address : Nat} (run : Reachable bootInfo allocator live)
      (step : allocator.allocateContiguousPages pageCount = (some address, allocator')) :
      Reachable bootInfo allocator' (pageRange address pageCount :: live)
  | exhausted {allocator allocator' : PhysicalPageAllocator} {live : List Interval}
      {pageCount : Nat} (run : Reachable bootInfo allocator live)
      (step : allocator.allocateContiguousPages pageCount = (none, allocator')) :
      Reachable bootInfo allocator' live
  | freed {allocator allocator' : PhysicalPageAllocator} {live : List Interval}
      {start pageCount : Nat} (run : Reachable bootInfo allocator live)
      (step : allocator.deallocateContiguousPages start pageCount = (true, allocator')) :
      Reachable bootInfo allocator' (without live (pageRange start pageCount))
  | refused {allocator allocator' : PhysicalPageAllocator} {live : List Interval}
      {start pageCount : Nat} (run : Reachable bootInfo allocator live)
      (step : allocator.deallocateContiguousPages start pageCount = (false, allocator')) :
      Reachable bootInfo allocator' live

/-- What holds between the tables and the ranges in use, at every moment of a run. -/
structure Consistent (bootInfo : BootInfo) (allocator : PhysicalPageAllocator)
    (live : List Interval) : Prop where
  ready : allocator.initialized = true
  areas : AreasOk bootInfo (allocator.regions.map RegionCursor.area)
  marks : ∀ region ∈ allocator.regions, region.nextPage ≤ region.pageCount
  separated : Separated (allocator.freeExtents.map FreeExtent.interval)
  extentsAligned : ∀ interval ∈ allocator.freeExtents.map FreeExtent.interval,
    interval.start % pageSize = 0
  below : allocator.free ⊆ allocator.marked
  inUse : cover live = allocator.marked \ allocator.free
  disjoint : live.Pairwise fun range range' => Disjoint range.points range'.points
  whole : ∀ range ∈ live, range.start % pageSize = 0 ∧ range.length % pageSize = 0 ∧ 0 < range.length
  balance : allocator.markedPages = allocator.allocatedPages + freePages allocator.freeExtents

section

variable {allocator allocator' : PhysicalPageAllocator} {pageCount start : Nat}

theorem of_takeFromRegions (taken : takeFromRegions pageCount regions = some (address, regions')) :
    ∃ before region after, regions = before ++ region :: after ∧
      pageCount ≤ region.remainingPages ∧ address = region.mark ∧
      regions' = before ++
        { region with nextPage := saturatingAdd region.nextPage pageCount } :: after := by
  induction regions generalizing regions' with
  | nil => cases taken
  | cons region rest ih =>
    unfold takeFromRegions at taken
    split at taken
    · obtain ⟨⟨found, rest'⟩, inRest, same⟩ := Option.map_eq_some_iff.mp taken
      cases same
      obtain ⟨before, region', after, rfl, enough, address, rfl⟩ := ih inRest
      exact ⟨region :: before, region', after, rfl, enough, address, rfl⟩
    · cases taken
      exact ⟨[], region, rest, rfl, by omega, rfl, rfl⟩

/-- An allocation fails, or takes the front of an extent, or moves the mark of a region. -/
theorem allocate_cases (step : allocator.allocateContiguousPages pageCount = (result, allocator')) :
    (result = none ∧ allocator' = allocator) ∨
    (∃ before extent after, allocator.freeExtents = before ++ extent :: after ∧ 0 < pageCount ∧
      pageCount ≤ extent.pageCount ∧ result = some extent.start ∧
      allocator' =
        { allocator with
          freeExtents := takeFromExtent (before ++ extent :: after) before.length pageCount
          allocatedPages := saturatingAdd allocator.allocatedPages pageCount }) ∨
    ∃ before region after, allocator.regions = before ++ region :: after ∧ 0 < pageCount ∧
      (∀ extent ∈ allocator.freeExtents, extent.pageCount < pageCount) ∧
      pageCount ≤ region.remainingPages ∧ result = some region.mark ∧
      allocator' =
        { allocator with
          regions := before ++
            { region with nextPage := saturatingAdd region.nextPage pageCount } :: after
          allocatedPages := saturatingAdd allocator.allocatedPages pageCount } := by
  unfold PhysicalPageAllocator.allocateContiguousPages at step
  split at step
  · cases step
    exact .inl ⟨rfl, rfl⟩
  rename_i nonzero
  split at step
  · cases step
    exact .inl ⟨rfl, rfl⟩
  simp only at step
  split at step
  · rename_i index found
    obtain ⟨before, extent, after, same, rfl, enough⟩ := of_findIdx_extent found
    rw [same, getD_middle] at step
    cases step
    exact .inr (.inl ⟨before, extent, after, same, Nat.pos_of_ne_zero nonzero, enough, rfl, rfl⟩)
  · rename_i short
    have small : ∀ extent ∈ allocator.freeExtents, extent.pageCount < pageCount := by
      simpa [List.findIdx?_eq_none_iff] using short
    split at step
    · rename_i address regions taken
      obtain ⟨before, region, after, same, enough, rfl, rfl⟩ := of_takeFromRegions taken
      cases step
      exact .inr (.inr
        ⟨before, region, after, same, Nat.pos_of_ne_zero nonzero, small, enough, rfl, rfl⟩)
    · cases step
      exact .inl ⟨rfl, rfl⟩

/-- A range that is taken back was below the mark of one region and outside all extents. -/
structure TakenBack (allocator : PhysicalPageAllocator) (start pageCount : Nat)
    (extents : List FreeExtent) : Prop where
  nonempty : 0 < pageCount
  aligned : start % pageSize = 0
  counted : pageCount ≤ allocator.allocatedPages
  small : start + pageCount * pageSize < size
  inRegion : ∃ region ∈ allocator.regions,
    region.start ≤ start ∧ start + pageCount * pageSize ≤ region.mark
  outside : ∀ extent ∈ allocator.freeExtents,
    ¬(start < extent.stop ∧ extent.start < start + pageCount * pageSize)
  inserted : insertFreeExtent allocator.freeExtents start (start + pageCount * pageSize) pageCount =
    some extents

theorem deallocate_cases
    (step : allocator.deallocateContiguousPages start pageCount = (result, allocator')) :
    (result = false ∧ allocator' = allocator) ∨
    (result = true ∧ ∃ extents, TakenBack allocator start pageCount extents ∧
      allocator' =
        { allocator with
          freeExtents := extents
          allocatedPages := allocator.allocatedPages - pageCount }) := by
  unfold PhysicalPageAllocator.deallocateContiguousPages at step
  split at step
  · cases step
    exact .inl ⟨rfl, rfl⟩
  rename_i accepted
  simp only [Bool.or_eq_true, Bool.not_eq_eq_eq_not, Bool.not_true, decide_eq_true_eq, not_or,
    Bool.not_eq_false, ne_eq, not_not] at accepted
  obtain ⟨⟨⟨-, nonzero⟩, aligned⟩, counted⟩ := accepted
  split at step
  · cases step
    exact .inl ⟨rfl, rfl⟩
  rename_i length product
  split at step
  · cases step
    exact .inl ⟨rfl, rfl⟩
  rename_i stop sum
  obtain ⟨-, rfl⟩ := checkedMul_eq_some.mp product
  obtain ⟨small, rfl⟩ := checkedAdd_eq_some.mp sum
  simp only at step
  split at step
  · cases step
    exact .inl ⟨rfl, rfl⟩
  rename_i allowed
  simp only [Bool.or_eq_true, Bool.not_eq_eq_eq_not, Bool.not_true, not_or, Bool.not_eq_false,
    List.any_eq_true, Bool.and_eq_true, decide_eq_true_eq, not_exists, not_and] at allowed
  split at step
  · cases step
    exact .inl ⟨rfl, rfl⟩
  · rename_i extents inserted
    cases step
    refine .inr ⟨rfl, extents, ⟨Nat.pos_of_ne_zero nonzero, aligned, by omega, small, allowed.1, ?_,
      inserted⟩, rfl⟩
    exact fun extent mem overlap => allowed.2 extent mem overlap.1 overlap.2

theorem deallocate_of_takenBack (ready : allocator.initialized = true)
    (taken : TakenBack allocator start pageCount extents) :
    allocator.deallocateContiguousPages start pageCount =
      (true,
        { allocator with
          freeExtents := extents
          allocatedPages := allocator.allocatedPages - pageCount }) := by
  have nonempty := taken.nonempty
  have counted := taken.counted
  have small := taken.small
  have product : checkedMul pageCount pageSize = some (pageCount * pageSize) :=
    checkedMul_eq_some.mpr ⟨by omega, rfl⟩
  have sum : checkedAdd start (pageCount * pageSize) = some (start + pageCount * pageSize) :=
    checkedAdd_eq_some.mpr ⟨small, rfl⟩
  have allocated : (allocator.regions.any fun region =>
      start ≥ region.start && start + pageCount * pageSize ≤ region.mark) = true := by
    simpa using taken.inRegion
  have outside : (allocator.freeExtents.any fun extent =>
      start < extent.stop && extent.start < start + pageCount * pageSize) = false := by
    simpa using taken.outside
  unfold PhysicalPageAllocator.deallocateContiguousPages
  rw [if_neg]
  · simp only [product, sum, allocated, outside, taken.inserted]
    rfl
  · simp [ready, taken.aligned, Nat.pos_iff_ne_zero.mp nonempty, counted]

end

section

variable {bootInfo : BootInfo} {allocator allocator' : PhysicalPageAllocator} {live : List Interval}
  {pageCount start : Nat}

theorem used_subset_area {region : RegionCursor} (mark : region.nextPage ≤ region.pageCount) :
    region.used.points ⊆ region.area.points := by
  intro address
  have := Nat.mul_le_mul_right pageSize mark
  simp only [Interval.mem_points, Interval.stop, RegionCursor.used, RegionCursor.area]
  omega

theorem lastPage_lt_size : size - pageSize < size := by
  decide

theorem mark_eq {region : RegionCursor} (mark : region.nextPage ≤ region.pageCount)
    (bounded : region.area.stop ≤ size - pageSize) : region.mark = region.used.stop := by
  have product := Nat.mul_le_mul_right pageSize mark
  have last := lastPage_lt_size
  simp only [Interval.stop, RegionCursor.area] at bounded
  rw [RegionCursor.mark, saturatingMul_of_lt (by omega), saturatingAdd_of_lt (by omega)]
  rfl

theorem nextPage_room {region : RegionCursor} (mark : region.nextPage ≤ region.pageCount)
    (bounded : region.area.stop ≤ size - pageSize) (enough : pageCount ≤ region.remainingPages) :
    region.nextPage + pageCount ≤ region.pageCount ∧
      saturatingAdd region.nextPage pageCount = region.nextPage + pageCount := by
  simp only [RegionCursor.remainingPages] at enough
  refine ⟨by omega, saturatingAdd_of_lt ?_⟩
  have last := lastPage_lt_size
  simp only [Interval.stop, RegionCursor.area, pageSize] at bounded last
  omega

theorem mem_marked :
    address ∈ allocator.marked ↔ ∃ region ∈ allocator.regions, address ∈ region.used.points := by
  simp only [PhysicalPageAllocator.marked, mem_cover, List.mem_map, exists_exists_and_eq_and]

/-- What the tables keep whatever the memory map says: the free extents are apart and were handed
    out before. -/
structure Tidy (allocator : PhysicalPageAllocator) : Prop where
  bounded : ∀ region ∈ allocator.regions, region.area.stop ≤ size - pageSize
  marks : ∀ region ∈ allocator.regions, region.nextPage ≤ region.pageCount
  separated : Separated (allocator.freeExtents.map FreeExtent.interval)
  below : allocator.free ⊆ allocator.marked

namespace Tidy

section

variable (tidy : Tidy allocator)

include tidy

theorem extentsOk : ExtentsOk allocator.freeExtents := by
  refine ⟨tidy.separated, fun extent mem => ?_⟩
  have isInterval : extent.interval ∈ allocator.freeExtents.map FreeExtent.interval :=
    List.mem_map_of_mem mem
  have nonempty := tidy.separated.nonempty _ isInterval
  have last : extent.interval.stop - 1 ∈ allocator.free := by
    refine points_subset_cover isInterval (Interval.mem_points.mpr ?_)
    simp only [Interval.stop] at *
    omega
  obtain ⟨region, isRegion, inside⟩ := mem_marked.mp (tidy.below last)
  have inArea := used_subset_area (tidy.marks region isRegion) inside
  have limit := (Interval.mem_points.mp inArea).2.trans_le (tidy.bounded region isRegion)
  have positive : 0 < pageSize := by decide
  omega

theorem takeExtent (same : allocator.freeExtents = before ++ extent :: after)
    (enough : pageCount ≤ extent.pageCount) (isNext : allocator' =
      { allocator with
        freeExtents := takeFromExtent (before ++ extent :: after) before.length pageCount
        allocatedPages }) :
    Tidy allocator' ∧ allocator'.marked = allocator.marked ∧
      (pageRange extent.start pageCount).points ⊆ allocator.free ∧
      allocator'.free = allocator.free \ (pageRange extent.start pageCount).points := by
  subst isNext
  have small := tidy.extentsOk.bounded extent (by simp [same])
  have product : pageCount * pageSize ≤ extent.interval.length := Nat.mul_le_mul_right _ enough
  have intervals : (takeFromExtent (before ++ extent :: after) before.length pageCount).map
      FreeExtent.interval = _ := takeFromExtent_eq enough small
  have separated := tidy.separated
  have isFree : (pageRange extent.start pageCount).points ⊆ allocator.free := by
    have front : (pageRange extent.start pageCount).points ⊆ extent.interval.points := by
      intro address
      simp only [Interval.mem_points, Interval.stop, pageRange, FreeExtent.interval] at product ⊢
      omega
    exact front.trans (points_subset_cover (List.mem_map_of_mem (by simp [same])))
  rw [same, List.map_append, List.map_cons] at separated
  have left : cover ((takeFromExtent (before ++ extent :: after) before.length pageCount).map
      FreeExtent.interval) = allocator.free \ (pageRange extent.start pageCount).points := by
    rw [intervals, cover_carve separated product, PhysicalPageAllocator.free, same, List.map_append]
    rfl
  refine ⟨⟨tidy.bounded, tidy.marks, ?_, ?_⟩, rfl, isFree, left⟩
  · rw [intervals]
    exact separated.carve _
  · exact left.trans_subset (Finset.sdiff_subset.trans tidy.below)

theorem moveMark {before after : List RegionCursor} {region : RegionCursor}
    (same : allocator.regions = before ++ region :: after)
    (enough : pageCount ≤ region.remainingPages) {allocatedPages : Nat} (isNext : allocator' =
      { allocator with
        regions := before ++
          { region with nextPage := saturatingAdd region.nextPage pageCount } :: after
        allocatedPages }) :
    Tidy allocator' ∧ allocator'.free = allocator.free ∧
      allocator'.marked = (pageRange region.mark pageCount).points ∪ allocator.marked := by
  subst isNext
  have isRegion : region ∈ allocator.regions := by simp [same]
  have mark := tidy.marks region isRegion
  have bounded := tidy.bounded region isRegion
  have last := lastPage_lt_size
  have address := mark_eq mark bounded
  obtain ⟨room, next⟩ := nextPage_room mark bounded enough
  rw [next]
  have marked : cover ((before ++ { region with nextPage := region.nextPage + pageCount } ::
      after).map RegionCursor.used) =
      (pageRange region.mark pageCount).points ∪ allocator.marked := by
    have grown : ({ region with nextPage := region.nextPage + pageCount } : RegionCursor).used.points =
        region.used.points ∪ (pageRange region.mark pageCount).points := by
      rw [← points_of_touch address.symm]
      simp only [RegionCursor.used, pageRange, Nat.add_mul]
    rw [PhysicalPageAllocator.marked, same]
    simp only [List.map_append, List.map_cons, cover_append, cover_cons, grown]
    ext x
    simp only [Finset.mem_union]
    tauto
  have regions (property : RegionCursor → Prop)
      (all : ∀ region ∈ allocator.regions, property region)
      (moved : property { region with nextPage := region.nextPage + pageCount }) :
      ∀ region' ∈ before ++ { region with nextPage := region.nextPage + pageCount } :: after,
        property region' := by
    intro region' mem
    obtain mem | mem := List.mem_append.mp mem
    · exact all region' (by simp [same, mem])
    obtain rfl | mem := List.mem_cons.mp mem
    · exact moved
    · exact all region' (by simp [same, mem])
  refine ⟨⟨regions _ tidy.bounded bounded, regions _ tidy.marks room, tidy.separated, ?_⟩, rfl,
    marked⟩
  change allocator.free ⊆ cover _
  rw [marked]
  exact tidy.below.trans Finset.subset_union_right

theorem takeBack {extents : List FreeExtent} (taken : TakenBack allocator start pageCount extents)
    (allocatedPages : Nat) :
    Tidy { allocator with freeExtents := extents, allocatedPages } ∧
      (pageRange start pageCount).points ⊆ allocator.marked \ allocator.free ∧
      extents.map FreeExtent.interval =
        join (pageRange start pageCount) (allocator.freeExtents.map FreeExtent.interval) := by
  obtain ⟨region, isRegion, starts, ends⟩ := taken.inRegion
  rw [mark_eq (tidy.marks region isRegion) (tidy.bounded region isRegion)] at ends
  have room : 0 < (pageRange start pageCount).length := Nat.mul_pos taken.nonempty (by decide)
  have isMarked : (pageRange start pageCount).points ⊆ allocator.marked := by
    have inUsed : (pageRange start pageCount).points ⊆ region.used.points := by
      intro address
      simp only [Interval.mem_points, Interval.stop, RegionCursor.used, pageRange] at ends ⊢
      omega
    exact inUsed.trans (points_subset_cover (List.mem_map_of_mem isRegion))
  have apart : Disjoint (pageRange start pageCount).points allocator.free := by
    refine disjoint_cover.mpr (List.forall_mem_map.mpr fun extent mem => ?_)
    have positive := tidy.separated.nonempty _ (List.mem_map_of_mem mem)
    rw [Interval.disjoint_points room positive]
    have outside := taken.outside extent mem
    rw [FreeExtent.stop_eq (tidy.extentsOk.bounded extent mem)] at outside
    have first : extent.interval.start = extent.start := rfl
    have second : (pageRange start pageCount).start = start := rfl
    have third : (pageRange start pageCount).stop = start + pageCount * pageSize := rfl
    omega
  have joined := insertFreeExtent_spec tidy.extentsOk taken.nonempty rfl taken.small apart
    taken.inserted
  refine ⟨⟨tidy.bounded, tidy.marks, ?_, ?_⟩, Finset.subset_sdiff.mpr ⟨isMarked, apart⟩, joined⟩
  · rw [joined]
    exact tidy.separated.join room apart
  · change cover _ ⊆ allocator.marked
    rw [joined, cover_join]
    exact Finset.union_subset isMarked tidy.below

end

end Tidy

/-- The counters cannot saturate. -/
theorem sum_pages_lt {regions : List RegionCursor} {pages : RegionCursor → Nat}
    (areas : AreasOk bootInfo (regions.map RegionCursor.area))
    (few : ∀ region ∈ regions, pages region ≤ region.pageCount) :
    (regions.map pages).sum < size := by
  have each : ∀ count ∈ regions.map pages, count ≤ 2 ^ 52 := by
    refine List.forall_mem_map.mpr fun region mem => ?_
    have mark := few region mem
    have bounded := areas.bounded _ (List.mem_map_of_mem mem)
    simp only [Interval.stop, RegionCursor.area, size, pageSize] at bounded
    omega
  have fit := areas.fit
  have sum : _ ≤ (regions.map pages).length * 2 ^ 52 := List.sum_le_card_nsmul _ _ each
  simp only [List.length_map, maxAllocatorRegions, maxMemoryRegions, maxReservedMemoryRanges]
    at fit sum
  simp only [size]
  omega

namespace Consistent

variable (h : Consistent bootInfo allocator live)

include h

theorem bounded (mem : region ∈ allocator.regions) :
    region.area.stop ≤ size - pageSize :=
  h.areas.bounded _ (List.mem_map_of_mem mem)

theorem tidy : Tidy allocator :=
  ⟨fun _ => h.bounded, h.marks, h.separated, h.below⟩

theorem extentsOk : ExtentsOk allocator.freeExtents :=
  h.tidy.extentsOk

theorem inUse_disjoint (inside : points ⊆ allocator.free) :
    ∀ range ∈ live, Disjoint points range.points := by
  intro range mem
  refine Finset.disjoint_left.mpr fun address isFree isLive => ?_
  have inUse := points_subset_cover mem isLive
  rw [h.inUse, Finset.mem_sdiff] at inUse
  exact inUse.2 (inside isFree)

end Consistent

theorem union_sdiff_eq {range free marked : Finset Nat} (isFree : range ⊆ free)
    (below : free ⊆ marked) : range ∪ marked \ free = marked \ (free \ range) := by
  ext address
  have first := @isFree address
  have second := @below address
  simp only [Finset.mem_union, Finset.mem_sdiff]
  tauto

section

variable (h : Consistent bootInfo allocator live)

include h

theorem Consistent.takeExtent {before after : List FreeExtent} {extent : FreeExtent}
    (same : allocator.freeExtents = before ++ extent :: after) (nonempty : 0 < pageCount)
    (enough : pageCount ≤ extent.pageCount) :
    Consistent bootInfo
      { allocator with
        freeExtents := takeFromExtent (before ++ extent :: after) before.length pageCount
        allocatedPages := saturatingAdd allocator.allocatedPages pageCount }
      (pageRange extent.start pageCount :: live) := by
  obtain ⟨tidy, -, isFree, left⟩ := h.tidy.takeExtent same enough rfl
  have product : pageCount * pageSize ≤ extent.interval.length := Nat.mul_le_mul_right _ enough
  have intervals : (takeFromExtent (before ++ extent :: after) before.length pageCount).map
      FreeExtent.interval = _ :=
    takeFromExtent_eq enough (h.extentsOk.bounded extent (by simp [same]))
  have aligned := h.extentsAligned
  rw [same, List.map_append, List.map_cons] at aligned
  have pages : freePages (takeFromExtent (before ++ extent :: after) before.length pageCount) +
      pageCount = freePages allocator.freeExtents := by
    refine Nat.eq_of_mul_eq_mul_right (show 0 < pageSize by decide) ?_
    rw [Nat.add_mul, ← total_intervals, ← total_intervals, intervals, same, List.map_append,
      List.map_cons]
    exact total_carve product
  have balance := h.balance
  have small : allocator.markedPages < size := sum_pages_lt h.areas h.marks
  refine ⟨h.ready, h.areas, h.marks, tidy.separated, ?_, tidy.below, ?_, ?_, ?_, ?_⟩
  · rw [intervals]
    intro interval mem
    simp only [List.mem_append] at mem
    obtain (mem | mem) | mem := mem
    · exact aligned interval (by simp [mem])
    · rw [start_of_mem_rest mem, Nat.add_mod, Nat.mul_mod_left, aligned extent.interval (by simp)]
      rfl
    · exact aligned interval (by simp [mem])
  · rw [cover_cons, h.inUse, left]
    exact union_sdiff_eq isFree h.below
  · exact List.pairwise_cons.mpr ⟨h.inUse_disjoint isFree, h.disjoint⟩
  · refine List.forall_mem_cons.mpr ⟨⟨?_, ?_, ?_⟩, h.whole⟩
    · exact aligned extent.interval (by simp)
    · exact Nat.mul_mod_left _ _
    · exact Nat.mul_pos nonempty (by decide)
  · change allocator.markedPages = saturatingAdd allocator.allocatedPages pageCount +
      freePages (takeFromExtent (before ++ extent :: after) before.length pageCount)
    rw [saturatingAdd_of_lt (by omega)]
    omega

theorem Consistent.disjoint_marked {before after : List RegionCursor} {region : RegionCursor}
    (same : allocator.regions = before ++ region :: after) {range : Interval}
    (starts : region.used.stop ≤ range.start) (ends : range.stop ≤ region.area.stop) :
    Disjoint range.points allocator.marked := by
  have inArea : range.points ⊆ region.area.points := by
    intro address
    simp only [Interval.mem_points, Interval.stop, RegionCursor.used, RegionCursor.area] at starts ends ⊢
    omega
  have pairwise := h.areas.disjoint
  rw [same, List.map_append, List.map_cons, List.pairwise_append, List.pairwise_cons] at pairwise
  obtain ⟨-, ⟨behind, -⟩, ahead⟩ := pairwise
  have other {region' : RegionCursor} (isRegion : region' ∈ allocator.regions)
      (apart : Disjoint region.area.points region'.area.points) :
      Disjoint range.points region'.used.points :=
    (apart.mono_left inArea).mono_right (used_subset_area (h.marks region' isRegion))
  refine disjoint_cover.mpr (List.forall_mem_map.mpr fun region' isRegion => ?_)
  have isRegion' := isRegion
  rw [same, List.mem_append, List.mem_cons] at isRegion
  obtain isBefore | rfl | isAfter := isRegion
  · exact other isRegion' (ahead _ (List.mem_map_of_mem isBefore) _ (by simp)).symm
  · refine Finset.disjoint_left.mpr fun address => ?_
    simp only [Interval.mem_points]
    omega
  · exact other isRegion' (behind _ (List.mem_map_of_mem isAfter))

theorem Consistent.moveMark {before after : List RegionCursor} {region : RegionCursor}
    (same : allocator.regions = before ++ region :: after) (nonempty : 0 < pageCount)
    (enough : pageCount ≤ region.remainingPages) :
    Consistent bootInfo
      { allocator with
        regions := before ++
          { region with nextPage := saturatingAdd region.nextPage pageCount } :: after
        allocatedPages := saturatingAdd allocator.allocatedPages pageCount }
      (pageRange region.mark pageCount :: live) := by
  obtain ⟨tidy, -, marked⟩ := h.tidy.moveMark same enough rfl
  have isRegion : region ∈ allocator.regions := by simp [same]
  have mark := h.marks region isRegion
  have bounded := h.bounded isRegion
  have address := mark_eq mark bounded
  have last := lastPage_lt_size
  obtain ⟨room, next⟩ := nextPage_room mark bounded enough
  have ends : (pageRange region.mark pageCount).stop ≤ region.area.stop := by
    have product := Nat.mul_le_mul_right pageSize room
    rw [Nat.add_mul] at product
    simp only [address, Interval.stop, pageRange, RegionCursor.used, RegionCursor.area]
    omega
  have new := h.disjoint_marked same address.ge ends
  have areas : AreasOk bootInfo ((before ++ { region with
      nextPage := saturatingAdd region.nextPage pageCount } :: after).map RegionCursor.area) := by
    have areas := h.areas
    rw [same, List.map_append, List.map_cons] at areas
    rwa [List.map_append, List.map_cons]
  have pages : ((before ++ { region with
      nextPage := saturatingAdd region.nextPage pageCount } :: after).map
        RegionCursor.nextPage).sum = allocator.markedPages + pageCount := by
    simp only [PhysicalPageAllocator.markedPages, same, List.map_append, List.map_cons,
      List.sum_append, List.sum_cons, next]
    omega
  have small := sum_pages_lt areas tidy.marks
  have balance := h.balance
  rw [pages] at small
  refine ⟨h.ready, areas, tidy.marks, h.separated, h.extentsAligned, tidy.below, ?_, ?_, ?_, ?_⟩
  · rw [cover_cons, h.inUse, marked]
    change _ = _ \ allocator.free
    rw [Finset.union_sdiff_distrib, Finset.sdiff_eq_self_of_disjoint (new.mono_right h.below)]
  · refine List.pairwise_cons.mpr ⟨fun range mem => new.mono_right ?_, h.disjoint⟩
    exact (points_subset_cover mem).trans (h.inUse ▸ Finset.sdiff_subset)
  · refine List.forall_mem_cons.mpr ⟨⟨?_, ?_, ?_⟩, h.whole⟩
    · have aligned := h.areas.aligned _ (List.mem_map_of_mem isRegion)
      simp only [RegionCursor.area] at aligned
      simp only [pageRange, address, Interval.stop, RegionCursor.used]
      rw [Nat.add_mul_mod_self_right, aligned]
    · exact Nat.mul_mod_left _ _
    · exact Nat.mul_pos nonempty (by decide)
  · change List.sum _ = saturatingAdd allocator.allocatedPages pageCount +
      freePages allocator.freeExtents
    rw [pages, saturatingAdd_of_lt (by omega)]
    omega

theorem Consistent.takeBack (taken : TakenBack allocator start pageCount extents) :
    (pageRange start pageCount).points ⊆ cover live ∧
      cover (extents.map FreeExtent.interval) =
        (pageRange start pageCount).points ∪ allocator.free ∧
      Consistent bootInfo
        { allocator with
          freeExtents := extents
          allocatedPages := allocator.allocatedPages - pageCount }
        (without live (pageRange start pageCount)) := by
  obtain ⟨tidy, inUse, joined⟩ := h.tidy.takeBack taken (allocator.allocatedPages - pageCount)
  have free : cover (extents.map FreeExtent.interval) =
      (pageRange start pageCount).points ∪ allocator.free := by
    rw [joined, cover_join]
    rfl
  have pages : freePages extents = pageCount + freePages allocator.freeExtents := by
    refine Nat.eq_of_mul_eq_mul_right (show 0 < pageSize by decide) ?_
    rw [Nat.add_mul, ← total_intervals, ← total_intervals, joined, total_join]
    rfl
  have counted := taken.counted
  have balance := h.balance
  rw [← h.inUse] at inUse
  refine ⟨inUse, free, h.ready, h.areas, h.marks, tidy.separated, ?_, tidy.below, ?_, ?_, ?_, ?_⟩
  · rw [joined]
    intro interval mem
    obtain start | ⟨interval', mem, start⟩ := start_of_mem_join mem
    · exact start ▸ taken.aligned
    · exact start ▸ h.extentsAligned interval' mem
  · rw [cover_without, h.inUse]
    change _ = allocator.marked \ cover _
    rw [free, Finset.union_comm, sdiff_sdiff_left, Finset.sup_eq_union]
  · exact pairwise_without h.disjoint
  · intro range mem
    obtain ⟨range', isLive, isPart⟩ := List.mem_flatMap.mp mem
    have before := h.whole range' isLive
    have ends := ends_of_mem_minus isPart
    have aligned := taken.aligned
    refine ⟨?_, ?_, (of_mem_minus isPart).1⟩
    all_goals
      simp only [Interval.stop, pageRange, pageSize] at before ends aligned ⊢
      omega
  · change allocator.markedPages = allocator.allocatedPages - pageCount + freePages extents
    omega

end

theorem Consistent.init (disjoint : DisjointRegions bootInfo) :
    Consistent bootInfo (.init bootInfo) [] := by
  obtain ⟨ready, none, noExtents, unmarked⟩ := init_fresh bootInfo
  have marked : (PhysicalPageAllocator.init bootInfo).marked = ∅ := by
    refine Finset.eq_empty_of_forall_notMem fun address mem => ?_
    obtain ⟨region, isRegion, inside⟩ := mem_marked.mp mem
    simp only [Interval.mem_points, Interval.stop, RegionCursor.used, unmarked region isRegion] at inside
    omega
  have noPages : (PhysicalPageAllocator.init bootInfo).markedPages = 0 :=
    List.sum_eq_zero_iff.mpr (List.forall_mem_map.mpr unmarked)
  refine ⟨ready, init_areasOk disjoint, ?_, ?_, ?_, ?_, ?_, .nil, nofun, ?_⟩
  · intro region mem
    rw [unmarked region mem]
    exact Nat.zero_le _
  · rw [noExtents]
    exact separated_nil
  · rw [noExtents]
    exact nofun
  · rw [PhysicalPageAllocator.free, noExtents]
    exact Finset.empty_subset _
  · rw [marked, Finset.empty_sdiff]
    rfl
  · rw [noPages, none, noExtents]
    rfl

/-- What holds after `init` and is kept by the three ways to change the tables holds in every run. -/
theorem Reachable.rule {P : PhysicalPageAllocator → List Interval → Prop}
    (run : Reachable bootInfo allocator live) (fresh : P (.init bootInfo) [])
    (extent : ∀ {allocator live pageCount before extent after}, P allocator live → 0 < pageCount →
      allocator.freeExtents = before ++ extent :: after → pageCount ≤ extent.pageCount →
      P { allocator with
          freeExtents := takeFromExtent (before ++ extent :: after) before.length pageCount
          allocatedPages := saturatingAdd allocator.allocatedPages pageCount }
        (pageRange extent.start pageCount :: live))
    (mark : ∀ {allocator live pageCount before region after}, P allocator live → 0 < pageCount →
      allocator.regions = before ++ region :: after → pageCount ≤ region.remainingPages →
      P { allocator with
          regions := before ++
            { region with nextPage := saturatingAdd region.nextPage pageCount } :: after
          allocatedPages := saturatingAdd allocator.allocatedPages pageCount }
        (pageRange region.mark pageCount :: live))
    (back : ∀ {allocator live start pageCount extents}, P allocator live →
      TakenBack allocator start pageCount extents →
      P { allocator with
          freeExtents := extents
          allocatedPages := allocator.allocatedPages - pageCount }
        (without live (pageRange start pageCount))) :
    P allocator live := by
  induction run with
  | init => exact fresh
  | allocated run step ih =>
    obtain ⟨impossible, -⟩ | ⟨_, _, _, same, nonempty, enough, address, rfl⟩ |
      ⟨_, _, _, same, nonempty, -, enough, address, rfl⟩ := allocate_cases step
    · cases impossible
    · cases address
      exact extent ih nonempty same enough
    · cases address
      exact mark ih nonempty same enough
  | exhausted run step ih =>
    obtain ⟨-, rfl⟩ | ⟨_, _, _, _, _, _, impossible, _⟩ | ⟨_, _, _, _, _, _, _, impossible, _⟩ :=
      allocate_cases step
    · exact ih
    · cases impossible
    · cases impossible
  | freed run step ih =>
    obtain ⟨impossible, -⟩ | ⟨-, extents, taken, rfl⟩ := deallocate_cases step
    · cases impossible
    · exact back ih taken
  | refused run step ih =>
    obtain ⟨-, rfl⟩ | ⟨impossible, -⟩ := deallocate_cases step
    · exact ih
    · cases impossible

theorem Reachable.consistent (disjoint : DisjointRegions bootInfo)
    (run : Reachable bootInfo allocator live) : Consistent bootInfo allocator live :=
  run.rule (.init disjoint) (fun h nonempty same enough => h.takeExtent same nonempty enough)
    (fun h nonempty same enough => h.moveMark same nonempty enough)
    fun h taken => (h.takeBack taken).2.2

/-- What the users of the allocator rely on. -/
structure Safe (bootInfo : BootInfo) (allocator : PhysicalPageAllocator) (live : List Interval) :
    Prop where
  disjoint : live.Pairwise fun range range' => Disjoint range.points range'.points
  usable : ∀ range ∈ live, ∀ address ∈ range.points, Usable bootInfo address
  unreserved : ∀ range ∈ live, ∀ address ∈ range.points, ¬Reserved bootInfo address
  nonempty : ∀ extent ∈ allocator.freeExtents, 0 < extent.pageCount
  apart : allocator.freeExtents.Pairwise fun extent extent' => extent.stop < extent'.start
  below : ∀ extent ∈ allocator.freeExtents, ∀ address ∈ extent.interval.points,
    ∃ region ∈ allocator.regions, region.start ≤ address ∧ address < region.mark
  balance : (allocator.regions.map RegionCursor.nextPage).sum =
    allocator.allocatedPages + (allocator.freeExtents.map FreeExtent.pageCount).sum

theorem Consistent.safe (h : Consistent bootInfo allocator live) : Safe bootInfo allocator live := by
  have inArea {range : Interval} (isLive : range ∈ live) {address : Nat}
      (inside : address ∈ range.points) :
      ∃ area ∈ allocator.regions.map RegionCursor.area, address ∈ area.points := by
    have isMarked := points_subset_cover isLive inside
    rw [h.inUse] at isMarked
    obtain ⟨region, isRegion, inUsed⟩ := mem_marked.mp (Finset.sdiff_subset isMarked)
    exact ⟨region.area, List.mem_map_of_mem isRegion,
      used_subset_area (h.marks region isRegion) inUsed⟩
  refine ⟨h.disjoint, ?_, ?_, ?_, ?_, ?_, h.balance⟩
  · intro range isLive address inside
    obtain ⟨area, isArea, inside⟩ := inArea isLive inside
    exact h.areas.usable area isArea address inside
  · intro range isLive address inside
    obtain ⟨area, isArea, inside⟩ := inArea isLive inside
    exact h.areas.unreserved area isArea address inside
  · intro extent mem
    exact Nat.pos_of_mul_pos_right (h.separated.nonempty _ (List.mem_map_of_mem mem))
  · refine (List.pairwise_map.mp h.separated.apart).imp_of_mem fun {extent extent'} mem _ less => ?_
    rwa [FreeExtent.stop_eq (h.extentsOk.bounded extent mem)]
  · intro extent mem address inside
    obtain ⟨region, isRegion, inUsed⟩ :=
      mem_marked.mp (h.below (points_subset_cover (List.mem_map_of_mem mem) inside))
    rw [Interval.mem_points] at inUsed
    refine ⟨region, isRegion, inUsed.1, ?_⟩
    rw [mark_eq (h.marks region isRegion) (h.bounded isRegion)]
    exact inUsed.2

/-- In every run the ranges in use and the free extents are as they should be, and a call that
    gives pages back frees exactly these, if they are in use, or changes nothing. -/
theorem allocator_safe (disjoint : DisjointRegions bootInfo)
    (run : Reachable bootInfo allocator live) :
    Safe bootInfo allocator live ∧
      ∀ start pageCount,
        match allocator.deallocateContiguousPages start pageCount with
        | (true, allocator') =>
          (pageRange start pageCount).points ⊆ cover live ∧
            allocator'.free = (pageRange start pageCount).points ∪ allocator.free
        | (false, allocator') => allocator' = allocator := by
  have consistent := run.consistent disjoint
  refine ⟨consistent.safe, fun start pageCount => ?_⟩
  rcases step : allocator.deallocateContiguousPages start pageCount with ⟨result, allocator'⟩
  obtain ⟨rfl, same⟩ | ⟨rfl, extents, taken, rfl⟩ := deallocate_cases step
  · exact same
  · obtain ⟨inUse, free, -⟩ := consistent.takeBack taken
    exact ⟨inUse, free⟩

/-- Sixteen pages of usable memory, the second of which is reserved. -/
def sampleBootInfo : BootInfo where
  firmwareMode := .postExitBootServices
  memoryRegions := [{ start := 0x100000, pageCount := 16, kind := .conventional }]
  reservedMemory := [{ start := 0x101800, length := 8, kind := .kernelHeap }]
  regionsFit := by decide
  rangesFit := by decide

/-- Four pages do not fit before the reserved one. -/
theorem allocator_safe_behind_reserved :
    ∃ allocator, Reachable sampleBootInfo allocator [pageRange 0x102000 4] ∧
      Safe sampleBootInfo allocator [pageRange 0x102000 4] := by
  have address : ((PhysicalPageAllocator.init sampleBootInfo).allocateContiguousPages 4).1 =
      some 0x102000 := by
    decide +kernel
  obtain ⟨allocator, step⟩ : ∃ allocator,
      (PhysicalPageAllocator.init sampleBootInfo).allocateContiguousPages 4 =
        (some 0x102000, allocator) :=
    ⟨_, by rw [← address]⟩
  have run : Reachable sampleBootInfo allocator [pageRange 0x102000 4] := .allocated .init step
  have disjoint : DisjointRegions sampleBootInfo := List.pairwise_singleton _ _
  exact ⟨allocator, run, (allocator_safe disjoint run).1⟩

end

end CodexOS.Memory
