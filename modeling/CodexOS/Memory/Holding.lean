import CodexOS.Memory.GiveBack

/-! # Pages in one hand

What the allocator has handed out, seen by a user who takes single pages and gives
them back: everything else in use stays as it was. Taking a page adds one to those
the user has, and giving a page back succeeds unless the table of free extents is
full.
-/

namespace CodexOS.Memory

open Word64 Intervals

/-- Everything that is handed out. -/
def PhysicalPageAllocator.inUse (allocator : PhysicalPageAllocator) : Finset Nat :=
  allocator.marked \ allocator.free

/-- The addresses in some pages. -/
def pagesCover (pages : List Nat) : Finset Nat :=
  cover (pages.map (pageRange · 1))

/-- The pages are handed out, one by one, besides a part `base` of memory. -/
structure Held (bootInfo : BootInfo) (base : Finset Nat) (allocator : PhysicalPageAllocator)
    (pages : List Nat) : Prop where
  ranges : ∃ live, Reachable bootInfo allocator live ∧ cover live = base ∪ pagesCover pages ∧
    ∀ page ∈ pages, pageRange page 1 ∈ live
  apart : Disjoint base (pagesCover pages)
  distinct : pages.Nodup

section

variable {bootInfo : BootInfo} {allocator allocator' : PhysicalPageAllocator} {base : Finset Nat}
  {pages : List Nat} {page : Nat}

theorem pagesCover_cons (page : Nat) (pages : List Nat) :
    pagesCover (page :: pages) = (pageRange page 1).points ∪ pagesCover pages :=
  rfl

theorem mem_pageRange :
    address ∈ (pageRange page 1).points ↔ page ≤ address ∧ address < page + pageSize := by
  rw [Interval.mem_points, Interval.stop, pageRange, Nat.one_mul]

theorem self_mem_pageRange : page ∈ (pageRange page 1).points :=
  mem_pageRange.mpr ⟨Nat.le_refl _, Nat.lt_add_of_pos_right (by decide)⟩

theorem held_nil (run : Reachable bootInfo allocator live) :
    Held bootInfo (cover live) allocator [] where
  ranges := ⟨live, run, by simp [pagesCover], nofun⟩
  apart := Finset.disjoint_empty_right _
  distinct := .nil

section

variable (disjoint : DisjointRegions bootInfo) (held : Held bootInfo base allocator pages)

include disjoint held

theorem Held.inUse_eq : allocator.inUse = base ∪ pagesCover pages := by
  obtain ⟨live, run, covered, -⟩ := held.ranges
  rw [PhysicalPageAllocator.inUse, ← (run.consistent disjoint).inUse, covered]

theorem Held.usable (mem : page ∈ pages) : Usable bootInfo page ∧ page % pageSize = 0 := by
  obtain ⟨live, run, -, isLive⟩ := held.ranges
  have h := run.consistent disjoint
  refine ⟨h.safe.usable _ (isLive page mem) page ?_, (h.whole _ (isLive page mem)).1⟩
  rw [mem_pageRange]
  exact ⟨Nat.le_refl _, Nat.lt_add_of_pos_right (by decide)⟩

theorem Held.take (step : allocator.allocatePage = (some page, allocator')) :
    Held bootInfo base allocator' (page :: pages) := by
  obtain ⟨live, run, covered, isLive⟩ := held.ranges
  have run' : Reachable bootInfo allocator' (pageRange page 1 :: live) := .allocated run step
  have h := run'.consistent disjoint
  have new : Disjoint (pageRange page 1).points (cover live) :=
    disjoint_cover.mpr (List.pairwise_cons.mp h.disjoint).1
  have nonempty : page ∈ (pageRange page 1).points := by
    rw [mem_pageRange]
    exact ⟨Nat.le_refl _, Nat.lt_add_of_pos_right (by decide)⟩
  constructor
  · refine ⟨_, run', ?_, List.forall_mem_cons.mpr ⟨List.mem_cons_self, ?_⟩⟩
    · rw [cover_cons, covered, pagesCover_cons, Finset.union_left_comm]
    · exact fun page mem => List.mem_cons_of_mem _ (isLive page mem)
  · rw [covered, Finset.disjoint_union_right] at new
    rw [pagesCover_cons, Finset.disjoint_union_right]
    exact ⟨new.1.symm, held.apart⟩
  · refine List.nodup_cons.mpr ⟨fun mem => ?_, held.distinct⟩
    exact Finset.disjoint_left.mp new nonempty (points_subset_cover (isLive page mem) nonempty)

end

theorem Held.exhausted (held : Held bootInfo base allocator pages)
    (step : allocator.allocatePage = (none, allocator')) :
    Held bootInfo base allocator' pages := by
  obtain ⟨live, run, covered, isLive⟩ := held.ranges
  exact ⟨⟨live, .exhausted run step, covered, isLive⟩, held.apart, held.distinct⟩

theorem Consistent.page_region (h : Consistent bootInfo allocator live)
    (isLive : pageRange page 1 ∈ live) :
    ∃ region ∈ allocator.regions,
      region.start ≤ page ∧ page + 1 * pageSize ≤ region.start + region.pageCount * pageSize := by
  have first := @self_mem_pageRange page
  have isMarked := points_subset_cover isLive first
  rw [h.inUse] at isMarked
  obtain ⟨region, isRegion, inUsed⟩ := mem_marked.mp (Finset.sdiff_subset isMarked)
  have aligned : region.start % pageSize = 0 :=
    h.areas.aligned region.area (List.mem_map_of_mem isRegion)
  have aligned' : page % pageSize = 0 := (h.whole _ isLive).1
  have mark := Nat.mul_le_mul_right pageSize (h.marks region isRegion)
  rw [Interval.mem_points, Interval.stop, RegionCursor.used] at inUsed
  dsimp only at inUsed
  refine ⟨region, isRegion, inUsed.1, ?_⟩
  unfold pageSize at *
  omega

theorem Held.giveBack (disjoint : DisjointRegions bootInfo)
    (held : Held bootInfo base allocator (page :: pages))
    (room : allocator.freeExtents.length < maxFreeExtents) :
    (allocator.deallocatePage page).1 = true ∧
      Held bootInfo base (allocator.deallocatePage page).2 pages := by
  obtain ⟨live, run, covered, isLive⟩ := held.ranges
  obtain ⟨isPage, others⟩ := List.forall_mem_cons.mp isLive
  obtain ⟨new, distinct⟩ := List.nodup_cons.mp held.distinct
  have h := run.consistent disjoint
  obtain ⟨region, isRegion, starts, ends⟩ := h.page_region isPage
  obtain ⟨extents, taken⟩ := h.giveBack room isPage isRegion starts ends
  have step : allocator.deallocatePage page = (true, _) := deallocate_of_takenBack h.ready taken
  have apartFrom (other : Nat) (mem : other ∈ pages) :
      Disjoint (pageRange other 1).points (pageRange page 1).points := by
    have aligned := (h.whole _ (others other mem)).1
    have aligned' := (h.whole _ isPage).1
    have different : other ≠ page := by
      rintro rfl
      exact new mem
    simp only [pageRange] at aligned aligned'
    rw [Finset.disjoint_left]
    intro address inside inside'
    rw [mem_pageRange] at inside inside'
    unfold pageSize at *
    omega
  have apart : Disjoint (base ∪ pagesCover pages) (pageRange page 1).points := by
    have fromBase := held.apart
    rw [pagesCover_cons, Finset.disjoint_union_right] at fromBase
    rw [Finset.disjoint_union_left]
    refine ⟨fromBase.1, (disjoint_cover.mpr fun range mem => ?_).symm⟩
    obtain ⟨other, isOther, rfl⟩ := List.mem_map.mp mem
    exact (apartFrom other isOther).symm
  rw [step]
  refine ⟨rfl, ⟨without live (pageRange page 1), .freed run step, ?_, fun other mem => ?_⟩, ?_, distinct⟩
  · rw [cover_without, covered, pagesCover_cons, Finset.union_left_comm,
      Finset.union_sdiff_cancel_left apart.symm]
  · exact mem_without_of_disjoint (others other mem) (h.whole _ (others other mem)).2.2
      (h.whole _ isPage).2.2 (apartFrom other mem)
  · have fromBase := held.apart
    rw [pagesCover_cons, Finset.disjoint_union_right] at fromBase
    exact fromBase.2

end

end CodexOS.Memory
