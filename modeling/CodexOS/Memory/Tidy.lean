import CodexOS.Memory.Holding

/-! # The tables without a sound memory map

A memory map may list an address more than once, and then the same page can be handed
out twice. What the tables still keep, whatever the map says, is that the free extents
are apart and were handed out before. A single page that is handed out is in use until
it comes back.
-/

namespace CodexOS.Memory

open Word64 Intervals

section

variable {bootInfo : BootInfo} {allocator allocator' : PhysicalPageAllocator} {live : List Interval}
  {pageCount : Nat}

theorem init_bounded (bootInfo : BootInfo) :
    ∀ region ∈ (PhysicalPageAllocator.init bootInfo).regions, region.area.stop ≤ size - pageSize := by
  obtain ⟨kept, sub, regions⟩ := (init_grown bootInfo).regions
  intro region mem
  rw [regions] at mem
  obtain ⟨listed, -, candidate⟩ := List.mem_flatMap.mp (sub.subset mem)
  exact (of_mem_candidateRegions candidate).2.2.1

namespace Tidy

theorem init (bootInfo : BootInfo) : Tidy (.init bootInfo) := by
  obtain ⟨-, -, noExtents, unmarked⟩ := init_fresh bootInfo
  refine ⟨init_bounded bootInfo, fun region mem => ?_, ?_, ?_⟩
  · rw [unmarked region mem]
    exact Nat.zero_le _
  · rw [noExtents]
    exact separated_nil
  · rw [PhysicalPageAllocator.free, noExtents]
    exact Finset.empty_subset _

end Tidy

theorem Reachable.tidy (run : Reachable bootInfo allocator live) : Tidy allocator :=
  @Reachable.rule _ _ _ (fun allocator _ => Tidy allocator) run (.init bootInfo)
    (fun tidy _ same enough => (tidy.takeExtent same enough rfl).1)
    (fun tidy _ same enough => (tidy.moveMark same enough rfl).1)
    fun tidy taken => (tidy.takeBack taken _).1

namespace Tidy

theorem allocatePage (tidy : Tidy allocator)
    (step : allocator.allocatePage = (some page, allocator')) :
    Tidy allocator' ∧ allocator.inUse ⊆ allocator'.inUse ∧
      (pageRange page 1).points ⊆ allocator'.inUse := by
  obtain ⟨impossible, -⟩ | ⟨before, extent, after, same, -, enough, isPage, next⟩ |
    ⟨before, region, after, same, -, short, enough, isPage, next⟩ := allocate_cases step
  · cases impossible
  · cases isPage
    obtain ⟨tidy', marked, isFree, free⟩ := tidy.takeExtent same enough next
    unfold PhysicalPageAllocator.inUse
    rw [marked, free]
    refine ⟨tidy', Finset.sdiff_subset_sdiff (Finset.Subset.refl _) Finset.sdiff_subset, ?_⟩
    intro address inPage
    exact Finset.mem_sdiff.mpr ⟨tidy.below (isFree inPage), fun stays =>
      (Finset.mem_sdiff.mp stays).2 inPage⟩
  · cases isPage
    obtain ⟨tidy', free, marked⟩ := tidy.moveMark same enough next
    -- an extent is never empty, so a region is asked for one page only if none is free
    have none : allocator.free = ∅ := by
      refine Finset.eq_empty_of_forall_notMem fun address isFree => ?_
      obtain ⟨interval, mem, -⟩ := mem_cover.mp isFree
      obtain ⟨extent, isExtent, rfl⟩ := List.mem_map.mp mem
      have nonempty := tidy.separated.nonempty _ mem
      have less := short extent isExtent
      simp only [FreeExtent.interval, pageSize] at nonempty
      omega
    unfold PhysicalPageAllocator.inUse
    rw [marked, free, none, Finset.sdiff_empty, Finset.sdiff_empty]
    exact ⟨tidy', Finset.subset_union_right, Finset.subset_union_left⟩

end Tidy

theorem takeFromRegions_none {regions : List RegionCursor} :
    takeFromRegions pageCount regions = none ↔
      ∀ region ∈ regions, region.remainingPages < pageCount := by
  induction regions with
  | nil => exact ⟨fun _ => nofun, fun _ => rfl⟩
  | cons region rest ih =>
    rw [takeFromRegions, List.forall_mem_cons]
    split
    · rename_i short
      rw [Option.map_eq_none_iff, ih]
      exact ⟨fun others => ⟨short, others⟩, And.right⟩
    · rename_i enough
      exact ⟨nofun, fun short => absurd short.1 enough⟩

/-- There is no page left. -/
def PhysicalPageAllocator.Exhausted (allocator : PhysicalPageAllocator) : Prop :=
  allocator.initialized = false ∨
    (∀ extent ∈ allocator.freeExtents, extent.pageCount = 0) ∧
      ∀ region ∈ allocator.regions, region.remainingPages = 0

theorem allocatePage_none : allocator.allocatePage.1 = none ↔ allocator.Exhausted := by
  unfold PhysicalPageAllocator.allocatePage PhysicalPageAllocator.allocateContiguousPages
    PhysicalPageAllocator.Exhausted
  cases allocator.initialized with
  | false => simp
  | true =>
    simp only [Nat.one_ne_zero, if_false, Bool.not_true, Bool.false_eq_true, Bool.true_eq_false,
      false_or]
    cases found : allocator.freeExtents.findIdx? fun extent => 1 ≤ extent.pageCount with
    | some index =>
      obtain ⟨before, extent, after, same, -, enough⟩ := of_findIdx_extent found
      refine ⟨nofun, fun empty => ?_⟩
      have zero := empty.1 extent (by simp [same])
      omega
    | none =>
      rw [List.findIdx?_eq_none_iff] at found
      have extents : ∀ extent ∈ allocator.freeExtents, extent.pageCount = 0 := by
        intro extent mem
        simpa using found extent mem
      have regions := @takeFromRegions_none 1 allocator.regions
      simp only [Nat.lt_one_iff] at regions
      rw [← regions]
      cases takeFromRegions 1 allocator.regions with
      | none => simpa using extents
      | some taken => simp

end

end CodexOS.Memory
