import CodexOS.Memory.Holding

/-! # Reserving what was handed out

A range that is entered in the boot information is covered from then on, by itself or
together with the range it was joined to, and nothing that was reserved before is lost.
So an allocator that starts with the new boot information gives out neither.
-/

namespace CodexOS.Memory

open Word64 Intervals

/-- One reserved range of this kind has all addresses from `low` to `high`. -/
def Covered (bootInfo : BootInfo) (kind : ReservedMemoryKind) (low high : Nat) : Prop :=
  ∃ range ∈ bootInfo.reservedMemory, range.kind = kind ∧ range.start.toNat ≤ low ∧
    high ≤ range.start.toNat + range.length.toNat

/-- The same memory with more of it reserved. -/
structure Reserves (bootInfo bootInfo' : BootInfo) : Prop where
  mode : bootInfo'.firmwareMode = bootInfo.firmwareMode
  regions : bootInfo'.memoryRegions = bootInfo.memoryRegions
  covered : ∀ {kind low high}, Covered bootInfo kind low high → Covered bootInfo' kind low high

theorem Reserves.refl (bootInfo : BootInfo) : Reserves bootInfo bootInfo where
  mode := rfl
  regions := rfl
  covered := id

section

variable {bootInfo bootInfo' bootInfo'' : BootInfo} {kind : ReservedMemoryKind}
  {start length : UInt64} {address : Nat}

theorem Reserves.trans (first : Reserves bootInfo bootInfo')
    (second : Reserves bootInfo' bootInfo'') : Reserves bootInfo bootInfo'' where
  mode := second.mode.trans first.mode
  regions := second.regions.trans first.regions
  covered := fun before => second.covered (first.covered before)

theorem reserved_iff_covered :
    Reserved bootInfo address ↔ ∃ kind, Covered bootInfo kind address (address + 1) := by
  constructor
  · rintro ⟨range, mem, low, high⟩
    exact ⟨range.kind, range, mem, rfl, low, high⟩
  · rintro ⟨kind, range, mem, -, low, high⟩
    exact ⟨range, mem, low, high⟩

theorem Reserves.reserved (reserves : Reserves bootInfo bootInfo')
    (before : Reserved bootInfo address) : Reserved bootInfo' address := by
  obtain ⟨kind, covered⟩ := reserved_iff_covered.mp before
  exact reserved_iff_covered.mpr ⟨kind, reserves.covered covered⟩

theorem Reserves.disjointRegions (reserves : Reserves bootInfo bootInfo')
    (disjoint : DisjointRegions bootInfo) : DisjointRegions bootInfo' := by
  unfold DisjointRegions
  rw [reserves.regions]
  exact disjoint

theorem toNat_grow (range : ReservedMemoryRange) (length : UInt64) :
    (range.grow length).length.toNat = saturatingAdd range.length.toNat length.toNat := by
  have small : saturatingAdd range.length.toNat length.toNat < 2 ^ 64 := by
    unfold saturatingAdd maxValue size
    omega
  exact UInt64.toNat_ofNat_of_lt' small

/-- A range keeps its start and its kind when it grows, and only gets longer. -/
theorem covered_modify {ranges : List ReservedMemoryRange} {index : Nat}
    {range : ReservedMemoryRange} (mem : range ∈ ranges) (length : UInt64) :
    ∃ range' ∈ ranges.modify index (·.grow length), range'.kind = range.kind ∧
      range'.start = range.start ∧ range.length.toNat ≤ range'.length.toNat := by
  obtain ⟨place, found⟩ := List.mem_iff_getElem?.mp mem
  have longer : range.length.toNat ≤ (range.grow length).length.toNat := by
    have small := range.length.toNat_lt
    rw [toNat_grow]
    unfold saturatingAdd maxValue size
    omega
  by_cases same : index = place
  · refine ⟨range.grow length, List.mem_of_getElem? (i := place) ?_, rfl, rfl, longer⟩
    rw [List.getElem?_modify, found, Option.map_eq_map, Option.map_some, if_pos same]
  · refine ⟨range, List.mem_of_getElem? (i := place) ?_, rfl, rfl, Nat.le_refl _⟩
    rw [List.getElem?_modify, found, Option.map_eq_map, Option.map_some, if_neg same]

/-- A range is joined to one of its kind that ends where it starts, or is a new one. -/
theorem of_reserveMemory (entered : bootInfo.reserveMemory start length kind = some bootInfo') :
    length.toNat ≠ 0 ∧ bootInfo'.firmwareMode = bootInfo.firmwareMode ∧
      bootInfo'.memoryRegions = bootInfo.memoryRegions ∧
      ((∃ index range, bootInfo.reservedMemory[index]? = some range ∧ range.kind = kind ∧
          range.stop = start.toNat ∧
          bootInfo'.reservedMemory = bootInfo.reservedMemory.modify index (·.grow length)) ∨
        bootInfo'.reservedMemory =
          bootInfo.reservedMemory ++ [{ start := start, length := length, kind := kind }]) := by
  unfold BootInfo.reserveMemory at entered
  split at entered
  · cases entered
  next nonempty =>
  have positive : length.toNat ≠ 0 := fun zero => nonempty (UInt64.toNat_inj.mp zero)
  split at entered
  next index found =>
    cases entered
    obtain ⟨inside, joins, -⟩ := List.findIdx?_eq_some_iff_getElem.mp found
    have isRange := List.getElem?_eq_getElem inside
    generalize bootInfo.reservedMemory[index] = range at isRange joins
    simp only [Bool.and_eq_true, decide_eq_true_eq] at joins
    exact ⟨positive, rfl, rfl, .inl ⟨index, range, isRange, joins.1, joins.2, rfl⟩⟩
  next =>
    split at entered
    · cases entered
      exact ⟨positive, rfl, rfl, .inr rfl⟩
    · cases entered

/-- The end that another range starts at is not a saturated one: there is room behind it. -/
theorem end_eq_of_stop_eq {range : ReservedMemoryRange} (isStop : range.stop = start.toNat)
    (nonempty : length.toNat ≠ 0) (small : start.toNat + length.toNat < size) :
    range.start.toNat + range.length.toNat = start.toNat := by
  unfold ReservedMemoryRange.stop saturatingAdd maxValue at isStop
  omega

theorem reserves_of_reserveMemory
    (entered : bootInfo.reserveMemory start length kind = some bootInfo') :
    Reserves bootInfo bootInfo' := by
  obtain ⟨-, mode, regions, entered⟩ := of_reserveMemory entered
  refine ⟨mode, regions, ?_⟩
  rintro kind low high ⟨range, mem, isKind, starts, ends⟩
  rcases entered with ⟨index, -, -, -, -, ranges⟩ | ranges
  · obtain ⟨range', mem', sameKind, sameStart, longer⟩ := @covered_modify _ index _ mem length
    refine ⟨range', ranges ▸ mem', sameKind.trans isKind, ?_, ?_⟩
    · rwa [sameStart]
    · rw [sameStart]
      exact ends.trans (Nat.add_le_add_left longer _)
  · exact ⟨range, ranges ▸ List.mem_append_left _ mem, isKind, starts, ends⟩

theorem covered_of_reserveMemory (small : start.toNat + length.toNat < size)
    (entered : bootInfo.reserveMemory start length kind = some bootInfo') :
    Covered bootInfo' kind start.toNat (start.toNat + length.toNat) := by
  obtain ⟨nonempty, -, -, entered⟩ := of_reserveMemory entered
  rcases entered with ⟨index, range, isRange, isKind, isStop, ranges⟩ | ranges
  · have reaches := end_eq_of_stop_eq isStop nonempty small
    refine ⟨range.grow length, List.mem_of_getElem? (i := index) ?_, isKind, ?_, ?_⟩
    · rw [ranges, List.getElem?_modify, isRange, Option.map_eq_map, Option.map_some, if_pos rfl]
    · change range.start.toNat ≤ _
      omega
    · change _ ≤ range.start.toNat + (range.grow length).length.toNat
      rw [toNat_grow, saturatingAdd_of_lt (by omega)]
      omega
  · exact ⟨_, ranges ▸ List.mem_append_right _ (List.mem_singleton.mpr rfl), rfl, Nat.le_refl _,
      Nat.le_refl _⟩

theorem reserved_modify {ranges : List ReservedMemoryRange} {index : Nat}
    {range grown : ReservedMemoryRange} (found : ranges[index]? = some range) {address : Nat}
    (reaches : range.start.toNat + range.length.toNat = start.toNat)
    (small : start.toNat + length.toNat < size)
    (mem : grown ∈ ranges.modify index (·.grow length)) (starts : grown.start.toNat ≤ address)
    (ends : address < grown.start.toNat + grown.length.toNat) :
    (∃ range ∈ ranges, range.start.toNat ≤ address ∧
        address < range.start.toNat + range.length.toNat) ∨
      start.toNat ≤ address ∧ address < start.toNat + length.toNat := by
  obtain ⟨place, isGrown⟩ := List.mem_iff_getElem?.mp mem
  rw [List.getElem?_modify, Option.map_eq_map] at isGrown
  obtain ⟨before, isBefore, isGrown⟩ := Option.map_eq_some_iff.mp isGrown
  by_cases same : index = place
  · rw [if_pos same] at isGrown
    rw [← same, found] at isBefore
    cases isBefore
    cases isGrown
    rw [toNat_grow, saturatingAdd_of_lt (by omega)] at ends
    change range.start.toNat ≤ address at starts
    change address < range.start.toNat + _ at ends
    by_cases old : address < start.toNat
    · exact .inl ⟨range, List.mem_of_getElem? found, starts, by omega⟩
    · exact .inr ⟨by omega, by omega⟩
  · rw [if_neg same] at isGrown
    cases isGrown
    exact .inl ⟨grown, List.mem_of_getElem? isBefore, starts, ends⟩

/-- Nothing but what was entered is reserved anew. -/
theorem reserved_reserveMemory_iff (small : start.toNat + length.toNat < size)
    (entered : bootInfo.reserveMemory start length kind = some bootInfo') {address : Nat} :
    Reserved bootInfo' address ↔
      Reserved bootInfo address ∨ start.toNat ≤ address ∧ address < start.toNat + length.toNat := by
  constructor
  · rintro ⟨range, mem, starts, ends⟩
    obtain ⟨nonempty, -, -, entered⟩ := of_reserveMemory entered
    rcases entered with ⟨index, last, isLast, -, isStop, ranges⟩ | ranges
    · exact reserved_modify isLast (end_eq_of_stop_eq isStop nonempty small) small (ranges ▸ mem)
        starts ends
    · rw [ranges] at mem
      rcases List.mem_append.mp mem with old | new
      · exact .inl ⟨range, old, starts, ends⟩
      · rw [List.mem_singleton.mp new] at starts ends
        exact .inr ⟨starts, ends⟩
  · rintro (old | ⟨above, below⟩)
    · exact (reserves_of_reserveMemory entered).reserved old
    · obtain ⟨range, mem, -, low, high⟩ := covered_of_reserveMemory small entered
      exact ⟨range, mem, low.trans above, below.trans_le high⟩

end

section

variable {bootInfo : BootInfo} {allocator : PhysicalPageAllocator} {live : List Interval}
  {page : Nat}

theorem Consistent.of_mem_allocatedRanges (h : Consistent bootInfo allocator live)
    (mem : range ∈ allocator.allocatedRanges) :
    range.1 + range.2 < size := by
  obtain ⟨region, isRegion, rfl⟩ := List.mem_map.mp mem
  have isRegion := List.mem_of_mem_filter isRegion
  have bounded := h.bounded isRegion
  have mark := Nat.mul_le_mul_right pageSize (h.marks region isRegion)
  have short : saturatingMul region.nextPage pageSize ≤ region.nextPage * pageSize := Nat.min_le_left _ _
  have last := lastPage_lt_size
  simp only [Interval.stop, RegionCursor.area] at bounded
  dsimp only
  omega

theorem Consistent.allocatedRanges_of_inUse (h : Consistent bootInfo allocator live)
    (aligned : page % pageSize = 0) (inUse : (pageRange page 1).points ⊆ allocator.inUse) :
    ∃ range ∈ allocator.allocatedRanges, range.1 ≤ page ∧ page + pageSize ≤ range.1 + range.2 := by
  have first := @self_mem_pageRange page
  obtain ⟨region, isRegion, inUsed⟩ := mem_marked.mp (Finset.sdiff_subset (inUse first))
  have regionAligned : region.start % pageSize = 0 :=
    h.areas.aligned region.area (List.mem_map_of_mem isRegion)
  have bounded := h.bounded isRegion
  have mark := Nat.mul_le_mul_right pageSize (h.marks region isRegion)
  have last := lastPage_lt_size
  rw [Interval.mem_points, Interval.stop, RegionCursor.used] at inUsed
  simp only [Interval.stop, RegionCursor.area] at bounded
  dsimp only at inUsed
  have some : region.nextPage ≠ 0 := by
    intro none
    rw [none, Nat.zero_mul] at inUsed
    omega
  refine ⟨_, List.mem_map_of_mem (List.mem_filter.mpr ⟨isRegion, decide_eq_true some⟩), inUsed.1, ?_⟩
  dsimp only
  rw [saturatingMul_of_lt (by omega)]
  unfold pageSize at *
  omega

end

end CodexOS.Memory
