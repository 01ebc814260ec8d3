import CodexOS.Heap.Routing

/-! # Where pointers are aligned

The allocator rounds up the offset of the user's bytes in the region, not their
address. A pointer is as aligned as the base of the region it comes from, and the
second region may begin at any multiple of eight.
-/

namespace CodexOS.HeapAllocator

open Word64 ByteMemory Intervals

def Heap.freeBlocks (heap : Heap) : Nat → Nat → List Interval
  | 0, _ => []
  | fuel + 1, current =>
    if current = freeListEnd then []
    else
      let block := heap.readFreeBlock current
      { start := current, length := block.size } :: heap.freeBlocks fuel block.next

theorem freeBlocks_eq {heap : Heap} {capacity fuel head : Nat} {blocks : List Interval}
    (segment : Segment heap.memory head blocks freeListEnd) (placed : Placed capacity blocks)
    (small : capacity < size) (enough : blocks.length < fuel) :
    heap.freeBlocks fuel head = blocks := by
  induction blocks generalizing fuel head with
  | nil =>
    cases fuel with
    | zero => simp at enough
    | succ fuel => exact if_pos segment
  | cons block rest ih =>
    cases fuel with
    | zero => simp at enough
    | succ fuel =>
      obtain ⟨rfl, length, links⟩ := segment
      have notEnd := (placed.start_lt_end small (show block ∈ block :: rest by simp)).ne
      obtain ⟨-, -, placedRest⟩ := placed_cons.mp placed
      rw [Heap.freeBlocks, if_neg notEnd]
      simp only [Heap.readFreeBlock, length]
      rw [ih links placedRest (by simpa using enough)]

theorem Layout.align_dvd_userStart (layout : Layout) (block : Interval) :
    layout.align ∣ layout.userStart block := by
  have divides : layout.align ∣ max layout.align wordAlign := by
    obtain ⟨k, power⟩ := layout.powerOfTwo
    rcases Nat.le_total layout.align wordAlign with small | large
    · have exponent : k ≤ 3 := (Nat.pow_le_pow_iff_right (by decide)).mp (power ▸ small)
      rw [max_eq_right small, power]
      exact Nat.pow_dvd_pow 2 exponent
    · rw [max_eq_left large]
  exact divides.trans (Nat.dvd_mul_left _ _)

/-- The base of the region that can serve the request: the second if one of its free blocks fits,
    else the first. -/
def ExpandableHeap.servingBase {bootstrapRegion : Region} (heap : ExpandableHeap bootstrapRegion)
    (layout : Layout) : Nat :=
  match heap.external with
  | none => bootstrapRegion.base
  | some external =>
    let blocks := external.heap.freeBlocks external.region.capacity external.heap.state.freeHead
    if ∃ block ∈ blocks, layout.Fits block then external.region.base else bootstrapRegion.base

section

variable {bootstrapRegion : Region} {heap heap' : ExpandableHeap bootstrapRegion}
  {live : List Issued} {count : Nat}

theorem Intact.userStart_of_found {region : Region} {heap heap' : Heap} {live : List Allocation}
    {blocks : List Interval} {layout : Layout} {userStart : Nat}
    (intact : Intact region heap live blocks)
    (found : heap.allocateFromFreeList region.capacity layout = some (some (userStart, heap'))) :
    layout.align ∣ userStart ∧ ∃ block ∈ blocks, layout.Fits block := by
  obtain ⟨nothing, -⟩ | ⟨before, block, after, heap'', n, rfl, -, fits, taken, -⟩ :=
    intact.allocateFromFreeList_cases layout
  · rw [nothing] at found
    cases found
  · rw [taken] at found
    cases found
    exact ⟨layout.align_dvd_userStart block, block, by simp, fits⟩

theorem Intact.freeBlocks {region : Region} {heap : Heap} {live : List Allocation}
    {blocks : List Interval} (intact : Intact region heap live blocks) :
    heap.freeBlocks region.capacity heap.state.freeHead = blocks :=
  freeBlocks_eq intact.segment intact.placed region.small intact.length_lt

theorem Regions.pointer_eq (regions : Regions heap live) {layout : Layout} {pointer : Nat}
    (made : heap.alloc layout = some (some pointer, heap')) :
    ∃ userStart, layout.align ∣ userStart ∧ pointer = heap.servingBase layout + userStart := by
  unfold ExpandableHeap.servingBase
  rcases Regions.of_alloc made with ⟨external, userStart, used, isExternal, found, result, -, -⟩ |
    ⟨bootstrap, served, -, rest⟩
  · obtain ⟨blocks, intact⟩ := regions.externalIntact isExternal
    obtain ⟨aligned, fits⟩ := intact.userStart_of_found found
    cases result
    refine ⟨userStart, aligned, ?_⟩
    simp only [isExternal, intact.freeBlocks, if_pos fits]
  · obtain ⟨history, run⟩ := regions.bootstrap.setUp
    obtain ⟨⟨blocks, intact⟩, -⟩ := run.intact
    rw [← alloc_initializeRegion] at served
    obtain failed | ⟨before, block, after, heap'', n, rfl, taken, -⟩ := intact.alloc_cases layout
    · rw [failed] at served
      cases served
    rw [taken] at served
    cases served
    refine ⟨layout.userStart block, layout.align_dvd_userStart block, ?_⟩
    rcases rest with ⟨isNone, -⟩ | ⟨external, isExternal, nothing, -⟩
    · simp only [isNone]
    · obtain ⟨blocks', intact'⟩ := regions.externalIntact isExternal
      have none : ¬∃ block ∈ blocks', layout.Fits block := by
        obtain ⟨-, unfit⟩ | ⟨_, _, _, _, _, -, -, -, found, -⟩ :=
          intact'.allocateFromFreeList_cases layout
        · rintro ⟨block, mem, fits⟩
          exact unfit block mem fits
        · rw [found] at nothing
          cases nothing
      simp only [isExternal, intact'.freeBlocks, if_neg none]

/-- A pointer has the alignment asked for exactly when the base of the region that serves it has. -/
theorem pointer_aligned_iff (run : ExpandableRun bootstrapRegion heap live count) (layout : Layout)
    (pointer : Nat) (made : heap.alloc layout = some (some pointer, heap')) :
    pointer % layout.align = 0 ↔ heap.servingBase layout % layout.align = 0 := by
  obtain ⟨userStart, aligned, rfl⟩ := run.regions.1.pointer_eq made
  rw [← Nat.dvd_iff_mod_eq_zero, ← Nat.dvd_iff_mod_eq_zero]
  exact Nat.dvd_add_iff_left aligned |>.symm

def wideLayout : Layout where
  size := 10
  align := 16
  powerOfTwo := ⟨4, rfl⟩

theorem sample_odd_region :
    ∃ heap heap' : ExpandableHeap sampleRegion,
      (ExpandableHeap.new fun _ => 0).initializeExternal 8200 256 (fun _ => 0) = .ok heap ∧
      ExpandableRun sampleRegion heap [] 1 ∧
      heap.alloc wideLayout = some (some 8232, heap') := by
  have served : (match (ExpandableHeap.new fun _ => 0 : ExpandableHeap sampleRegion)
      |>.initializeExternal 8200 256 fun _ => 0 with
      | .ok heap => (heap.alloc wideLayout).map Prod.fst
      | .error _ => none) = some (some 8232) := by
    decide +kernel
  cases accepted : (ExpandableHeap.new fun _ => 0 : ExpandableHeap sampleRegion)
      |>.initializeExternal 8200 256 fun _ => 0 with
  | error _ =>
    rw [accepted] at served
    cases served
  | ok heap =>
    rw [accepted] at served
    obtain ⟨⟨result, heap'⟩, made, rfl⟩ := Option.map_eq_some_iff.mp served
    exact ⟨heap, heap', rfl, .extended 8200 256 _ (.start _) accepted, made⟩

/-- A region at a multiple of eight is accepted, and a pointer from it misses an alignment of
    sixteen. -/
theorem odd_region_misaligns :
    ∃ heap heap' : ExpandableHeap sampleRegion, ∃ pointer,
      sampleRegion.base % 64 = 0 ∧
      (ExpandableHeap.new fun _ => 0).initializeExternal 8200 256 (fun _ => 0) = .ok heap ∧
      ExpandableRun sampleRegion heap [] 1 ∧ heap.alloc wideLayout = some (some pointer, heap') ∧
      pointer % wideLayout.align ≠ 0 := by
  obtain ⟨heap, heap', accepted, run, made⟩ := sample_odd_region
  exact ⟨heap, heap', 8232, by decide, accepted, run, made, by decide⟩

theorem pointer_aligned_iff_odd_region :
    ∃ heap heap' : ExpandableHeap sampleRegion, ExpandableRun sampleRegion heap [] 1 ∧
      heap.alloc wideLayout = some (some 8232, heap') ∧
      (8232 % wideLayout.align = 0 ↔ heap.servingBase wideLayout % wideLayout.align = 0) := by
  obtain ⟨heap, heap', -, run, made⟩ := sample_odd_region
  exact ⟨heap, heap', run, made, pointer_aligned_iff run wideLayout 8232 made⟩

end

end CodexOS.HeapAllocator
