import CodexOS.Heap.Tiling

/-! # What the search finds

The search fails only if no free block can serve the request, and otherwise takes the
lowest that can.
-/

namespace CodexOS.HeapAllocator

open Word64 ByteMemory Intervals

section

variable {region : Region} {heap : Heap} {live : List Allocation} {history : List Nat}

/-- What the search comes to in a heap with this free list. -/
structure FirstFit (region : Region) (heap : Heap) (layout : Layout) (blocks : List Interval) :
    Prop where
  chain : Segment heap.memory heap.state.freeHead blocks freeListEnd
  increasing : blocks.Pairwise fun block block' => block.stop < block'.start
  returns : heap.allocateFromFreeList region.capacity layout ≠ none
  fails : heap.allocateFromFreeList region.capacity layout = some none ↔
    ∀ block ∈ blocks, ¬layout.Fits block
  lowest : ∀ userStart heap',
    heap.allocateFromFreeList region.capacity layout = some (some (userStart, heap')) →
    ∃ block ∈ blocks, layout.Fits block ∧
      (∀ other ∈ blocks, layout.Fits other → block.start ≤ other.start) ∧
      userStart = layout.userStart block ∧
      (heap'.readHeader (userStart - headerSize)).blockStart = block.start
  /-- A request that fails is counted, and nothing else happens. -/
  unchanged : heap.allocateFromFreeList region.capacity layout = some none →
    heap.alloc region layout = some (none, { heap with
      state := { heap.state with
        failedAllocations := saturatingAdd heap.state.failedAllocations 1 } })

theorem Intact.lowest {before after : List Interval} {block : Interval} {layout : Layout}
    (intact : Intact region heap live (before ++ block :: after))
    (skipped : ∀ other ∈ before, ¬layout.Fits other) :
    ∀ other ∈ before ++ block :: after, layout.Fits other → block.start ≤ other.start := by
  obtain ⟨-, placedRest, -⟩ := placed_append.mp intact.placed
  obtain ⟨-, gap, -⟩ := placed_cons.mp placedRest
  intro other mem fits
  rcases List.mem_append.mp mem with early | late
  · exact absurd fits (skipped other early)
  · rcases List.mem_cons.mp late with rfl | behind
    · exact Nat.le_refl _
    · exact (Nat.le_add_right _ _).trans (gap other behind)

/-- An allocation fails exactly when no free block can serve it, takes the lowest that can, and
    leaves the heap alone when it fails. -/
theorem first_fit_complete (run : Run region heap live history) (layout : Layout) :
    ∃ blocks, FirstFit region heap layout blocks := by
  obtain ⟨⟨blocks, intact⟩, -⟩ := run.intact
  refine ⟨blocks, ?_⟩
  have counted : heap.allocateFromFreeList region.capacity layout = some none →
      heap.alloc region layout = some (none, { heap with
        state := { heap.state with
          failedAllocations := saturatingAdd heap.state.failedAllocations 1 } }) := by
    intro nothing
    have again : heap.initializeRegion region.capacity = heap := if_pos intact.initialized
    unfold Heap.alloc
    rw [again]
    simp only [nothing]
  obtain ⟨nothing, none⟩ | ⟨before, block, after, heap', n, rfl, skipped, fits, found, taken⟩ :=
    intact.allocateFromFreeList_cases layout
  · refine ⟨intact.segment, intact.separated.apart, by simp [nothing], ⟨fun _ => none, fun _ => nothing⟩,
      ?_, counted⟩
    intro userStart heap' found
    rw [nothing] at found
    cases found
  · have isBlock : block ∈ before ++ block :: after := by simp
    refine ⟨intact.segment, intact.separated.apart, by simp [found], ⟨?_, ?_⟩, ?_, counted⟩
    · intro nothing
      rw [found] at nothing
      cases nothing
    · intro none
      exact absurd fits (none block isBlock)
    · intro userStart heap'' result
      rw [found] at result
      cases result
      exact ⟨block, isBlock, fits, intact.lowest skipped, rfl, by rw [taken.header]⟩

/-- In a new heap the whole region is one free block. -/
theorem first_fit_complete_sample :
    ∃ heap, Run sampleRegion heap [] [0] ∧
      ∃ blocks, FirstFit sampleRegion heap sampleLayout blocks :=
  ⟨_, Run.start fun _ => 0, first_fit_complete (Run.start fun _ => 0) sampleLayout⟩

end

end CodexOS.HeapAllocator
