import CodexOS.Heap.Tiling

/-! # A pointer that is given back twice

What a deallocation writes into the words of the region are zeros, sizes, offsets and
the mark of the list's end. None of them looks like the mark of a header in a region
that is not enormous, so the header of a freed pointer stays void until its bytes are
allocated again.
-/

namespace CodexOS.HeapAllocator

open Word64 ByteMemory Intervals

section

variable {capacity : Nat} {memory memory' memory'' : ByteMemory} {heap : Heap}
  {before after blocks : List Interval} {block : Interval}

/-- What the allocator writes into a word of the region, other than headers. -/
def IsPlain (capacity word : Nat) : Prop :=
  word ≤ capacity ∨ word = freeListEnd

/-- The words that differ are plain. -/
def Plain (capacity : Nat) (memory memory' : ByteMemory) : Prop :=
  ∀ place, place % wordAlign = 0 →
    loadWord memory' place = loadWord memory place ∨ IsPlain capacity (loadWord memory' place)

theorem Plain.refl (capacity : Nat) (memory : ByteMemory) : Plain capacity memory memory :=
  fun _ _ => .inl rfl

theorem Plain.trans (first : Plain capacity memory memory')
    (second : Plain capacity memory' memory'') : Plain capacity memory memory'' := by
  intro place aligned
  rcases second place aligned with same | plain
  · rw [same]
    exact first place aligned
  · exact .inr plain

theorem IsPlain.lt (plain : IsPlain capacity word) (small : capacity < size) :
    word < 2 ^ 64 := by
  rcases plain with low | rfl
  · exact low.trans_lt small
  · decide

theorem storeWords_plain (aligned : address % wordAlign = 0) (small : capacity < size)
    (plain : ∀ word ∈ words, IsPlain capacity word) :
    Plain capacity memory (storeWords memory address words) := by
  intro place placeAligned
  rcases loadWord_storeWords_cases (aligned.trans placeAligned.symm)
    fun word mem => (plain word mem).lt small with same | stored
  · exact .inl same
  · exact .inr (plain _ stored)

theorem headOf_plain (placed : Placed capacity after) :
    IsPlain capacity (headOf freeListEnd after) := by
  cases after with
  | nil => exact .inr rfl
  | cons next rest =>
    have bounded := placed.bounded next (by simp)
    exact .inl ((Nat.le_add_right _ _).trans bounded)

theorem writeFreeBlock_plain (aligned : start % wordAlign = 0) (small : capacity < size)
    (length : IsPlain capacity node.size) (next : IsPlain capacity node.next) :
    Plain capacity heap.memory (heap.writeFreeBlock start node).memory := by
  refine storeWords_plain aligned small fun word mem => ?_
  rcases List.mem_cons.mp mem with same | mem
  · rw [same]
    exact length
  · rw [List.mem_singleton.mp mem]
    exact next

theorem link_plain {target : Nat} (placed : Placed capacity before) (small : capacity < size)
    (granular : ∀ other ∈ before, other.start % wordAlign = 0) (plain : IsPlain capacity target) :
    Plain capacity heap.memory (heap.link (lastStart freeListEnd before) target).memory := by
  obtain rfl | ⟨init, last, rfl⟩ := before.eq_nil_or_concat
  · exact .refl _ _
  · rw [List.concat_eq_append] at *
    have isLast : last ∈ init ++ [last] := by simp
    rw [lastStart_concat, Heap.link, if_neg (placed.start_lt_end small isLast).ne]
    refine storeWords_plain ?_ small fun word mem => ?_
    · have aligned := granular last isLast
      simp only [wordAlign] at aligned ⊢
      omega
    · rw [List.mem_singleton.mp mem]
      exact plain

theorem joinNext_plain (segment : Segment heap.memory head (before ++ block :: after) freeListEnd)
    (placed : Placed capacity (before ++ block :: after)) (small : capacity < size)
    (aligned : block.start % wordAlign = 0) :
    Plain capacity heap.memory
      (heap.joinNext block.start block.length (headOf freeListEnd after)).memory := by
  unfold Heap.joinNext
  split
  · rename_i joins
    cases after with
    | nil => exact absurd rfl joins.1
    | cons next rest =>
      obtain ⟨-, placedRest, -⟩ := placed_append.mp placed
      obtain ⟨-, gap, placedNext⟩ := placed_cons.mp placedRest
      obtain ⟨⟨-, bounded⟩, -, placedAfter⟩ := placed_cons.mp placedNext
      have follows := gap next (by simp)
      rw [List.append_cons] at segment
      have node := segment.node
      refine writeFreeBlock_plain aligned small (.inl ?_) ?_
      · refine (Nat.min_le_left _ _).trans ?_
        rw [headOf, node]
        simp only [Interval.stop] at follows bounded ⊢
        omega
      · rw [headOf, node]
        exact headOf_plain placedAfter
  · exact .refl _ _

theorem joinPrevious_plain
    (segment : Segment heap.memory head (before ++ block :: after) freeListEnd)
    (placed : Placed capacity (before ++ block :: after)) (small : capacity < size)
    (granular : ∀ other ∈ before, other.start % wordAlign = 0) :
    Plain capacity heap.memory
      (heap.joinPrevious (lastStart freeListEnd before) block.start).memory := by
  unfold Heap.joinPrevious
  obtain rfl | ⟨init, last, rfl⟩ := before.eq_nil_or_concat
  · rw [if_neg fun more => more rfl]
    exact .refl _ _
  · rw [List.concat_eq_append] at *
    rw [lastStart_concat]
    split
    · dsimp only
      split
      · obtain ⟨-, placedRest, between⟩ := placed_append.mp placed
        obtain ⟨⟨-, bounded⟩, -, placedAfter⟩ := placed_cons.mp placedRest
        have follows := between last (by simp) block (by simp)
        have node := segment.node
        rw [List.append_assoc, List.singleton_append] at segment
        have lastNode := segment.node
        refine writeFreeBlock_plain (granular last (by simp)) small (.inl ?_) ?_
        · refine (Nat.min_le_left _ _).trans ?_
          rw [node, lastNode]
          simp only [Interval.stop] at follows bounded ⊢
          omega
        · rw [node]
          exact headOf_plain placedAfter
      · exact .refl _ _
    · exact .refl _ _

theorem insertFreeBlock_plain (segment : Segment heap.memory heap.state.freeHead blocks freeListEnd)
    (separated : Separated blocks) (placed : Placed capacity blocks) (small : capacity < size)
    (large : freeBlockSize ≤ block.length) (bounded : block.stop ≤ capacity)
    (new : Disjoint block.points (cover blocks)) (enough : blocks.length < capacity)
    (granular : ∀ other ∈ block :: blocks, other.start % wordAlign = 0)
    (inserted : heap.insertFreeBlock capacity block.start block.length = some heap') :
    Plain capacity heap.memory heap'.memory := by
  obtain ⟨before, after, rfl, -, -, placed', steps⟩ :=
    insertFreeBlock_eq segment separated placed small large bounded new enough
  rw [steps, Option.some.injEq] at inserted
  rw [← inserted]
  obtain ⟨placedBefore, placedAfter, -⟩ := placed_append.mp placed
  have aligned : block.start % wordAlign = 0 := granular block (by simp)
  have alignedBefore : ∀ other ∈ before, other.start % wordAlign = 0 := fun other mem =>
    granular other (by simp [mem])
  obtain ⟨mid, leads, follows⟩ := segment_append.mp segment
  rw [follows.head_eq] at follows
  have first := place_listed leads follows placed' small
  obtain ⟨second, placed''⟩ := joinNext_listed first placed' small
    (points_subset_cover (by simp))
  have written : Plain capacity heap.memory (heap.writeFreeBlock block.start
      { size := block.length, next := headOf freeListEnd after }).memory :=
    writeFreeBlock_plain aligned small (.inl ((Nat.le_add_left _ _).trans bounded))
      (headOf_plain placedAfter)
  have linked := @link_plain capacity (heap.writeFreeBlock block.start
      { size := block.length, next := headOf freeListEnd after }) before block.start placedBefore small
    alignedBefore (.inl ((Nat.le_add_right _ _).trans bounded))
  have joined := joinNext_plain first.segment placed' small aligned
  have joined' := joinPrevious_plain second.segment placed'' small alignedBefore
  rw [start_absorb] at joined'
  exact ((written.trans linked).trans joined).trans joined'

end

section

variable {region : Region} {heap heap' : Heap} {live before after : List Allocation}
  {blocks : List Interval} {history : List Nat} {allocation other : Allocation}

theorem Layout.userStart_mod (layout : Layout) (block : Interval) :
    layout.userStart block % wordAlign = 0 := by
  have divides : wordAlign ∣ max layout.align wordAlign := by
    obtain ⟨k, power⟩ := layout.powerOfTwo_max
    have large : 2 ^ 3 ≤ 2 ^ k := power ▸ Nat.le_max_right _ _
    rw [power]
    exact Nat.pow_dvd_pow 2 ((Nat.pow_le_pow_iff_right (by decide)).mp large)
  exact Nat.mod_eq_zero_of_dvd (divides.trans (Nat.dvd_mul_left _ _))

theorem Run.aligned (run : Run region heap live history) :
    ∀ allocation ∈ live, (allocation.userRange region).start % wordAlign = 0 := by
  induction run with
  | start => nofun
  | allocated layout run made ih =>
    obtain ⟨⟨blocks, intact⟩, -⟩ := run.intact
    obtain failed | ⟨before, block, after, heap', n, rfl, found, -⟩ := intact.alloc_cases layout
    · rw [failed] at made
      cases made
    · rw [found] at made
      cases made
      refine List.forall_mem_cons.mpr ⟨?_, ih⟩
      rw [Allocation.userRange, Nat.add_sub_cancel_left]
      exact layout.userStart_mod block
  | refused _ _ _ ih => exact ih
  | deallocated _ _ ih => exact fun other mem => ih other (Intact.mem_of_mem_others mem)
  | written _ _ _ ih => exact ih

/-- The pointer is in free memory and its header is not marked. -/
structure Void (region : Region) (heap : Heap) (blocks : List Interval) (allocation : Allocation) :
    Prop where
  aligned : (allocation.headerRange region).start % wordAlign = 0
  free : (allocation.headerRange region).points ⊆ cover blocks
  unmarked : (allocation.header region heap).magic ≠ allocationMagic

theorem IsPlain.unmarked (plain : IsPlain capacity word) (small : capacity < 2 ^ 62) :
    word ≠ allocationMagic := by
  rintro rfl
  rcases plain with low | isEnd
  · simp only [allocationMagic] at low
    omega
  · revert isEnd
    decide

theorem Void.dealloc (void : Void region heap blocks allocation) :
    heap.dealloc region allocation.pointer = some heap := by
  have place : allocation.pointer - headerSize - region.base =
      allocation.pointer - region.base - headerSize := Nat.sub_right_comm _ _ _
  have unmarked := void.unmarked
  unfold Heap.dealloc Heap.deallocateIntoRegion
  split
  · rfl
  split
  · rfl
  split
  · rfl
  split
  · rfl
  rw [place]
  dsimp only
  exact if_pos (.inl unmarked)

/-- A deallocation voids its own header and leaves every other void header void. -/
theorem Intact.voids (small : region.capacity < 2 ^ 62)
    (intact : Intact region heap (before ++ allocation :: after) blocks)
    (freed : heap.dealloc region allocation.pointer = some heap')
    (aligned : (other.headerRange region).start % wordAlign = 0)
    (was : other = allocation ∨ Void region heap blocks other) :
    Void region heap' (join (allocation.block region heap) blocks) other := by
  have isLive : allocation ∈ before ++ allocation :: after := by simp
  have recorded := intact.recorded allocation isLive
  obtain ⟨roomy, bounded⟩ := intact.roomy isLive
  rw [intact.dealloc_eq isLive] at freed
  obtain ⟨inserted, isInserted, rfl⟩ := Option.map_eq_some_iff.mp freed
  have plain := insertFreeBlock_plain (intact.wiped isLive).segment intact.separated intact.placed
    region.small roomy bounded (intact.disjoint_free isLive) intact.length_lt
    (List.forall_mem_cons.mpr ⟨recorded.granular.1, fun block mem => (intact.granular block mem).1⟩)
    isInserted
  refine ⟨aligned, ?_, ?_⟩
  · rw [cover_join]
    rcases was with rfl | void
    · exact recorded.headerRange_subset.trans Finset.subset_union_left
    · exact void.free.trans Finset.subset_union_right
  · change loadWord inserted.memory (other.headerRange region).start ≠ allocationMagic
    rcases plain _ aligned with same | isPlain
    · rw [same]
      rcases was with rfl | void
      · -- its own header was wiped before the block was put into the list
        have wiped : (heap.writeHeader (other.headerRange region).start
            Intact.voidHeader).readHeader (other.headerRange region).start = Intact.voidHeader :=
          readHeader_writeHeader heap _ (by decide) (by decide) (by decide) (by decide)
        have magic := congrArg AllocationHeader.magic wiped
        change loadWord _ _ = 0 at magic
        rw [magic]
        decide
      · have untouched : ∀ address ∈ (other.headerRange region).points,
            (heap.writeHeader (allocation.headerRange region).start Intact.voidHeader).memory address =
              heap.memory address := by
          intro address inHeader
          have apart : address ∉ (allocation.headerRange region).points := fun within =>
            Finset.disjoint_left.mp (intact.disjoint_free isLive)
              (recorded.headerRange_subset within) (void.free inHeader)
          refine storeWords_of_outside ?_
          simp only [Allocation.headerRange, Interval.mem_points, Interval.stop, headerSize,
            List.length_cons, List.length_nil] at apart ⊢
          omega
        have header := header_congr untouched
        have magic := congrArg AllocationHeader.magic header
        change loadWord _ (other.headerRange region).start = _ at magic
        rw [magic]
        exact void.unmarked
    · exact isPlain.unmarked small

/-- What has happened since, other than allocations that succeeded. -/
inductive Since (region : Region) (start : Heap) (kept : List Allocation) :
    Heap → List Allocation → Prop
  | nothing : Since region start kept start kept
  | refused {now now' : Heap} {left : List Allocation} (layout : Layout) :
      Since region start kept now left → now.alloc region layout = some (none, now') →
      Since region start kept now' left
  | deallocated {now now' : Heap} {left right : List Allocation} {freed : Allocation} :
      Since region start kept now (left ++ freed :: right) →
      now.dealloc region freed.pointer = some now' → Since region start kept now' (left ++ right)
  | written {now : Heap} {left : List Allocation} (memory : ByteMemory) :
      Since region start kept now left →
      (∀ address, (∀ user ∈ left, address ∉ (user.userRange region).points) →
        memory address = now.memory address) →
      Since region start kept { now with memory } left

theorem Void.written (void : Void region heap blocks allocation)
    (intact : Intact region heap live blocks)
    (only : ∀ address, (∀ other ∈ live, address ∉ (other.userRange region).points) →
      memory address = heap.memory address) :
    Void region { heap with memory } blocks allocation := by
  have same : allocation.header region { heap with memory } = allocation.header region heap := by
    refine header_congr fun address inHeader => only address fun other mem inRange => ?_
    exact Finset.disjoint_left.mp (intact.disjoint_free mem)
      ((intact.recorded other mem).userRange_subset inRange) (void.free inHeader)
  exact ⟨void.aligned, void.free, same ▸ void.unmarked⟩

theorem Since.void (small : region.capacity < 2 ^ 62) (since : Since region start kept heap live)
    (intact : Intact region start kept blocks) (void : Void region start blocks allocation) :
    ∃ blocks', Intact region heap live blocks' ∧ Void region heap blocks' allocation := by
  induction since with
  | nothing => exact ⟨blocks, intact, void⟩
  | refused layout _ made ih =>
    obtain ⟨blocks', intact', void'⟩ := ih
    obtain failed | ⟨before, block, after, heap', n, rfl, found, -⟩ := intact'.alloc_cases layout
    · rw [failed] at made
      cases made
      exact ⟨blocks', intact'.refused _, void'.aligned, void'.free, void'.unmarked⟩
    · rw [found] at made
      cases made
  | deallocated _ freed ih =>
    obtain ⟨blocks', intact', void'⟩ := ih
    have voids := intact'.voids small freed void'.aligned (.inr void')
    obtain ⟨heap', released, intact'', -⟩ := intact'.released
    rw [released] at freed
    cases freed
    exact ⟨_, intact'', voids⟩
  | written memory _ only ih =>
    obtain ⟨blocks', intact', void'⟩ := ih
    exact ⟨blocks', intact'.written only, void'.written intact' only⟩

/-- Giving a pointer back again does nothing, as long as nothing was allocated since it was given
    back the first time. -/
theorem double_free_ignored {freed : Heap} (small : region.capacity < 2 ^ 62)
    (run : Run region heap (before ++ allocation :: after) history)
    (first : heap.dealloc region allocation.pointer = some freed)
    (since : Since region freed (before ++ after) heap' live) :
    heap'.dealloc region allocation.pointer = some heap' := by
  obtain ⟨⟨blocks, intact⟩, -⟩ := run.intact
  have aligned : (allocation.headerRange region).start % wordAlign = 0 := by
    have user := run.aligned allocation (by simp)
    simp only [Allocation.userRange, Allocation.headerRange, wordAlign, headerSize] at user ⊢
    omega
  have void := intact.voids small first aligned (.inl rfl)
  obtain ⟨freed', released, intact', -⟩ := intact.released
  rw [released] at first
  cases first
  obtain ⟨blocks', -, void'⟩ := since.void small intact' void
  exact void'.dealloc

theorem double_free_ignored_sample :
    ∃ heap freed, Run sampleRegion heap [{ pointer := 4160, size := 10 }] [80, 0] ∧
      heap.dealloc sampleRegion 4160 = some freed ∧
      freed.dealloc sampleRegion 4160 = some freed := by
  obtain ⟨heap, run⟩ := sample_run
  obtain ⟨⟨blocks, intact⟩, -⟩ := run.intact
  obtain ⟨freed, released, -⟩ := @Intact.released _ _ _ { pointer := 4160, size := 10 } [] [] intact
  exact ⟨heap, freed, run, released, @double_free_ignored _ _ _ _ [] [] _ _ _ (by decide) run released .nothing⟩

end

end CodexOS.HeapAllocator
