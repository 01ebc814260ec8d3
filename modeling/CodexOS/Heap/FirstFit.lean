import CodexOS.Heap.FreeList

/-! # Taking a block

The search goes through the list until a block has room for the header, the
alignment and the requested bytes. The block found is cut: its front becomes the
allocation, and what is left of it stays in its place if it can hold a node.
-/

namespace CodexOS.HeapAllocator

open Word64 ByteMemory Intervals

theorem of_alignUp (positive : 0 < alignment) (rounded : alignUp value alignment = some aligned) :
    value ≤ aligned ∧ aligned < value + alignment ∧ aligned % alignment = 0 := by
  obtain ⟨sum, added, rfl⟩ := Option.map_eq_some_iff.mp rounded
  obtain ⟨-, rfl⟩ := checkedAdd_eq_some.mp added
  have below := Nat.mod_lt (value + (alignment - 1)) positive
  have le := Nat.mod_le (value + (alignment - 1)) alignment
  refine ⟨by omega, by omega, ?_⟩
  exact Nat.mod_eq_zero_of_dvd (Nat.dvd_sub_mod _)

theorem exists_alignUp (fits : value + (alignment - 1) < size) :
    ∃ aligned, alignUp value alignment = some aligned :=
  ⟨_, by rw [alignUp, checkedAdd_eq_some.mpr ⟨fits, rfl⟩, Option.map_some]⟩

section

variable {value alignment requestedSize : Nat} {block : Interval}

/-- The first multiple of the alignment that is not below the value. -/
def roundUp (value alignment : Nat) : Nat :=
  (value + (alignment - 1)) / alignment * alignment

/-- The block has room for a header, the alignment and the requested bytes. -/
def Fits (requestedSize alignment : Nat) (block : Interval) : Prop :=
  roundUp (block.start + headerSize) alignment + requestedSize ≤ block.stop

instance : Decidable (Fits requestedSize alignment block) :=
  inferInstanceAs (Decidable (_ ≤ _))

theorem roundUp_mono {value' : Nat} (le : value ≤ value') :
    roundUp value alignment ≤ roundUp value' alignment :=
  Nat.mul_le_mul_right _ (Nat.div_le_div_right (Nat.add_le_add_right le _))

theorem eq_roundUp (rounded : alignUp value alignment = some aligned) :
    aligned = roundUp value alignment := by
  obtain ⟨sum, added, rfl⟩ := Option.map_eq_some_iff.mp rounded
  obtain ⟨-, rfl⟩ := checkedAdd_eq_some.mp added
  have parts := Nat.div_add_mod (value + (alignment - 1)) alignment
  rw [Nat.mul_comm] at parts
  rw [roundUp]
  omega

theorem size_le_roundUp (powerOfTwo : ∃ k, alignment = 2 ^ k) (positive : 0 < value)
    (overflow : alignUp value alignment = none) : size ≤ roundUp value alignment := by
  have large : size ≤ value + (alignment - 1) := by
    rw [alignUp, Option.map_eq_none_iff, checkedAdd] at overflow
    by_contra small
    rw [if_pos (by omega)] at overflow
    cases overflow
  obtain ⟨k, rfl⟩ := powerOfTwo
  rcases Nat.le_total k 64 with small | big
  · -- a word has room for the alignment, so the bound is a multiple of it
    have whole : size = 2 ^ (64 - k) * 2 ^ k := by
      rw [← Nat.pow_add, Nat.sub_add_cancel small, size]
    rw [roundUp, whole]
    refine Nat.mul_le_mul_right _ ((Nat.le_div_iff_mul_le (Nat.two_pow_pos k)).mpr ?_)
    rw [← whole]
    exact large
  · have once : 1 ≤ (value + (2 ^ k - 1)) / 2 ^ k :=
      (Nat.le_div_iff_mul_le (Nat.two_pow_pos k)).mpr (by omega)
    calc size = 2 ^ 64 := rfl
      _ ≤ 2 ^ k := Nat.pow_le_pow_right (by decide) big
      _ ≤ roundUp value (2 ^ k) := Nat.le_mul_of_pos_left _ once

theorem le_roundUp (positive : 0 < alignment) : value ≤ roundUp value alignment := by
  have parts := Nat.div_add_mod (value + (alignment - 1)) alignment
  have small := Nat.mod_lt (value + (alignment - 1)) positive
  rw [Nat.mul_comm] at parts
  rw [roundUp]
  omega

theorem size_le_of_no_place (powerOfTwo : ∃ k, alignment = 2 ^ k)
    (overflow : (checkedAdd value headerSize).bind (alignUp · alignment) = none) :
    size ≤ roundUp (value + headerSize) alignment := by
  by_cases small : value + headerSize < size
  · rw [checkedAdd_eq_some.mpr ⟨small, rfl⟩, Option.bind_some] at overflow
    exact size_le_roundUp powerOfTwo (Nat.add_pos_right _ (by decide)) overflow
  · obtain ⟨k, rfl⟩ := powerOfTwo
    exact (Nat.le_of_not_lt small).trans (le_roundUp (Nat.two_pow_pos k))

theorem not_fits_of_size_le (large : size ≤ roundUp value alignment)
    (le : value ≤ block.start + headerSize) (bounded : block.stop < size) : ¬Fits requestedSize alignment block := by
  have mono := @roundUp_mono value alignment _ le
  unfold Fits
  omega

end

section

variable {heap : Heap} {capacity userStart requestedSize n : Nat} {before after : List Interval}
  {block : Interval}

/-- The front of a block has been cut off for an allocation of `n` bytes, and the header stands
    right below the user's bytes. -/
structure Taken (heap heap' : Heap) (before : List Interval) (block : Interval)
    (after : List Interval) (userStart requestedSize n : Nat) : Prop where
  granular : n % wordAlign = 0
  within : n ≤ block.length
  remainder : n < block.length → n + freeBlockSize ≤ block.length
  fits : userStart + requestedSize ≤ block.start + n
  segment : Segment heap'.memory heap'.state.freeHead (before ++ block.rest n ++ after) freeListEnd
  memory : ∀ address, address ∉ cover (before ++ block :: after) →
    heap'.memory address = heap.memory address
  header : heap'.readHeader (userStart - headerSize) =
    { magic := allocationMagic, blockStart := block.start, blockSize := n, requestedSize }
  state : heap'.state =
    { heap.state with
      freeHead := heap'.state.freeHead
      usedBytes := saturatingAdd heap.state.usedBytes n
      peakUsedBytes := max heap.state.peakUsedBytes (saturatingAdd heap.state.usedBytes n)
      liveAllocations := saturatingAdd heap.state.liveAllocations 1
      totalAllocations := saturatingAdd heap.state.totalAllocations 1 }

theorem readHeader_writeHeader (heap : Heap) (offset : Nat) (magic : header.magic < 2 ^ 64)
    (blockStart : header.blockStart < 2 ^ 64) (blockSize : header.blockSize < 2 ^ 64)
    (requestedSize : header.requestedSize < 2 ^ 64) :
    (heap.writeHeader offset header).readHeader offset = header := by
  obtain ⟨magicWord, startWord, sizeWord, requestedWord⟩ := header
  simp only [Heap.readHeader, Heap.writeHeader, AllocationHeader.mk.injEq]
  exact ⟨loadWord_storeWords (k := 0) rfl magic, loadWord_storeWords (k := 1) rfl blockStart,
    loadWord_storeWords (k := 2) rfl blockSize, loadWord_storeWords (k := 3) rfl requestedSize⟩

theorem Listed.mono (listed : Listed origin heap touched blocks) (subset : touched ⊆ touched') :
    Listed origin heap touched' blocks :=
  ⟨listed.segment, fun address outside => listed.memory address fun mem => outside (subset mem),
    listed.state⟩

theorem Listed.writeHeader (listed : Listed origin heap touched blocks)
    (inside : (Interval.mk offset headerSize).points ⊆ touched)
    (apart : ∀ block ∈ blocks, ∀ address, InNode block address →
      address ∉ (Interval.mk offset headerSize).points) :
    Listed origin (heap.writeHeader offset header) touched blocks := by
  have kept (address : Nat) (outside : address ∉ (Interval.mk offset headerSize).points) :
      (heap.writeHeader offset header).memory address = heap.memory address := by
    refine storeWords_of_outside ?_
    simp only [Interval.mem_points, Interval.stop, headerSize, List.length_cons,
      List.length_nil] at outside ⊢
    omega
  refine ⟨listed.segment.congr fun block mem address node => ?_, fun address outside => ?_,
    listed.state⟩
  · exact kept address (apart block mem address node)
  · rw [kept address fun mem => outside (inside mem), listed.memory address outside]

theorem Placed.carve (placed : Placed capacity (before ++ block :: after))
    (remainder : n < block.length → n + freeBlockSize ≤ block.length) :
    Placed capacity (before ++ block.rest n ++ after) := by
  obtain ⟨placedBefore, placedRest, between⟩ := placed_append.mp placed
  obtain ⟨⟨-, bounded⟩, gap, placedAfter⟩ := placed_cons.mp placedRest
  by_cases left : n < block.length
  · have room := remainder left
    rw [Interval.rest, if_pos left, List.append_assoc, List.singleton_append]
    refine placed_append.mpr ⟨placedBefore, placed_cons.mpr ⟨⟨?_, ?_⟩, ?_, placedAfter⟩, ?_⟩
    · simp only
      omega
    · simp only [Interval.stop] at bounded ⊢
      omega
    · intro other mem
      have := gap other mem
      simp only [Interval.stop] at this ⊢
      omega
    · intro other mem other' mem'
      obtain rfl | mem' := List.mem_cons.mp mem'
      · exact (between other mem block (by simp)).trans (Nat.le_add_right _ _)
      · exact between other mem other' (by simp [mem'])
  · rw [Interval.rest, if_neg left, List.append_nil]
    exact placed_append.mpr
      ⟨placedBefore, placedAfter, fun other mem other' mem' => between other mem other' (by simp [mem'])⟩

/-- What is linked where the block was, once `n` bytes of it are taken. -/
def Heap.relink (heap : Heap) (before : List Interval) (block : Interval) (after : List Interval)
    (n : Nat) : Heap :=
  if n < block.length then
    (heap.writeFreeBlock (block.start + n)
      { size := block.length - n, next := headOf freeListEnd after }).link
        (lastStart freeListEnd before) (block.start + n)
  else heap.link (lastStart freeListEnd before) (headOf freeListEnd after)

section

variable (segment : Segment heap.memory heap.state.freeHead (before ++ block :: after) freeListEnd)
  (placed : Placed capacity (before ++ block :: after))

include segment placed

theorem relink_listed (small : capacity < size)
    (remainder : n < block.length → n + freeBlockSize ≤ block.length) :
    Listed heap (heap.relink before block after n) (cover (before ++ block :: after))
      (before ++ block.rest n ++ after) := by
  have carved := placed.carve remainder
  obtain ⟨mid, first, second⟩ := segment_append.mp segment
  obtain ⟨-, -, follows⟩ := second
  rw [follows.head_eq] at follows
  obtain ⟨placedBefore, placedRest, between⟩ := placed_append.mp placed
  obtain ⟨⟨large, -⟩, -, placedAfter⟩ := placed_cons.mp placedRest
  unfold Heap.relink
  by_cases left : n < block.length
  · rw [if_pos left]
    rw [Interval.rest, if_pos left, List.append_assoc, List.singleton_append] at carved ⊢
    refine (place_listed first follows carved small).mono ?_
    simp only [cover_append, cover_cons]
    refine Finset.union_subset_union_right (Finset.union_subset_union_left fun address => ?_)
    simp only [Interval.mem_points, Interval.stop]
    omega
  · rw [if_neg left, Interval.rest, if_neg left, List.append_nil]
    have linked := link_linked first placedBefore small (headOf_lt placedAfter small)
    refine ⟨segment_append.mpr ⟨_, linked.segment, follows.congr fun other mem address node => ?_⟩,
      fun address outside => ?_, linked.state⟩
    · refine linked.memory address fun other' mem' node' => ?_
      exact node_apart (placedBefore.large other' mem') (between other' mem' other (by simp [mem]))
        node' node
    · refine linked.memory address fun other mem node => outside ?_
      exact points_subset_cover (by simp [mem])
        (mem_points_of_inNode (placedBefore.large other mem) node)

/-- The header and the counters of a new allocation. -/
def Heap.recordAllocation (heap : Heap) (blockStart n userStart requestedSize : Nat) : Heap :=
  let heap := heap.writeHeader (userStart - headerSize)
    { magic := allocationMagic, blockStart, blockSize := n, requestedSize }
  { heap with
    state :=
      { heap.state with
        usedBytes := saturatingAdd heap.state.usedBytes n
        peakUsedBytes := max heap.state.peakUsedBytes (saturatingAdd heap.state.usedBytes n)
        liveAllocations := saturatingAdd heap.state.liveAllocations 1
        totalAllocations := saturatingAdd heap.state.totalAllocations 1 } }

theorem taken_of_relink (small : capacity < size)
    (behindHeader : block.start + headerSize ≤ userStart) (granular : n % wordAlign = 0)
    (within : n ≤ block.length) (remainder : n < block.length → n + freeBlockSize ≤ block.length)
    (fits : userStart + requestedSize ≤ block.start + n) :
    Taken heap ((heap.relink before block after n).recordAllocation block.start n userStart
      requestedSize) before block after userStart requestedSize n := by
  obtain ⟨-, placedRest, between⟩ := placed_append.mp placed
  obtain ⟨⟨-, bounded⟩, gap, -⟩ := placed_cons.mp placedRest
  have carved := placed.carve remainder
  have listed := relink_listed segment placed small remainder
  have headerWithin {address : Nat}
      (mem : address ∈ (Interval.mk (userStart - headerSize) headerSize).points) :
      block.start ≤ address ∧ address < block.start + n := by
    simp only [Interval.mem_points, Interval.stop] at mem
    omega
  have recorded : Listed heap
      ((heap.relink before block after n).writeHeader (userStart - headerSize)
        { magic := allocationMagic, blockStart := block.start, blockSize := n, requestedSize })
      (cover (before ++ block :: after)) (before ++ block.rest n ++ after) := by
    refine listed.writeHeader (fun address mem => ?_) fun other mem address node mem' => ?_
    · refine points_subset_cover (show block ∈ before ++ block :: after by simp) ?_
      have := headerWithin mem
      simp only [Interval.mem_points, Interval.stop]
      omega
    · have := headerWithin mem'
      have inside := mem_points_of_inNode (carved.large other mem) node
      simp only [List.append_assoc, List.mem_append] at mem
      rw [Interval.mem_points] at inside
      rcases mem with mem | mem | mem
      · have := between other mem block (by simp)
        omega
      · have := start_of_mem_rest mem
        omega
      · have := gap other mem
        simp only [Interval.stop] at this
        omega
  refine ⟨granular, within, remainder, fits, recorded.segment, recorded.memory, ?_, ?_⟩
  · simp only [Interval.stop, size] at bounded small
    exact readHeader_writeHeader _ _ (by simp [allocationMagic]) (by simp only; omega)
      (by simp only; omega) (by simp only; omega)
  · have kept := listed.state
    simp only [Heap.recordAllocation, Heap.writeHeader]
    rw [kept]

/-- A block that is large enough is cut behind the last word of the allocation. -/
theorem takeBlock_taken (small : capacity < size)
    (aligned : block.start % wordAlign = 0 ∧ block.length % wordAlign = 0)
    (behindHeader : block.start + headerSize ≤ userStart)
    (fits : userStart + requestedSize ≤ block.stop) :
    ∃ heap' n, heap.takeBlock (lastStart freeListEnd before) block.start
          { size := block.length, next := headOf freeListEnd after } block.stop userStart
          (userStart + requestedSize) requestedSize = some (userStart, heap') ∧
      Taken heap heap' before block after userStart requestedSize n := by
  have bounded := placed.bounded block (by simp)
  have whole : block.stop = block.start + block.length := rfl
  simp only [wordAlign] at aligned
  -- the end of the block is a multiple of eight, so rounding up neither overflows nor passes it
  obtain ⟨suffixStart, rounded⟩ : ∃ aligned, alignUp (userStart + requestedSize) wordAlign =
      some aligned := exists_alignUp (by simp only [wordAlign, size] at small ⊢; omega)
  obtain ⟨above, near, suffixAligned⟩ := of_alignUp (by decide) rounded
  simp only [wordAlign] at near suffixAligned
  have below : suffixStart ≤ block.stop := by omega
  by_cases splits : suffixStart ≤ block.stop ∧ block.stop - suffixStart ≥ freeBlockSize
  · obtain ⟨n, rfl⟩ : ∃ n, suffixStart = block.start + n := ⟨suffixStart - block.start, by omega⟩
    have cut : n < block.length := by
      simp only [freeBlockSize] at splits
      omega
    refine ⟨_, n, ?_, taken_of_relink segment placed small behindHeader
      (by simp only [wordAlign]; omega) cut.le (fun _ => by omega) above⟩
    rw [Heap.takeBlock, rounded]
    simp only [if_pos splits, Heap.relink, if_pos cut, Heap.recordAllocation]
    simp only [show block.start + n - block.start = n by omega,
      show block.stop - (block.start + n) = block.length - n by omega]
  · refine ⟨_, block.length, ?_, taken_of_relink segment placed small behindHeader
      (by simp only [wordAlign]; omega) le_rfl (fun less => absurd less (lt_irrefl _)) fits⟩
    rw [Heap.takeBlock, rounded]
    simp only [if_neg splits, Heap.relink, if_neg (lt_irrefl _), Heap.recordAllocation,
      show block.stop - block.start = block.length by omega]

end

/-- How a search through `after` ends. It goes past the blocks that do not fit, and leaves the heap
    alone or takes the front of the first that does. -/
def Searched (heap : Heap) (requestedSize alignment : Nat) (before after : List Interval)
    (result : Option (Option (Nat × Heap))) : Prop :=
  result = some none ∧ (∀ block ∈ after, ¬Fits requestedSize alignment block) ∨
    ∃ skipped block after' heap' n,
      after = skipped ++ block :: after' ∧
      (∀ other ∈ skipped, ¬Fits requestedSize alignment other) ∧
      Fits requestedSize alignment block ∧
      result = some (some (roundUp (block.start + headerSize) alignment, heap')) ∧
      Taken heap heap' (before ++ skipped) block after'
        (roundUp (block.start + headerSize) alignment) requestedSize n

theorem searchFreeList_cases {alignment fuel : Nat}
    (segment : Segment heap.memory heap.state.freeHead (before ++ after) freeListEnd)
    (placed : Placed capacity (before ++ after)) (small : capacity < size)
    (aligned : ∀ block ∈ after, block.start % wordAlign = 0 ∧ block.length % wordAlign = 0)
    (powerOfTwo : ∃ k, alignment = 2 ^ k) (enough : after.length < fuel) :
    Searched heap requestedSize alignment before after (heap.searchFreeList requestedSize alignment
      fuel (lastStart freeListEnd before) (headOf freeListEnd after)) := by
  induction after generalizing before fuel with
  | nil =>
    cases fuel with
    | zero => simp at enough
    | succ fuel => exact .inl ⟨if_pos rfl, nofun⟩
  | cons block rest ih =>
    cases fuel with
    | zero => simp at enough
    | succ fuel =>
      have isBlock : block ∈ before ++ block :: rest := by simp
      have node := segment.node
      have stop : checkedAdd block.start block.length = some block.stop :=
        checkedAdd_eq_some.mpr ⟨(placed.bounded block isBlock).trans_lt small, rfl⟩
      have bounded : ∀ other ∈ block :: rest, other.stop < size := fun other mem =>
        (placed.bounded other (List.mem_append_right _ mem)).trans_lt small
      have later : ∀ other ∈ block :: rest, block.start ≤ other.start := by
        obtain ⟨-, placedRest, -⟩ := placed_append.mp placed
        obtain ⟨-, gap, -⟩ := placed_cons.mp placedRest
        intro other mem
        rcases List.mem_cons.mp mem with rfl | mem
        · exact Nat.le_refl _
        · exact (Nat.le_add_right _ _).trans (gap other mem)
      have next := @ih (before ++ [block]) fuel (by simpa using segment)
        (by simpa using placed) (fun other mem => aligned other (by simp [mem]))
        (by simpa using enough)
      rw [lastStart_concat] at next
      have first : headOf freeListEnd (block :: rest) = block.start := rfl
      -- a block that does not fit is skipped
      have skip : ¬Fits requestedSize alignment block →
          Searched heap requestedSize alignment before (block :: rest) (heap.searchFreeList
            requestedSize alignment fuel block.start (headOf freeListEnd rest)) := by
        intro tooSmall
        rcases next with ⟨nothing, none⟩ | ⟨skipped, block', after', heap', n, rfl, none, next⟩
        · exact .inl ⟨nothing, List.forall_mem_cons.mpr ⟨tooSmall, none⟩⟩
        · refine .inr ⟨block :: skipped, block', after', heap', n, rfl,
            List.forall_mem_cons.mpr ⟨tooSmall, none⟩, ?_⟩
          rw [List.append_assoc, List.singleton_append] at next
          exact next
      simp only [Heap.searchFreeList, first, node, stop,
        if_neg (placed.start_lt_end small isBlock).ne]
      split
      · rename_i overflow
        refine .inl ⟨rfl, fun other mem => ?_⟩
        exact not_fits_of_size_le (size_le_of_no_place powerOfTwo overflow)
          (Nat.add_le_add_right (later other mem) _) (bounded other mem)
      · rename_i userStart place
        obtain ⟨bottom, added, rounded⟩ := Option.bind_eq_some_iff.mp place
        obtain ⟨-, rfl⟩ := checkedAdd_eq_some.mp added
        obtain rfl := eq_roundUp rounded
        have above : block.start + headerSize ≤ roundUp (block.start + headerSize) alignment := by
          obtain ⟨k, rfl⟩ := powerOfTwo
          exact le_roundUp (Nat.two_pow_pos k)
        split
        · rename_i overflow
          refine skip fun fits => ?_
          rw [checkedAdd, ite_eq_right_iff] at overflow
          exact absurd (overflow (Nat.lt_of_le_of_lt fits (bounded block (by simp)))) (by simp)
        · rename_i allocationEnd ends
          obtain ⟨-, rfl⟩ := checkedAdd_eq_some.mp ends
          split
          · rename_i fits
            obtain ⟨heap', n, taken, result⟩ := takeBlock_taken segment placed small
              (aligned block (by simp)) above fits
            rw [taken]
            refine .inr ⟨[], block, rest, heap', n, rfl, nofun, fits, rfl, ?_⟩
            rw [List.append_nil]
            exact result
          · rename_i tooSmall
            exact skip tooSmall

end

namespace Layout

/-- Where the user's bytes begin if the allocation is made in the block. -/
def userStart (layout : Layout) (block : Interval) : Nat :=
  roundUp (block.start + headerSize) (max layout.align wordAlign)

/-- The block can serve the request. -/
def Fits (layout : Layout) (block : Interval) : Prop :=
  HeapAllocator.Fits (max layout.size 1) (max layout.align wordAlign) block

instance (layout : Layout) (block : Interval) : Decidable (layout.Fits block) :=
  inferInstanceAs (Decidable (HeapAllocator.Fits _ _ _))

theorem powerOfTwo_max (layout : Layout) : ∃ k, max layout.align wordAlign = 2 ^ k := by
  obtain ⟨k, power⟩ := layout.powerOfTwo
  rcases Nat.le_total layout.align wordAlign with small | large
  · exact ⟨3, max_eq_right small⟩
  · exact ⟨k, (max_eq_left large).trans power⟩

theorem behindHeader (layout : Layout) (block : Interval) :
    block.start + headerSize ≤ layout.userStart block :=
  le_roundUp (lt_max_of_lt_right (by decide))

end Layout

end CodexOS.HeapAllocator
