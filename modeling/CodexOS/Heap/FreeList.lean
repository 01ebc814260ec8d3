import CodexOS.Heap.Allocator
import CodexOS.Lib.Intervals

/-! # The free list in memory

`Segment` reads a part of the free list from memory. The writes of the allocator
are writes of single nodes or links, and each changes the list in one place.
-/

namespace CodexOS.HeapAllocator

open Word64 ByteMemory Intervals

/-- Following the links from `head` visits these blocks and arrives at `tail`. -/
def Segment (memory : ByteMemory) : Nat → List Interval → Nat → Prop
  | head, [], tail => head = tail
  | head, block :: rest, tail =>
    head = block.start ∧ loadWord memory block.start = block.length ∧
      Segment memory (loadWord memory (block.start + 8)) rest tail

/-- The node of a block: the bytes in which it is linked. -/
def InNode (block : Interval) (address : Nat) : Prop :=
  block.start ≤ address ∧ address < block.start + freeBlockSize

section

variable {memory memory' : ByteMemory} {head tail : Nat} {l l' : List Interval}
  {block : Interval}

theorem segment_append :
    Segment memory head (l ++ l') tail ↔
      ∃ mid, Segment memory head l mid ∧ Segment memory mid l' tail := by
  induction l generalizing head with
  | nil => simp [Segment]
  | cons block rest ih =>
    simp only [List.cons_append, Segment, ih]
    constructor
    · rintro ⟨start, length, mid, first, second⟩
      exact ⟨mid, ⟨start, length, first⟩, second⟩
    · rintro ⟨mid, ⟨start, length, first⟩, second⟩
      exact ⟨start, length, mid, first, second⟩

theorem Segment.congr (segment : Segment memory head l tail)
    (same : ∀ block ∈ l, ∀ address, InNode block address → memory' address = memory address) :
    Segment memory' head l tail := by
  induction l generalizing head with
  | nil => exact segment
  | cons block rest ih =>
    obtain ⟨start, length, links⟩ := segment
    have node := same block (by simp)
    have first : loadWord memory' block.start = loadWord memory block.start :=
      loadWord_congr fun a lower upper => node a ⟨lower, by simp only [freeBlockSize]; omega⟩
    have second : loadWord memory' (block.start + 8) = loadWord memory (block.start + 8) :=
      loadWord_congr fun a lower upper => node a ⟨by omega, by simp only [freeBlockSize]; omega⟩
    refine ⟨start, first.trans length, ?_⟩
    rw [second]
    exact ih links fun block mem => same block (by simp [mem])

/-- Where the list goes on: its first block, or its end. -/
def headOf (tail : Nat) : List Interval → Nat
  | [] => tail
  | block :: _ => block.start

theorem Segment.head_eq (segment : Segment memory head l tail) : head = headOf tail l := by
  cases l with
  | nil => exact segment
  | cons block rest => exact segment.1

/-- The block whose link leads behind a part of the list; `first` if the part is empty. -/
def lastStart (first : Nat) : List Interval → Nat
  | [] => first
  | block :: rest => lastStart block.start rest

@[simp] theorem lastStart_concat (first : Nat) (before : List Interval) (block : Interval) :
    lastStart first (before ++ [block]) = block.start := by
  induction before generalizing first with
  | nil => rfl
  | cons other rest ih => exact ih other.start

theorem Segment.write (segment : Segment memory head l tail) (length : block.length < 2 ^ 64)
    (small : head < 2 ^ 64)
    (apart : ∀ other ∈ l, ∀ address, InNode other address → ¬InNode block address) :
    Segment (storeWords memory block.start [block.length, head]) block.start (block :: l) tail := by
  have size : loadWord (storeWords memory block.start [block.length, head]) (block.start + 8 * 0) =
      block.length := loadWord_storeWords rfl length
  have next : loadWord (storeWords memory block.start [block.length, head]) (block.start + 8 * 1) =
      head := loadWord_storeWords rfl small
  refine ⟨rfl, size, ?_⟩
  rw [show block.start + 8 = block.start + 8 * 1 by omega, next]
  refine segment.congr fun other mem address node => storeWords_of_outside ?_
  have := apart other mem address node
  simp only [InNode, freeBlockSize, List.length_cons, List.length_nil] at this ⊢
  omega

theorem Segment.node {heap : Heap} {before after : List Interval}
    (segment : Segment heap.memory head (before ++ block :: after) freeListEnd) :
    heap.readFreeBlock block.start =
      { size := block.length, next := headOf freeListEnd after } := by
  obtain ⟨mid, -, second⟩ := segment_append.mp segment
  obtain ⟨-, length, follows⟩ := second
  rw [Heap.readFreeBlock, length, follows.head_eq]

end

/-- Blocks in order inside the region, each large enough for a node. They may touch. -/
structure Placed (capacity : Nat) (blocks : List Interval) : Prop where
  ordered : blocks.Pairwise fun block block' => block.stop ≤ block'.start
  large : ∀ block ∈ blocks, freeBlockSize ≤ block.length
  bounded : ∀ block ∈ blocks, block.stop ≤ capacity

section

variable {capacity : Nat} {heap : Heap} {before after : List Interval} {block other : Interval}

theorem placed_append :
    Placed capacity (before ++ after) ↔
      Placed capacity before ∧ Placed capacity after ∧
        ∀ block ∈ before, ∀ block' ∈ after, block.stop ≤ block'.start := by
  constructor
  · intro placed
    obtain ⟨first, second, between⟩ := List.pairwise_append.mp placed.ordered
    refine ⟨⟨first, ?_, ?_⟩, ⟨second, ?_, ?_⟩, between⟩
    · exact fun block mem => placed.large block (List.mem_append_left _ mem)
    · exact fun block mem => placed.bounded block (List.mem_append_left _ mem)
    · exact fun block mem => placed.large block (List.mem_append_right _ mem)
    · exact fun block mem => placed.bounded block (List.mem_append_right _ mem)
  · rintro ⟨first, second, between⟩
    exact ⟨List.pairwise_append.mpr ⟨first.ordered, second.ordered, between⟩,
      List.forall_mem_append.mpr ⟨first.large, second.large⟩,
      List.forall_mem_append.mpr ⟨first.bounded, second.bounded⟩⟩

theorem placed_cons :
    Placed capacity (block :: after) ↔
      (freeBlockSize ≤ block.length ∧ block.stop ≤ capacity) ∧
        (∀ block' ∈ after, block.stop ≤ block'.start) ∧ Placed capacity after := by
  rw [← List.singleton_append, placed_append]
  constructor
  · rintro ⟨single, rest, gap⟩
    exact ⟨⟨single.large block (by simp), single.bounded block (by simp)⟩, gap block (by simp), rest⟩
  · rintro ⟨⟨large, bounded⟩, gap, rest⟩
    exact ⟨⟨List.pairwise_singleton _ _, by simpa using large, by simpa using bounded⟩, rest,
      by simpa using gap⟩

theorem Placed.merge (placed : Placed capacity (before ++ block :: other :: after))
    (touch : block.stop = other.start) :
    Placed capacity
      (before ++ { start := block.start, length := block.length + other.length } :: after) := by
  obtain ⟨placedBefore, placedRest, between⟩ := placed_append.mp placed
  obtain ⟨⟨large, -⟩, -, placedOther⟩ := placed_cons.mp placedRest
  obtain ⟨⟨-, bounded⟩, gap, placedAfter⟩ := placed_cons.mp placedOther
  have whole : (Interval.mk block.start (block.length + other.length)).stop = other.stop := by
    simp only [Interval.stop] at touch ⊢
    omega
  refine placed_append.mpr ⟨placedBefore, placed_cons.mpr ⟨⟨?_, ?_⟩, ?_, placedAfter⟩, ?_⟩
  · exact large.trans (Nat.le_add_right _ _)
  · exact whole.trans_le bounded
  · exact fun next mem => whole.trans_le (gap next mem)
  · intro first mem second mem'
    obtain rfl | mem' := List.mem_cons.mp mem'
    · exact between first mem block (by simp)
    · exact between first mem second (by simp [mem'])

theorem node_apart (large : freeBlockSize ≤ block.length) (follows : block.stop ≤ other.start)
    (node : InNode block address) : ¬InNode other address := by
  simp only [InNode, Interval.stop] at *
  omega

theorem mem_points_of_inNode (large : freeBlockSize ≤ block.length) (node : InNode block address) :
    address ∈ block.points := by
  simp only [InNode, Interval.mem_points, Interval.stop] at node ⊢
  omega

theorem Placed.start_lt_end (placed : Placed capacity before) (small : capacity < size)
    (mem : block ∈ before) : block.start < freeListEnd := by
  have bound := placed.bounded block mem
  have large := placed.large block mem
  simp only [Interval.stop, freeBlockSize, freeListEnd, maxValue] at *
  omega

/-- What `link` does to the part of the list in front of the link. -/
structure Linked (heap heap' : Heap) (before : List Interval) (target : Nat) : Prop where
  segment : Segment heap'.memory heap'.state.freeHead before target
  memory : ∀ address, (∀ block ∈ before, ¬InNode block address) →
    heap'.memory address = heap.memory address
  state : heap'.state = { heap.state with freeHead := heap'.state.freeHead }

/-- Redirecting the link behind a part of the list. -/
theorem link_linked (segment : Segment heap.memory heap.state.freeHead before tail)
    (placed : Placed capacity before) (small : capacity < size) (inRange : target < 2 ^ 64) :
    Linked heap (heap.link (lastStart freeListEnd before) target) before target := by
  obtain rfl | ⟨init, last, rfl⟩ := before.eq_nil_or_concat
  · exact ⟨rfl, fun _ _ => rfl, rfl⟩
  · rw [List.concat_eq_append] at *
    have isLast : last ∈ init ++ [last] := by simp
    have linked : heap.link (lastStart freeListEnd (init ++ [last])) target =
        { heap with memory := storeWords heap.memory (last.start + 8) [target] } := by
      rw [lastStart_concat, Heap.link, if_neg (placed.start_lt_end small isLast).ne]
    rw [linked]
    have outside (address : Nat) (free : ∀ block ∈ init ++ [last], ¬InNode block address) :
        storeWords heap.memory (last.start + 8) [target] address = heap.memory address := by
      refine storeWords_of_outside ?_
      have := free last (by simp)
      simp only [InNode, freeBlockSize, List.length_cons, List.length_nil] at this ⊢
      omega
    refine ⟨?_, outside, rfl⟩
    obtain ⟨mid, first, second⟩ := segment_append.mp segment
    obtain ⟨placedInit, -, between⟩ := placed_append.mp placed
    refine segment_append.mpr ⟨mid, first.congr fun block mem address node => ?_, ?_⟩
    · refine storeWords_of_outside ?_
      have follows := between block mem last (by simp)
      have large := placedInit.large block mem
      simp only [InNode, Interval.stop, freeBlockSize] at node follows large ⊢
      omega
    · obtain ⟨start, length, -⟩ := second
      have kept : loadWord (storeWords heap.memory (last.start + 8) [target]) last.start =
          loadWord heap.memory last.start :=
        loadWord_congr fun a lower upper => storeWords_of_outside (by omega)
      have next : loadWord (storeWords heap.memory (last.start + 8) [target])
          (last.start + 8 + 8 * 0) = target := loadWord_storeWords rfl inRange
      exact ⟨start, kept.trans length, next⟩

/-- Writing the node of a block that the list reaches behind `before`. -/
theorem writeNode_segment (first : Segment heap.memory heap.state.freeHead before block.start)
    (second : Segment heap.memory target after freeListEnd)
    (placed : Placed capacity (before ++ block :: after)) (small : capacity < size)
    (inRange : target < 2 ^ 64) :
    Segment (heap.writeFreeBlock block.start { size := block.length, next := target }).memory
      heap.state.freeHead (before ++ block :: after) freeListEnd := by
  obtain ⟨placedBefore, placedRest, between⟩ := placed_append.mp placed
  obtain ⟨⟨large, bounded⟩, gap, -⟩ := placed_cons.mp placedRest
  refine segment_append.mpr ⟨block.start, ?_, ?_⟩
  · refine first.congr fun other mem address node => storeWords_of_outside ?_
    have := node_apart (placedBefore.large other mem) (between other mem block (by simp)) node
    simp only [InNode, freeBlockSize, List.length_cons, List.length_nil] at this ⊢
    omega
  · refine second.write ?_ inRange fun other mem address node node' =>
      node_apart large (gap other mem) node' node
    simp only [Interval.stop, size] at bounded small
    omega

end

section

variable {capacity : Nat} {heap : Heap} {before after blocks : List Interval} {block : Interval}

theorem findPlace_eq (segment : Segment heap.memory head (before ++ after) freeListEnd)
    (placed : Placed capacity (before ++ after)) (small : capacity < size)
    (left : ∀ block ∈ before, block.start < place) (right : ∀ block ∈ after, place ≤ block.start)
    (enough : before.length < fuel) :
    heap.findPlace place fuel previous head =
      some (lastStart previous before, headOf freeListEnd after) := by
  induction before generalizing fuel previous head with
  | nil =>
    cases fuel with
    | zero => simp at enough
    | succ fuel =>
      have isHead : head = headOf freeListEnd after := segment.head_eq
      rw [Heap.findPlace, if_neg, isHead]
      · rfl
      · cases after with
        | nil => exact fun more => more.1 isHead
        | cons block rest =>
          have le := right block (by simp)
          exact fun more => absurd more.2 (by rw [isHead, headOf]; omega)
  | cons block rest ih =>
    cases fuel with
    | zero => simp at enough
    | succ fuel =>
      obtain ⟨rfl, -, links⟩ := segment
      have notEnd := (placed.start_lt_end small (show block ∈ _ by simp)).ne
      obtain ⟨-, -, placedRest⟩ := placed_cons.mp (List.cons_append ▸ placed)
      rw [Heap.findPlace, if_pos ⟨notEnd, left block (by simp)⟩]
      exact ih links placedRest (fun block mem => left block (by simp [mem]))
        (by simpa using enough)

/-- The heap has this free list, and differs from `origin` at most in `touched` and in the head of
    its list. -/
structure Listed (origin heap : Heap) (touched : Finset Nat) (blocks : List Interval) : Prop where
  segment : Segment heap.memory heap.state.freeHead blocks freeListEnd
  memory : ∀ address, address ∉ touched → heap.memory address = origin.memory address
  state : heap.state = { origin.state with freeHead := heap.state.freeHead }

theorem headOf_lt (placed : Placed capacity after) (small : capacity < size) :
    headOf freeListEnd after < 2 ^ 64 := by
  cases after with
  | nil => simp [headOf, freeListEnd, maxValue, size]
  | cons block rest =>
    have less := placed.start_lt_end small (show block ∈ _ by simp)
    simp only [headOf, freeListEnd, maxValue, size] at *
    omega

theorem Listed.rewrite (listed : Listed origin heap touched (before ++ old :: tail))
    (second : Segment heap.memory target after freeListEnd)
    (placed : Placed capacity (before ++ block :: after)) (small : capacity < size)
    (inRange : target < 2 ^ 64) (same : block.start = old.start) (inside : old.points ⊆ touched)
    (large : freeBlockSize ≤ old.length) :
    Listed origin (heap.writeFreeBlock block.start { size := block.length, next := target }) touched
      (before ++ block :: after) := by
  obtain ⟨mid, first, rest⟩ := segment_append.mp listed.segment
  obtain rfl : mid = block.start := rest.1.trans same.symm
  refine ⟨writeNode_segment first second placed small inRange, fun address outside => ?_, listed.state⟩
  rw [← listed.memory address outside]
  refine storeWords_of_outside ?_
  by_contra within
  refine outside (inside (mem_points_of_inNode large ?_))
  simp only [InNode, freeBlockSize, List.length_cons, List.length_nil] at within ⊢
  omega

/-- A block is put between two parts of the list, instead of what led from one to the other. -/
theorem place_listed (first : Segment heap.memory heap.state.freeHead before mid)
    (second : Segment heap.memory (headOf freeListEnd after) after freeListEnd)
    (placed : Placed capacity (before ++ block :: after)) (small : capacity < size) :
    Listed heap
      ((heap.writeFreeBlock block.start
        { size := block.length, next := headOf freeListEnd after }).link
          (lastStart freeListEnd before) block.start)
      (cover (before ++ block :: after)) (before ++ block :: after) := by
  obtain ⟨placedBefore, placedRest, between⟩ := placed_append.mp placed
  obtain ⟨⟨large, bounded⟩, gap, placedAfter⟩ := placed_cons.mp placedRest
  have length : block.length < 2 ^ 64 := by
    simp only [Interval.stop, size] at bounded small
    omega
  have start : block.start < 2 ^ 64 := by
    simp only [Interval.stop, size] at bounded small
    omega
  have kept (address : Nat) (outside : ¬InNode block address) :
      (heap.writeFreeBlock block.start
        { size := block.length, next := headOf freeListEnd after }).memory address =
        heap.memory address := by
    refine storeWords_of_outside ?_
    simp only [InNode, freeBlockSize, List.length_cons, List.length_nil] at outside ⊢
    omega
  have first' : Segment (heap.writeFreeBlock block.start
      { size := block.length, next := headOf freeListEnd after }).memory
      heap.state.freeHead before mid :=
    first.congr fun other mem address node => kept address
      (node_apart (placedBefore.large other mem) (between other mem block (by simp)) node)
  have second' : Segment (heap.writeFreeBlock block.start
      { size := block.length, next := headOf freeListEnd after }).memory block.start
      (block :: after) freeListEnd :=
    second.write length (headOf_lt placedAfter small) fun other mem address node node' =>
      node_apart large (gap other mem) node' node
  have linked := link_linked first' placedBefore small start
  refine ⟨segment_append.mpr ⟨_, linked.segment, ?_⟩, fun address outside => ?_, linked.state⟩
  · refine second'.congr fun other mem address node => linked.memory address fun block' mem' node' => ?_
    exact node_apart (placedBefore.large block' mem') (between block' mem' other mem) node' node
  · rw [linked.memory, kept]
    · exact fun node => outside (points_subset_cover (by simp) (mem_points_of_inNode large node))
    · intro other mem node
      exact outside (points_subset_cover (by simp [mem])
        (mem_points_of_inNode (placedBefore.large other mem) node))

theorem joinNext_listed (listed : Listed origin heap touched (before ++ block :: after))
    (placed : Placed capacity (before ++ block :: after)) (small : capacity < size)
    (inside : block.points ⊆ touched) :
    Listed origin (heap.joinNext block.start block.length (headOf freeListEnd after)) touched
        (before ++ (absorb block after).1 :: (absorb block after).2) ∧
      Placed capacity (before ++ (absorb block after).1 :: (absorb block after).2) := by
  obtain ⟨-, placedRest, -⟩ := placed_append.mp placed
  obtain ⟨⟨large, bounded⟩, -, placedAfter⟩ := placed_cons.mp placedRest
  have stop : saturatingAdd block.start block.length = block.stop :=
    saturatingAdd_of_lt (bounded.trans_lt small)
  unfold Heap.joinNext
  cases after with
  | nil =>
    rw [if_neg fun more => more.1 rfl]
    exact ⟨listed, placed⟩
  | cons next rest =>
    obtain ⟨⟨-, nextBounded⟩, -, -⟩ := placed_cons.mp placedAfter
    by_cases touch : block.stop = next.start
    · have notEnd := (placedAfter.start_lt_end small (show next ∈ next :: rest by simp)).ne
      have merges : headOf freeListEnd (next :: rest) ≠ freeListEnd ∧
          saturatingAdd block.start block.length = headOf freeListEnd (next :: rest) :=
        ⟨notEnd, stop.trans touch⟩
      have joined := placed.merge touch
      obtain ⟨mid, -, rest'⟩ := segment_append.mp listed.segment
      obtain ⟨-, -, -, nextLength, links⟩ := rest'
      have sum : saturatingAdd block.length (heap.readFreeBlock next.start).size =
          block.length + next.length := by
        change saturatingAdd block.length (loadWord heap.memory next.start) = _
        rw [nextLength]
        refine saturatingAdd_of_lt ?_
        simp only [Interval.stop] at touch nextBounded
        omega
      rw [if_pos merges, absorb, if_pos touch]
      simp only [headOf, sum]
      exact ⟨listed.rewrite links joined small (loadWord_lt _ _) rfl inside large, joined⟩
    · have apart : ¬(headOf freeListEnd (next :: rest) ≠ freeListEnd ∧
          saturatingAdd block.start block.length = headOf freeListEnd (next :: rest)) :=
        fun more => touch (stop.symm.trans more.2)
      rw [if_neg apart, absorb, if_neg touch]
      exact ⟨listed, placed⟩

theorem start_absorb (block : Interval) (after : List Interval) :
    (absorb block after).1.start = block.start := by
  cases after with
  | nil => rfl
  | cons next rest =>
    simp only [absorb]
    split <;> rfl

theorem joinPrevious_listed (listed : Listed origin heap touched (before ++ last :: block :: after))
    (placed : Placed capacity (before ++ last :: block :: after)) (small : capacity < size)
    (inside : last.points ⊆ touched) (touch : last.stop = block.start) :
    Listed origin (heap.joinPrevious last.start block.start) touched
      (before ++ { start := last.start, length := last.length + block.length } :: after) := by
  obtain ⟨-, placedRest, -⟩ := placed_append.mp placed
  obtain ⟨⟨large, bounded⟩, -, placedBlock⟩ := placed_cons.mp placedRest
  obtain ⟨⟨-, blockBounded⟩, -, -⟩ := placed_cons.mp placedBlock
  have notEnd := (placed.start_lt_end small (show last ∈ before ++ last :: _ by simp)).ne
  obtain ⟨mid, -, rest⟩ := segment_append.mp listed.segment
  obtain ⟨-, lastLength, -, blockLength, links⟩ := rest
  have joined := placed.merge touch
  have meets : saturatingAdd last.start (heap.readFreeBlock last.start).size = block.start := by
    change saturatingAdd last.start (loadWord heap.memory last.start) = _
    rw [lastLength, ← touch]
    exact saturatingAdd_of_lt (bounded.trans_lt small)
  have sum : saturatingAdd (heap.readFreeBlock last.start).size
      (heap.readFreeBlock block.start).size = last.length + block.length := by
    change saturatingAdd (loadWord heap.memory last.start) (loadWord heap.memory block.start) = _
    rw [lastLength, blockLength]
    refine saturatingAdd_of_lt ?_
    simp only [Interval.stop] at touch blockBounded
    omega
  rw [Heap.joinPrevious, if_pos notEnd, if_pos meets]
  simp only [sum]
  exact listed.rewrite links joined small (loadWord_lt _ _) rfl inside large

theorem joinPrevious_apart (listed : Listed origin heap touched (before ++ block :: after))
    (placed : Placed capacity (before ++ block :: after)) (small : capacity < size)
    (apart : ∀ other ∈ before, other.stop < block.start) :
    heap.joinPrevious (lastStart freeListEnd before) block.start = heap := by
  obtain rfl | ⟨init, last, rfl⟩ := before.eq_nil_or_concat
  · exact if_neg fun more => more rfl
  · simp only [List.concat_eq_append, List.append_assoc, List.singleton_append] at *
    have isLast : last ∈ init ++ last :: block :: after := by simp
    obtain ⟨mid, -, rest⟩ := segment_append.mp listed.segment
    obtain ⟨-, lastLength, -⟩ := rest
    have misses : saturatingAdd last.start (heap.readFreeBlock last.start).size ≠ block.start := by
      change saturatingAdd last.start (loadWord heap.memory last.start) ≠ _
      rw [lastLength, saturatingAdd_of_lt ((placed.bounded last isLast).trans_lt small)]
      exact (apart last (by simp)).ne
    rw [lastStart_concat, Heap.joinPrevious, if_pos (placed.start_lt_end small isLast).ne,
      if_neg misses]

theorem placed_of_separated (separated : Separated blocks)
    (large : ∀ block ∈ blocks, freeBlockSize ≤ block.length)
    (bounded : ∀ block ∈ blocks, block.stop ≤ capacity) : Placed capacity blocks :=
  ⟨separated.apart.imp fun less => less.le, large, bounded⟩

section

variable (segment : Segment heap.memory heap.state.freeHead blocks freeListEnd)
  (separated : Separated blocks) (placed : Placed capacity blocks) (small : capacity < size)
  (large : freeBlockSize ≤ block.length) (bounded : block.stop ≤ capacity)
  (new : Disjoint block.points (cover blocks)) (enough : blocks.length < capacity)

include segment separated placed small large bounded new enough

/-- The steps of `insert_free_block`, around the place of the block. -/
theorem insertFreeBlock_eq :
    ∃ before after, blocks = before ++ after ∧
      (∀ other ∈ before, other.stop ≤ block.start) ∧ (∀ other ∈ after, block.stop ≤ other.start) ∧
      Placed capacity (before ++ block :: after) ∧
      heap.insertFreeBlock capacity block.start block.length = some
        ((((heap.writeFreeBlock block.start
          { size := block.length, next := headOf freeListEnd after }).link
            (lastStart freeListEnd before) block.start).joinNext block.start block.length
              (headOf freeListEnd after)).joinPrevious (lastStart freeListEnd before)
                block.start) := by
  have nonempty : 0 < block.length := by
    simp only [freeBlockSize] at large
    omega
  obtain ⟨before, after, rfl, left, right⟩ := separated.exists_place nonempty new
  obtain ⟨placedBefore, placedAfter, between⟩ := placed_append.mp placed
  have placed' : Placed capacity (before ++ block :: after) := by
    refine placed_append.mpr
      ⟨placedBefore, placed_cons.mpr ⟨⟨large, bounded⟩, right, placedAfter⟩, ?_⟩
    intro other mem other' mem'
    obtain rfl | mem' := List.mem_cons.mp mem'
    · exact left other mem
    · exact between other mem other' mem'
  refine ⟨before, after, rfl, left, right, placed', ?_⟩
  have found : heap.findPlace block.start capacity freeListEnd heap.state.freeHead =
      some (lastStart freeListEnd before, headOf freeListEnd after) := by
    refine findPlace_eq segment placed small (fun other mem => ?_) (fun other mem => ?_) ?_
    · have := placedBefore.large other mem
      have := left other mem
      simp only [Interval.stop, freeBlockSize] at *
      omega
    · have := right other mem
      simp only [Interval.stop] at this
      omega
    · rw [List.length_append] at enough
      omega
  unfold Heap.insertFreeBlock
  rw [found]

/-- A block that is free again is joined into the list. -/
theorem insertFreeBlock_listed :
    ∃ heap', heap.insertFreeBlock capacity block.start block.length = some heap' ∧
      Listed heap heap' (block.points ∪ cover blocks) (join block blocks) := by
  have nonempty : 0 < block.length := by
    simp only [freeBlockSize] at large
    omega
  obtain ⟨before, after, rfl, left, right, placed', steps⟩ :=
    insertFreeBlock_eq segment separated placed small large bounded new enough
  obtain ⟨separatedBefore, -, -⟩ := separated_append.mp separated
  have touched : cover (before ++ block :: after) = block.points ∪ cover (before ++ after) := by
    simp only [cover_append, cover_cons, Finset.union_left_comm]
  obtain ⟨mid, leads, follows⟩ := segment_append.mp segment
  rw [follows.head_eq] at follows
  have first := place_listed leads follows placed' small
  rw [touched] at first
  obtain ⟨second, placed''⟩ := joinNext_listed first placed' small Finset.subset_union_left
  have start : (absorb block after).1.start = block.start := start_absorb block after
  rw [steps]
  refine ⟨_, rfl, ?_⟩
  by_cases touching : ∃ init last, before = init ++ [last] ∧ last.stop = block.start
  · obtain ⟨init, last, rfl, touch⟩ := touching
    simp only [List.append_assoc, List.singleton_append, lastStart_concat] at *
    have joined := joinPrevious_listed second placed'' small
      ((points_subset_cover (by simp)).trans Finset.subset_union_right) (touch.trans start.symm)
    have ends (other : Interval) (mem : other ∈ init) : other.stop < block.start := by
      have := (separated_append.mp separatedBefore).2.2 other mem last (by simp)
      simp only [Interval.stop] at touch this ⊢
      omega
    have stops : (Interval.mk last.start (last.length + block.length)).stop = block.stop := by
      simp only [Interval.stop] at touch ⊢
      omega
    rw [join_append ends, join_of_touched touch nonempty,
      join_of_le fun other mem => stops.trans_le (right other mem), absorb_grow touch]
    rwa [start] at joined
  · have ends (other : Interval) (mem : other ∈ before) : other.stop < block.start := by
      refine (left other mem).lt_of_ne fun touch => touching ?_
      -- a block behind this one would lie between the two
      obtain ⟨init, rest, rfl⟩ := List.append_of_mem mem
      cases rest with
      | nil => exact ⟨init, other, rfl, touch⟩
      | cons next rest =>
        have gap := (separated_cons.mp (separated_append.mp separatedBefore).2.1).2.1 next (by simp)
        have le := left next (by simp)
        simp only [Interval.stop] at touch gap le
        omega
    have apart := joinPrevious_apart second placed'' small fun other mem =>
      (ends other mem).trans_eq start.symm
    rw [start] at apart
    rw [apart, join_append ends, join_of_le right]
    exact second

end

end

end CodexOS.HeapAllocator
