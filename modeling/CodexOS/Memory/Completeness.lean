import CodexOS.Memory.Tidy

/-! # Nothing is lost by `init`

A reserved range splits at most one span in two, and regions that do not overlap have no
such range in common. So the tables have room for everything: each whole page of usable
memory that no reserved range touches is in a region, and some run hands it out.
-/

namespace CodexOS.Memory

open Word64 Intervals

/-! ## Cutting one span -/

section

variable {reservedStart reservedEnd low high : Nat} {span : RegionSpan} {spans : List RegionSpan}

/-- The part between the two addresses is in the span. -/
def RegionSpan.Has (span : RegionSpan) (low high : Nat) : Prop :=
  span.start ≤ low ∧ high ≤ span.stop

/-- What a range does not touch stays in one piece. -/
theorem has_spanPieces (nonempty : low < high) (has : span.Has low high)
    (apart : high ≤ reservedStart ∨ reservedEnd ≤ low) :
    ∃ piece ∈ spanPieces reservedStart reservedEnd span, piece.Has low high := by
  obtain ⟨starts, ends⟩ := has
  have notEmpty : span.isEmpty = false := by
    simp only [RegionSpan.isEmpty, decide_eq_false_iff_not]
    omega
  unfold spanPieces RegionSpan.Has
  rw [notEmpty, if_neg Bool.false_ne_true]
  dsimp only
  split
  · exact ⟨span, List.mem_singleton.mpr rfl, starts, ends⟩
  rcases apart with before | behind
  · rw [if_pos (by omega)]
    exact ⟨_, List.mem_append_left _ (List.mem_singleton.mpr rfl), starts, by dsimp only; omega⟩
  · rw [if_pos (c := min span.stop reservedEnd < span.stop) (by omega)]
    exact ⟨_, List.mem_append_right _ (List.mem_singleton.mpr rfl), by dsimp only; omega, ends⟩

theorem nonempty_of_mem_spanPieces (mem : piece ∈ spanPieces reservedStart reservedEnd span) :
    piece.start < piece.stop := by
  unfold spanPieces at mem
  split at mem
  · cases mem
  next nonempty =>
  simp only [RegionSpan.isEmpty, decide_eq_true_eq, not_le] at nonempty
  dsimp only at mem
  split at mem
  · rw [List.mem_singleton.mp mem]
    exact nonempty
  · rcases List.mem_append.mp mem with mem | mem
    · split at mem
      · rw [List.mem_singleton.mp mem]
        assumption
      · cases mem
    · split at mem
      · rw [List.mem_singleton.mp mem]
        assumption
      · cases mem

/-- A range lies between two addresses, without touching them. -/
def Splits (reservedStart reservedEnd low high : Nat) : Prop :=
  low < reservedStart ∧ reservedStart < reservedEnd ∧ reservedEnd < high

instance : Decidable (Splits reservedStart reservedEnd low high) :=
  inferInstanceAs (Decidable (_ ∧ _ ∧ _))

theorem length_spanPieces (reservedStart reservedEnd : Nat) (span : RegionSpan) :
    (spanPieces reservedStart reservedEnd span).length ≤
      1 + if Splits reservedStart reservedEnd span.start span.stop then 1 else 0 := by
  unfold spanPieces
  dsimp only
  by_cases split : Splits reservedStart reservedEnd span.start span.stop
  · rw [if_pos split]
    split_ifs <;> simp
  · rw [if_neg split]
    unfold Splits at split
    split_ifs <;> simp
    omega

/-- Of spans in order, only one is split. -/
theorem length_pieces (ordered : spans.Pairwise fun p q => p.stop ≤ q.start)
    (within : ∀ span ∈ spans, low ≤ span.start ∧ span.stop ≤ high) :
    (spans.flatMap (spanPieces reservedStart reservedEnd)).length ≤
      spans.length + if Splits reservedStart reservedEnd low high then 1 else 0 := by
  induction spans generalizing low with
  | nil => exact Nat.zero_le _
  | cons span rest ih =>
    obtain ⟨before, ordered'⟩ := List.pairwise_cons.mp ordered
    obtain ⟨⟨starts, ends⟩, others⟩ := List.forall_mem_cons.mp within
    have here := length_spanPieces reservedStart reservedEnd span
    rw [List.flatMap_cons, List.length_append, List.length_cons]
    by_cases split : Splits reservedStart reservedEnd span.start span.stop
    · -- The range ends before the other spans start.
      have later := @ih span.stop ordered' fun other mem => ⟨before other mem, (others other mem).2⟩
      rw [if_pos split] at here
      rw [if_neg (by unfold Splits at *; omega)] at later
      rw [if_pos (by unfold Splits at *; omega)]
      omega
    · have later := ih ordered' others
      rw [if_neg split] at here
      omega

/-- With room in the table all pieces are kept. -/
theorem foldl_pushSpan_room (nonempty : ∀ piece ∈ pieces, piece.start < piece.stop)
    (room : spans.length + pieces.length ≤ maxReservedMemoryRanges + 1) :
    pieces.foldl pushSpan spans = spans ++ pieces := by
  induction pieces generalizing spans with
  | nil => exact (List.append_nil _).symm
  | cons piece rest ih =>
    obtain ⟨here, others⟩ := List.forall_mem_cons.mp nonempty
    rw [List.length_cons] at room
    have pushed : pushSpan spans piece = spans ++ [piece] := by
      unfold pushSpan RegionSpan.isEmpty
      rw [if_neg (by simp; omega)]
    rw [List.foldl_cons, pushed, ih others (by simp; omega), List.append_assoc,
      List.singleton_append]

end

/-! ## Cutting all ranges -/

section

variable {low high first last : Nat} {active : List RegionSpan} {reserved : List ReservedMemoryRange}

/-- The first page of a range, and the end of its last page. -/
def hullStart (range : ReservedMemoryRange) : Nat :=
  alignDown range.start.toNat

def hullEnd (range : ReservedMemoryRange) : Nat :=
  alignUp range.stop

/-- The range is within the part of memory, and splits it. -/
def SplitsPart (low high : Nat) (range : ReservedMemoryRange) : Prop :=
  range.length ≠ 0 ∧ Splits (hullStart range) (hullEnd range) low high

instance : DecidablePred (SplitsPart low high) := fun _ =>
  inferInstanceAs (Decidable (_ ∧ _))

/-- The part between the two addresses is apart from the pages of a range. -/
def ApartFrom (first last : Nat) (range : ReservedMemoryRange) : Prop :=
  range.length ≠ 0 → last ≤ hullStart range ∨ hullEnd range ≤ first

/-- The table has room for all spans, each range adds at most one, and what no range touches stays
    in one span. -/
theorem cutReserved_complete (ordered : active.Pairwise fun p q => p.stop ≤ q.start)
    (within : ∀ span ∈ active, low ≤ span.start ∧ span.stop ≤ high)
    (room : active.length + reserved.length ≤ maxReservedMemoryRanges + 1) :
    (cutReserved active reserved).length ≤
        active.length + reserved.countP (fun range => SplitsPart low high range) ∧
      ∀ first last, first < last → (∀ range ∈ reserved, ApartFrom first last range) →
        (∃ span ∈ active, span.Has first last) →
        ∃ span ∈ cutReserved active reserved, span.Has first last := by
  induction reserved generalizing active with
  | nil => exact ⟨Nat.le_refl _, fun _ _ _ _ has => has⟩
  | cons range reserved ih =>
    rw [List.length_cons] at room
    have skipped := ih ordered within (by omega)
    have more : reserved.countP (fun range => SplitsPart low high range) ≤
        (range :: reserved).countP (fun range => SplitsPart low high range) := by
      rw [List.countP_cons]
      exact Nat.le_add_right _ _
    unfold cutReserved
    split
    · exact ⟨skipped.1.trans (by omega), fun first last proper apart =>
        skipped.2 first last proper (List.forall_mem_cons.mp apart).2⟩
    next counted =>
    dsimp only
    split
    · exact ⟨skipped.1.trans (by omega), fun first last proper apart =>
        skipped.2 first last proper (List.forall_mem_cons.mp apart).2⟩
    next proper =>
    have few := @length_pieces (hullStart range) (hullEnd range) low high active ordered within
    have kept : (active.flatMap (spanPieces (hullStart range) (hullEnd range))).foldl pushSpan [] =
        active.flatMap (spanPieces (hullStart range) (hullEnd range)) := by
      refine foldl_pushSpan_room (fun piece mem => ?_) ?_
      · obtain ⟨span, -, isPiece⟩ := List.mem_flatMap.mp mem
        exact nonempty_of_mem_spanPieces isPiece
      · rw [List.length_nil]
        split at few <;> omega
    have inside : ∀ piece ∈ active.flatMap (spanPieces (hullStart range) (hullEnd range)),
        low ≤ piece.start ∧ piece.stop ≤ high := by
      intro piece mem
      obtain ⟨span, isSpan, isPiece⟩ := List.mem_flatMap.mp mem
      have bounds := of_mem_spanPieces isPiece
      have := within span isSpan
      omega
    obtain ⟨count, stays⟩ := ih (pairwise_pieces ordered) inside (by split at few <;> omega)
    rw [← List.foldl_flatMap, show alignDown range.start.toNat = hullStart range from rfl,
      show alignUp range.stop = hullEnd range from rfl, kept]
    refine ⟨?_, fun first last proper apart has => ?_⟩
    · split
      · rename_i none
        rw [List.isEmpty_iff.mp none]
        exact Nat.zero_le _
      · refine count.trans ?_
        rw [List.countP_cons]
        simp only [SplitsPart, counted, ne_eq, not_false_eq_true, true_and, decide_eq_true_eq]
        omega
    · obtain ⟨here, others⟩ := List.forall_mem_cons.mp apart
      obtain ⟨span, isSpan, has⟩ := has
      obtain ⟨piece, isPiece, has'⟩ := has_spanPieces proper has (here counted)
      have mem := List.mem_flatMap.mpr ⟨span, isSpan, isPiece⟩
      rw [if_neg (by rw [List.isEmpty_iff]; exact List.ne_nil_of_mem mem)]
      exact stays first last proper others ⟨piece, mem, has'⟩

end

/-! ## The regions of `init` -/

section

variable {bootInfo : BootInfo} {region : MemoryRegion} {kind : MemoryRegionKind} {span : RegionSpan}
  {allocator : PhysicalPageAllocator} {page : Nat}

/-- Of lists that are apart, the elements with a mark in common are counted once. -/
theorem sum_countP_le {α β : Type} {as : List α} {mark : α → β → Prop}
    [∀ a, DecidablePred (mark a)]
    (apart : as.Pairwise fun a a' => ∀ b, ¬(mark a b ∧ mark a' b)) (bs : List β) :
    (as.map fun a => bs.countP (fun b => mark a b)).sum ≤ bs.length := by
  induction as generalizing bs with
  | nil => exact Nat.zero_le _
  | cons a as ih =>
    obtain ⟨alone, apart'⟩ := List.pairwise_cons.mp apart
    have rest := ih apart' (bs.filter fun b => ¬mark a b)
    -- what the first one marks, the others do not
    have same : (as.map fun a' => (bs.filter fun b => ¬mark a b).countP (fun b => mark a' b)) =
        as.map fun a' => bs.countP (fun b => mark a' b) := by
      refine List.map_congr_left fun a' mem => ?_
      rw [List.countP_filter]
      refine List.countP_congr fun b _ => ?_
      have := alone a' mem b
      simp only [Bool.and_eq_true, decide_eq_true_eq]
      tauto
    have all := bs.length_eq_countP_add_countP (fun b => decide (mark a b))
    rw [same, ← List.countP_eq_length_filter] at rest
    rw [List.map_cons, List.sum_cons]
    simp only [decide_eq_true_eq, decide_not] at all rest ⊢
    omega

theorem length_candidateRegions (bootInfo : BootInfo) (region : MemoryRegion) :
    (candidateRegions bootInfo region).length ≤
      1 + bootInfo.reservedMemory.countP
        (fun range => SplitsPart region.start.toNat region.stop range) := by
  unfold candidateRegions
  split
  swap
  · exact Nat.zero_le _
  have ranges := bootInfo.rangesFit
  have few := (@cutReserved_complete region.start.toNat region.stop
    [{ start := region.start.toNat, stop := region.stop }] bootInfo.reservedMemory
    (List.pairwise_singleton _ _) (by simp) (by simp; omega)).1
  rw [← List.filterMap_eq_flatMap_toList]
  exact (List.length_filterMap_le _ _).trans few

theorem regions_init (disjoint : DisjointRegions bootInfo) :
    (PhysicalPageAllocator.init bootInfo).regions =
      bootInfo.memoryRegions.flatMap (candidateRegions bootInfo) := by
  refine (init_grown bootInfo).all ?_
  have apart : bootInfo.memoryRegions.Pairwise fun region region' => ∀ range,
      ¬(SplitsPart region.start.toNat region.stop range ∧
        SplitsPart region'.start.toNat region'.stop range) := by
    refine disjoint.imp fun {region region'} apart range => ?_
    rintro ⟨⟨-, lower, proper, upper⟩, -, lower', -, upper'⟩
    exact apart (hullStart range)
      ⟨⟨lower.le, proper.trans upper⟩, lower'.le, proper.trans upper'⟩
  have split := sum_countP_le apart bootInfo.reservedMemory
  have few : (bootInfo.memoryRegions.flatMap (candidateRegions bootInfo)).length ≤
      bootInfo.memoryRegions.length + bootInfo.reservedMemory.length := by
    rw [List.length_flatMap]
    refine (List.sum_le_sum fun region _ => length_candidateRegions bootInfo region).trans ?_
    rw [List.sum_map_add, List.map_const', List.sum_replicate_nat, Nat.mul_one]
    exact Nat.add_le_add_left split _
  have regionsFit := bootInfo.regionsFit
  have rangesFit := bootInfo.rangesFit
  change 0 + _ ≤ _
  unfold maxAllocatorRegions
  omega

def WholePage (bootInfo : BootInfo) (page : Nat) : Prop :=
  page % pageSize = 0 ∧ ∃ region ∈ bootInfo.memoryRegions,
    bootInfo.firmwareMode.regionIsCurrentlyUsable region.kind = true ∧
      region.start.toNat ≤ page ∧ page + pageSize ≤ region.stop

def OpenPage (bootInfo : BootInfo) (page : Nat) : Prop :=
  ∀ address, page ≤ address → address < page + pageSize → ¬Reserved bootInfo address

/-- Whether a range touches a page does not depend on the rounding. -/
theorem OpenPage.apart (isOpen : OpenPage bootInfo page) (aligned : page % pageSize = 0)
    (bounded : page + pageSize < size) :
    ∀ range ∈ bootInfo.reservedMemory, ApartFrom page (page + pageSize) range := by
  intro range mem nonempty
  have size_pos : 0 < pageSize := by decide
  have positive : range.length.toNat ≠ 0 := fun zero => nonempty (UInt64.toNat_inj.mp zero)
  have missed : page + pageSize ≤ range.start.toNat ∨
      range.start.toNat + range.length.toNat ≤ page := by
    by_contra touched
    exact isOpen (max page range.start.toNat) (Nat.le_max_left _ _) (by omega)
      ⟨range, mem, Nat.le_max_right _ _, by omega⟩
  unfold hullStart hullEnd
  simp only [alignDown, alignUp, ReservedMemoryRange.stop, saturatingAdd, maxValue, size,
    pageSize] at *
  omega

theorem regionOf_has (aligned : page % pageSize = 0) (has : span.Has page (page + pageSize))
    (bounded : page + pageSize < size) :
    ∃ cursor, regionOf kind span = some cursor ∧
      (pageRange page 1).points ⊆ cursor.area.points := by
  obtain ⟨lower, upper⟩ := has
  have starts : alignUp span.start ≤ page ∧ alignUp span.start % pageSize = 0 := by
    simp only [alignDown, alignUp, saturatingAdd, maxValue, size, pageSize] at *
    omega
  have ends : page + pageSize ≤ alignDown span.stop ∧ alignDown span.stop % pageSize = 0 := by
    simp only [alignDown, pageSize] at *
    omega
  have positive : 0 < pageSize := by decide
  unfold regionOf
  refine ⟨_, if_neg (by omega), fun address inside => ?_⟩
  rw [mem_pageRange] at inside
  rw [Interval.mem_points, Interval.stop, RegionCursor.area]
  dsimp only
  generalize alignUp span.start = start at *
  generalize alignDown span.stop = stop at *
  unfold pageSize at *
  omega

theorem page_mem_init (disjoint : DisjointRegions bootInfo) (whole : WholePage bootInfo page)
    (isOpen : OpenPage bootInfo page) :
    ∃ cursor ∈ (PhysicalPageAllocator.init bootInfo).regions,
      (pageRange page 1).points ⊆ cursor.area.points := by
  obtain ⟨aligned, region, inMap, usable, lower, upper⟩ := whole
  have bounded := upper.trans_lt (regionStop_lt region)
  have ranges := bootInfo.rangesFit
  obtain ⟨span, isSpan, has⟩ := (@cutReserved_complete region.start.toNat region.stop
    [{ start := region.start.toNat, stop := region.stop }] bootInfo.reservedMemory
    (List.pairwise_singleton _ _) (by simp) (by simp; omega)).2 page (page + pageSize)
    (Nat.lt_add_of_pos_right (by decide)) (isOpen.apart aligned bounded)
    ⟨_, List.mem_singleton_self _, lower, upper⟩
  obtain ⟨cursor, isRegion, inside⟩ :=
    @regionOf_has region.kind span page aligned has bounded
  refine ⟨cursor, ?_, inside⟩
  rw [regions_init disjoint]
  refine List.mem_flatMap.mpr ⟨region, inMap, ?_⟩
  rw [candidateRegions, if_pos usable]
  exact List.mem_flatMap.mpr ⟨span, isSpan, Option.mem_toList.mpr isRegion⟩

theorem page_of_mem_init (disjoint : DisjointRegions bootInfo)
    (mem : cursor ∈ (PhysicalPageAllocator.init bootInfo).regions)
    (inside : page ∈ cursor.area.points) (aligned : page % pageSize = 0) :
    WholePage bootInfo page ∧ OpenPage bootInfo page := by
  rw [regions_init disjoint] at mem
  obtain ⟨region, inMap, candidate⟩ := List.mem_flatMap.mp mem
  obtain ⟨usable, aligned', -, -, lower, upper, unreserved⟩ := of_mem_candidateRegions candidate
  rw [Interval.mem_points] at inside
  have starts : cursor.area.start = cursor.start := rfl
  have page_le : page + pageSize ≤ cursor.area.stop := by
    unfold Interval.stop RegionCursor.area pageSize at *
    dsimp only at *
    omega
  refine ⟨⟨aligned, region, inMap, usable, by omega, page_le.trans upper⟩, fun address low high => ?_⟩
  exact unreserved address (Interval.mem_points.mpr ⟨by omega, by omega⟩)

theorem le_stop_iff (aligned : page % pageSize = 0) :
    page + pageSize ≤ region.stop ↔ page < size - pageSize ∧
      page + pageSize ≤ region.start.toNat + region.pageCount.toNat * pageSize := by
  have := region.start.toNat_lt
  simp only [MemoryRegion.stop, MemoryRegion.sizeBytes, saturatingAdd, saturatingMul, maxValue,
    size, pageSize] at *
  omega

def RegionCursor.pages (region : RegionCursor) : List Nat :=
  (List.range region.pageCount).map fun i => region.start + pageSize * i

theorem mem_pages {region : RegionCursor} (aligned : region.start % pageSize = 0) :
    page ∈ region.pages ↔ page ∈ region.area.points ∧ page % pageSize = 0 := by
  simp only [RegionCursor.pages, List.mem_map, List.mem_range, Interval.mem_points, Interval.stop,
    RegionCursor.area, pageSize] at aligned ⊢
  constructor
  · rintro ⟨i, inside, rfl⟩
    omega
  · rintro ⟨⟨lower, upper⟩, isPage⟩
    exact ⟨(page - region.start) / 4096, by omega, by omega⟩

/-- After `init` the regions have just the pages that lie in usable memory, above no reserved
    address and below the last page, each of them once, and the counter tells their number. -/
theorem initial_pages_exact (disjoint : DisjointRegions bootInfo) :
    (∀ page, page ∈ (PhysicalPageAllocator.init bootInfo).regions.flatMap RegionCursor.pages ↔
      page % 4096 = 0 ∧ page < 2 ^ 64 - 4096 ∧
        (∃ region ∈ bootInfo.memoryRegions,
          bootInfo.firmwareMode.regionIsCurrentlyUsable region.kind = true ∧
            region.start.toNat ≤ page ∧
            page + 4096 ≤ region.start.toNat + region.pageCount.toNat * 4096) ∧
        ∀ range ∈ bootInfo.reservedMemory, ∀ address, page ≤ address → address < page + 4096 →
          ¬(range.start.toNat ≤ address ∧
            address < range.start.toNat + range.length.toNat)) ∧
      ((PhysicalPageAllocator.init bootInfo).regions.flatMap RegionCursor.pages).Nodup ∧
      (PhysicalPageAllocator.init bootInfo).totalUsablePages =
        ((PhysicalPageAllocator.init bootInfo).regions.flatMap RegionCursor.pages).length := by
  have areas := init_areasOk disjoint
  have aligned {cursor : RegionCursor} (mem : cursor ∈ (PhysicalPageAllocator.init bootInfo).regions) :
      cursor.start % pageSize = 0 := areas.aligned _ (List.mem_map_of_mem mem)
  refine ⟨fun page => ?_, ?_, ?_⟩
  · have exactly : page ∈ (PhysicalPageAllocator.init bootInfo).regions.flatMap RegionCursor.pages ↔
        WholePage bootInfo page ∧ OpenPage bootInfo page := by
      rw [List.mem_flatMap]
      constructor
      · rintro ⟨cursor, mem, isPage⟩
        obtain ⟨inside, isAligned⟩ := (mem_pages (aligned mem)).mp isPage
        exact page_of_mem_init disjoint mem inside isAligned
      · rintro ⟨whole, isOpen⟩
        obtain ⟨cursor, mem, inside⟩ := page_mem_init disjoint whole isOpen
        refine ⟨cursor, mem, (mem_pages (aligned mem)).mpr ⟨inside ?_, whole.1⟩⟩
        exact mem_pageRange.mpr ⟨Nat.le_refl _, Nat.lt_add_of_pos_right (by decide)⟩
    rw [exactly]
    constructor
    · rintro ⟨⟨isAligned, region, mem, usable, lower, upper⟩, isOpen⟩
      obtain ⟨below, inside⟩ := (le_stop_iff isAligned).mp upper
      exact ⟨isAligned, below, ⟨region, mem, usable, lower, inside⟩,
        fun range isRange address low high reserved =>
          isOpen address low high ⟨range, isRange, reserved⟩⟩
    · rintro ⟨isAligned, below, ⟨region, mem, usable, lower, inside⟩, clear⟩
      refine ⟨⟨isAligned, region, mem, usable, lower, (le_stop_iff isAligned).mpr
        ⟨below, inside⟩⟩, ?_⟩
      rintro address low high ⟨range, isRange, reserved⟩
      exact clear range isRange address low high reserved
  · refine List.nodup_flatMap.mpr ⟨fun cursor _ => ?_, ?_⟩
    · refine List.nodup_range.map fun i j same => ?_
      simp only [pageSize] at same
      omega
    · refine (List.pairwise_map.mp areas.disjoint).imp_of_mem fun {c c'} mem mem' apart => ?_
      refine List.disjoint_left.mpr fun page isPage isPage' => ?_
      exact Finset.disjoint_left.mp apart ((mem_pages (aligned mem)).mp isPage).1
        ((mem_pages (aligned mem')).mp isPage').1
  · have counted := (init_grown bootInfo).counted rfl
    have small := sum_pages_lt areas fun _ _ => Nat.le_refl _
    have total : ((PhysicalPageAllocator.init bootInfo).regions.flatMap RegionCursor.pages).length =
        ((PhysicalPageAllocator.init bootInfo).regions.map RegionCursor.pageCount).sum := by
      simp [List.length_flatMap, RegionCursor.pages]
    rw [total, counted]
    exact Nat.min_eq_left (Nat.le_sub_one_of_lt small)

/-- Of sixteen pages all but the one with the reserved bytes are there. -/
theorem initial_pages_exact_behind_reserved :
    0x102000 ∈ (PhysicalPageAllocator.init sampleBootInfo).regions.flatMap RegionCursor.pages ∧
      0x101000 ∉ (PhysicalPageAllocator.init sampleBootInfo).regions.flatMap RegionCursor.pages := by
  have disjoint : DisjointRegions sampleBootInfo := List.pairwise_singleton _ _
  have exactly := (initial_pages_exact disjoint).1
  refine ⟨(exactly _).mpr ?_, fun mem => ?_⟩
  · refine ⟨by decide, by decide, ⟨_, List.mem_singleton.mpr rfl, by decide⟩, ?_⟩
    intro range isRange address low high reserved
    rw [List.mem_singleton.mp isRange] at reserved
    have ends : address < 0x101808 := reserved.2
    omega
  · exact ((exactly _).mp mem).2.2.2 _ (List.mem_singleton.mpr rfl) 0x101800 (by decide) (by decide)
      (by decide)

end

/-! ## Runs that take everything -/

section

variable {bootInfo : BootInfo} {allocator : PhysicalPageAllocator} {live : List Interval}
  {address page : Nat}

/-- No operation changes where the regions are. -/
theorem Reachable.areas (run : Reachable bootInfo allocator live) :
    allocator.regions.map RegionCursor.area =
      (PhysicalPageAllocator.init bootInfo).regions.map RegionCursor.area := by
  refine @Reachable.rule _ _ _ (fun allocator _ => allocator.regions.map RegionCursor.area = _)
    run rfl (fun same _ _ _ => same) (fun same _ isRegions _ => ?_) fun same _ => same
  rw [isRegions] at same
  simpa [RegionCursor.area] using same

theorem Consistent.inUse_subset (h : Consistent bootInfo allocator live) :
    cover live ⊆ cover (allocator.regions.map RegionCursor.area) := by
  rw [h.inUse]
  intro address inUse
  obtain ⟨region, isRegion, inside⟩ := mem_marked.mp (Finset.sdiff_subset inUse)
  exact mem_cover.mpr ⟨region.area, List.mem_map_of_mem isRegion,
    used_subset_area (h.marks region isRegion) inside⟩

theorem Consistent.all_inUse (h : Consistent bootInfo allocator live)
    (none : allocator.allocatePage.1 = none) :
    cover (allocator.regions.map RegionCursor.area) ⊆ cover live := by
  rcases allocatePage_none.mp none with cold | ⟨extents, regions⟩
  · rw [h.ready] at cold
    cases cold
  have nothingFree : allocator.free = ∅ := by
    refine Finset.eq_empty_of_forall_notMem fun address isFree => ?_
    obtain ⟨interval, mem, -⟩ := mem_cover.mp isFree
    obtain ⟨extent, isExtent, rfl⟩ := List.mem_map.mp mem
    have nonempty := h.separated.nonempty _ mem
    rw [FreeExtent.interval, extents extent isExtent, Nat.zero_mul] at nonempty
    exact absurd nonempty (Nat.lt_irrefl 0)
  rw [h.inUse, nothingFree, Finset.sdiff_empty]
  intro address inside
  obtain ⟨area, isArea, inArea⟩ := mem_cover.mp inside
  obtain ⟨region, isRegion, rfl⟩ := List.mem_map.mp isArea
  refine mem_marked.mpr ⟨region, isRegion, ?_⟩
  have full : region.nextPage = region.pageCount := by
    have remaining := regions region isRegion
    have mark := h.marks region isRegion
    unfold RegionCursor.remainingPages at remaining
    omega
  rw [RegionCursor.used, full]
  exact inArea

/-- What is in a region and not in use is handed out in some continuation of the run. -/
theorem Reachable.hands_out (disjoint : DisjointRegions bootInfo)
    (run : Reachable bootInfo allocator live)
    (inArea : address ∈ cover ((PhysicalPageAllocator.init bootInfo).regions.map RegionCursor.area))
    (unused : address ∉ cover live) :
    ∃ allocator' live' page next, Reachable bootInfo allocator' live' ∧
      allocator'.allocatePage = (some page, next) ∧ address ∈ (pageRange page 1).points := by
  induction left : (cover ((PhysicalPageAllocator.init bootInfo).regions.map RegionCursor.area) \
      cover live).card using Nat.strong_induction_on generalizing allocator live with
  | _ left ih =>
    rcases step : allocator.allocatePage with ⟨_ | page, next⟩
    · have all := (run.consistent disjoint).all_inUse (by rw [step])
      rw [run.areas] at all
      exact absurd (all inArea) unused
    · by_cases here : address ∈ (pageRange page 1).points
      · exact ⟨allocator, live, page, next, run, step, here⟩
      have run' : Reachable bootInfo next (pageRange page 1 :: live) := .allocated run step
      have h := run'.consistent disjoint
      have new : Disjoint (pageRange page 1).points (cover live) :=
        disjoint_cover.mpr (List.pairwise_cons.mp h.disjoint).1
      have first := @self_mem_pageRange page
      have first' : page ∈ cover (pageRange page 1 :: live) :=
        points_subset_cover List.mem_cons_self first
      refine ih _ ?_ run' ?_ rfl
      · -- the page was to be handed out before, and is in use now
        rw [← left]
        refine Finset.card_lt_card (Finset.ssubset_iff_of_subset ?_ |>.mpr ⟨page, ?_, ?_⟩)
        · exact Finset.sdiff_subset_sdiff (Finset.Subset.refl _) Finset.subset_union_right
        · refine Finset.mem_sdiff.mpr ⟨?_, Finset.disjoint_left.mp new first⟩
          rw [← run'.areas]
          exact h.inUse_subset first'
        · exact fun stays => (Finset.mem_sdiff.mp stays).2 first'
      · rw [cover_cons, Finset.mem_union]
        exact fun used => used.elim here unused

theorem handed_out_iff (disjoint : DisjointRegions bootInfo) (aligned : page % pageSize = 0) :
    (∃ allocator live pageCount start allocator', Reachable bootInfo allocator live ∧
      allocator.allocateContiguousPages pageCount = (some start, allocator') ∧
      page ∈ (pageRange start pageCount).points) ↔
    WholePage bootInfo page ∧ OpenPage bootInfo page := by
  constructor
  · rintro ⟨allocator, live, pageCount, start, allocator', run, step, inside⟩
    have run' : Reachable bootInfo allocator' (pageRange start pageCount :: live) :=
      .allocated run step
    have inArea := (run'.consistent disjoint).inUse_subset
      (points_subset_cover List.mem_cons_self inside)
    rw [run'.areas] at inArea
    obtain ⟨area, isArea, inside⟩ := mem_cover.mp inArea
    obtain ⟨cursor, mem, rfl⟩ := List.mem_map.mp isArea
    exact page_of_mem_init disjoint mem inside aligned
  · rintro ⟨whole, isOpen⟩
    obtain ⟨cursor, mem, inside⟩ := page_mem_init disjoint whole isOpen
    have first := @self_mem_pageRange page
    obtain ⟨allocator, live, start, next, run, step, handed⟩ := Reachable.hands_out disjoint .init
      (mem_cover.mpr ⟨_, List.mem_map_of_mem mem, inside first⟩) (Finset.notMem_empty _)
    exact ⟨allocator, live, 1, start, next, run, step, handed⟩

end

end CodexOS.Memory
