import CodexOS.Memory.PageAllocator
import CodexOS.Lib.Intervals

/-! # The regions after `init`

Cutting the reserved ranges out of the usable memory and rounding what is left
to whole pages gives disjoint regions that lie in usable memory and touch no
reserved range. A full table only loses memory.
-/

namespace CodexOS.Memory

open Word64 Intervals

def RegionCursor.area (region : RegionCursor) : Interval where
  start := region.start
  length := region.pageCount * pageSize

/-- The address lies in memory that may be used in this firmware mode. -/
def Usable (bootInfo : BootInfo) (address : Nat) : Prop :=
  ∃ region ∈ bootInfo.memoryRegions,
    bootInfo.firmwareMode.regionIsCurrentlyUsable region.kind = true ∧
      region.start.toNat ≤ address ∧ address < region.stop

def Reserved (bootInfo : BootInfo) (address : Nat) : Prop :=
  ∃ range ∈ bootInfo.reservedMemory,
    range.start.toNat ≤ address ∧ address < range.start.toNat + range.length.toNat

def DisjointRegions (bootInfo : BootInfo) : Prop :=
  bootInfo.memoryRegions.Pairwise fun region region' => ∀ address,
    ¬((region.start.toNat ≤ address ∧ address < region.stop) ∧
      region'.start.toNat ≤ address ∧ address < region'.stop)

/-- What `init` establishes of the areas of the regions, which no operation changes. -/
structure AreasOk (bootInfo : BootInfo) (areas : List Interval) : Prop where
  fit : areas.length ≤ maxAllocatorRegions
  aligned : ∀ area ∈ areas, area.start % pageSize = 0
  bounded : ∀ area ∈ areas, area.stop ≤ size - pageSize
  usable : ∀ area ∈ areas, ∀ address ∈ area.points, Usable bootInfo address
  unreserved : ∀ area ∈ areas, ∀ address ∈ area.points, ¬Reserved bootInfo address
  disjoint : areas.Pairwise fun area area' => Disjoint area.points area'.points

section

variable {reservedStart reservedEnd : Nat} {span piece : RegionSpan}

theorem of_mem_spanPieces (mem : piece ∈ spanPieces reservedStart reservedEnd span) :
    span.start ≤ piece.start ∧ piece.stop ≤ span.stop ∧
      (piece.stop ≤ reservedStart ∨ reservedEnd ≤ piece.start ∨ reservedEnd ≤ reservedStart) := by
  unfold spanPieces at mem
  split at mem
  · cases mem
  simp only at mem
  split at mem
  · cases List.mem_singleton.mp mem
    rename_i nonempty apart
    simp only [RegionSpan.isEmpty, decide_eq_true_eq] at nonempty
    omega
  · obtain mem | mem := List.mem_append.mp mem
    · split at mem
      · cases List.mem_singleton.mp mem
        simp only
        omega
      · cases mem
    · split at mem
      · cases List.mem_singleton.mp mem
        simp only
        omega
      · cases mem

theorem pairwise_spanPieces :
    (spanPieces reservedStart reservedEnd span).Pairwise fun p q => p.stop ≤ q.start := by
  unfold spanPieces
  split
  · exact .nil
  simp only
  split
  · exact List.pairwise_singleton _ _
  split <;> split <;> simp
  omega

theorem pairwise_pieces {active : List RegionSpan}
    (ordered : active.Pairwise fun p q => p.stop ≤ q.start) :
    (active.flatMap (spanPieces reservedStart reservedEnd)).Pairwise
      fun p q => p.stop ≤ q.start := by
  refine List.pairwise_flatMap.mpr ⟨fun _ _ => pairwise_spanPieces, ?_⟩
  refine ordered.imp fun {p q} less piece mem piece' mem' => ?_
  have first := of_mem_spanPieces mem
  have second := of_mem_spanPieces mem'
  omega

/-- The table of spans takes a part of what is pushed, in order. -/
theorem foldl_pushSpan (pieces spans : List RegionSpan) :
    ∃ kept, kept.Sublist pieces ∧ pieces.foldl pushSpan spans = spans ++ kept := by
  induction pieces generalizing spans with
  | nil => exact ⟨[], .slnil, by simp⟩
  | cons piece rest ih =>
    obtain ⟨kept, sub, result⟩ := ih (pushSpan spans piece)
    rw [List.foldl_cons, result]
    unfold pushSpan
    split
    · exact ⟨kept, sub.cons piece, rfl⟩
    · exact ⟨piece :: kept, sub.cons_cons piece, by simp⟩

/-- No address of the span below the last page is in the range. -/
def Clear (span : RegionSpan) (range : ReservedMemoryRange) : Prop :=
  ∀ address, span.start ≤ address → address < span.stop → address < size - pageSize →
    ¬(range.start.toNat ≤ address ∧ address < range.start.toNat + range.length.toNat)

/-- Rounding a reserved range to pages covers it, up to the last page. -/
theorem aligned_reserved {range : ReservedMemoryRange} {address : Nat}
    (inside : range.start.toNat ≤ address ∧ address < range.start.toNat + range.length.toNat)
    (low : address < size - pageSize) :
    alignDown range.start.toNat ≤ address ∧ address < alignUp range.stop := by
  simp only [alignDown, alignUp, ReservedMemoryRange.stop, saturatingAdd, maxValue, size,
    pageSize] at *
  omega

/-- Parts of the active spans, in order, and clear of every reserved range. -/
def CutSpans (active : List RegionSpan) (reserved : List ReservedMemoryRange)
    (spans : List RegionSpan) : Prop :=
  spans.Pairwise (fun p q => p.stop ≤ q.start) ∧
    ∀ span ∈ spans, (∃ whole ∈ active, whole.start ≤ span.start ∧ span.stop ≤ whole.stop) ∧
      ∀ range ∈ reserved, Clear span range

theorem cutReserved_spec (reserved : List ReservedMemoryRange)
    (ordered : active.Pairwise fun p q => p.stop ≤ q.start) :
    CutSpans active reserved (cutReserved active reserved) := by
  induction reserved generalizing active with
  | nil => exact ⟨ordered, fun span mem => ⟨⟨span, mem, le_rfl, le_rfl⟩, nofun⟩⟩
  | cons range reserved ih =>
    -- the head range is clear of every span, or the spans are cut by it first
    have skip (clear : ∀ span, Clear span range) :
        CutSpans active (range :: reserved) (cutReserved active reserved) := by
      obtain ⟨pairwise, spans⟩ := ih ordered
      exact ⟨pairwise, fun span mem => ⟨(spans span mem).1,
        List.forall_mem_cons.mpr ⟨clear span, (spans span mem).2⟩⟩⟩
    unfold cutReserved
    split
    · rename_i blank
      refine skip fun span address _ _ _ inside => ?_
      rw [blank] at inside
      simp only [UInt64.toNat_zero] at inside
      omega
    simp only
    split
    · rename_i blank
      refine skip fun span address _ _ low inside => ?_
      have := aligned_reserved inside low
      omega
    rename_i proper
    rw [← List.foldl_flatMap]
    obtain ⟨scratch, sub, result⟩ :=
      foldl_pushSpan (active.flatMap (spanPieces (alignDown range.start.toNat) (alignUp range.stop))) []
    rw [result, List.nil_append]
    split
    · rename_i none
      rw [List.isEmpty_iff.mp none]
      exact ⟨.nil, nofun⟩
    obtain ⟨pairwise, spans⟩ := ih ((pairwise_pieces ordered).sublist sub)
    refine ⟨pairwise, fun span mem => ?_⟩
    obtain ⟨⟨piece, inScratch, lower, upper⟩, clear⟩ := spans span mem
    obtain ⟨whole, inActive, isPiece⟩ := List.mem_flatMap.mp (sub.subset inScratch)
    have bounds := of_mem_spanPieces isPiece
    refine ⟨⟨whole, inActive, by omega, by omega⟩, List.forall_mem_cons.mpr ⟨?_, clear⟩⟩
    intro address _ _ low inside
    have := aligned_reserved inside low
    omega

end

section

variable {bootInfo : BootInfo} {kind : MemoryRegionKind} {span : RegionSpan}

/-- The region made of a span: its whole pages, if it has any. -/
def regionOf (kind : MemoryRegionKind) (span : RegionSpan) : Option RegionCursor :=
  let start := alignUp span.start
  let stop := alignDown span.stop
  if stop ≤ start then none
  else some { start, pageCount := (stop - start) / pageSize, nextPage := 0, kind }

theorem alignDown_mod (value : Nat) : alignDown value % pageSize = 0 := by
  simp only [alignDown, pageSize]
  omega

theorem alignDown_bounds (small : value < size) :
    alignDown value ≤ value ∧ alignDown value ≤ size - pageSize := by
  simp only [alignDown, size, pageSize] at *
  omega

theorem le_alignUp (value : Nat) : value ≤ alignUp value ∨ alignUp value = size - pageSize := by
  simp only [alignUp, alignDown, saturatingAdd, maxValue, size, pageSize]
  omega

theorem of_regionOf (h : regionOf kind span = some region) (bounded : span.stop < size) :
    region.start % pageSize = 0 ∧ region.area.stop ≤ size - pageSize ∧
      span.start ≤ region.start ∧ region.area.stop ≤ span.stop ∧ 0 < region.pageCount ∧
      region.nextPage = 0 := by
  unfold regionOf at h
  simp only [Option.ite_none_left_eq_some, Option.some.injEq] at h
  obtain ⟨proper, rfl⟩ := h
  have startMod : alignUp span.start % pageSize = 0 := alignDown_mod _
  have stopMod := alignDown_mod span.stop
  have below := alignDown_bounds bounded
  have above := le_alignUp span.start
  simp only [RegionCursor.area, Interval.stop, size, pageSize] at *
  exact ⟨startMod, by omega, by omega, by omega, by omega, trivial⟩

/-- The counter tells the pages of all regions, as far as it goes. -/
def PhysicalPageAllocator.Counted (allocator : PhysicalPageAllocator) : Prop :=
  allocator.totalUsablePages = min (allocator.regions.map RegionCursor.pageCount).sum maxValue

/-- `after` is `before` with some more regions, out of `candidates`: all of them, if the table has
    room. -/
structure Grown (candidates : List RegionCursor) (before after : PhysicalPageAllocator) : Prop where
  initialized : after.initialized = before.initialized
  allocatedPages : after.allocatedPages = before.allocatedPages
  freeExtents : after.freeExtents = before.freeExtents
  regions : ∃ kept, kept.Sublist candidates ∧ after.regions = before.regions ++ kept
  fit : before.regions.length ≤ maxAllocatorRegions → after.regions.length ≤ maxAllocatorRegions
  all : before.regions.length + candidates.length ≤ maxAllocatorRegions →
    after.regions = before.regions ++ candidates
  counted : before.Counted → after.Counted

theorem Grown.refl
    (full : candidates = [] ∨ maxAllocatorRegions < allocator.regions.length + candidates.length) :
    Grown candidates allocator allocator := by
  refine ⟨rfl, rfl, rfl, ⟨[], List.nil_sublist _, by simp⟩, id, fun room => ?_, id⟩
  simp [full.resolve_right (by omega)]

theorem Grown.trans (h : Grown first a b) (h' : Grown second b c) :
    Grown (first ++ second) a c := by
  obtain ⟨kept, sub, regions⟩ := h.regions
  obtain ⟨kept', sub', regions'⟩ := h'.regions
  refine ⟨h'.initialized.trans h.initialized, h'.allocatedPages.trans h.allocatedPages,
    h'.freeExtents.trans h.freeExtents, ⟨kept ++ kept', sub.append sub', ?_⟩,
    fun fit => h'.fit (h.fit fit), fun room => ?_, fun counted => h'.counted (h.counted counted)⟩
  · rw [regions', regions, List.append_assoc]
  · rw [List.length_append] at room
    have some := h.all (by omega)
    rw [h'.all (by rw [some, List.length_append]; omega), some, List.append_assoc]

theorem Grown.foldl {α : Type} {f : PhysicalPageAllocator → α → PhysicalPageAllocator}
    {candidates : α → List RegionCursor} (step : ∀ a x, Grown (candidates x) a (f a x)) (l : List α)
    (a : PhysicalPageAllocator) : Grown (l.flatMap candidates) a (l.foldl f a) := by
  induction l generalizing a with
  | nil => exact .refl (.inl rfl)
  | cons x rest ih => exact (step a x).trans (ih (f a x))

theorem pushRegion_grown (allocator : PhysicalPageAllocator) (kind : MemoryRegionKind)
    (span : RegionSpan) :
    Grown (regionOf kind span).toList allocator (allocator.pushRegion kind span) := by
  have startMod : alignUp span.start % pageSize = 0 := alignDown_mod _
  have stopMod := alignDown_mod span.stop
  unfold PhysicalPageAllocator.pushRegion regionOf
  dsimp only
  by_cases empty : alignDown span.stop ≤ alignUp span.start
  · rw [if_pos empty, if_pos (by simp [empty])]
    exact .refl (.inl rfl)
  rw [if_neg empty, Option.toList_some]
  by_cases full : allocator.regions.length ≥ maxAllocatorRegions
  · rw [if_pos (by simp [full])]
    exact .refl (.inr (Nat.lt_succ_of_le full))
  rw [if_neg (by simp [empty, full]), if_neg (by unfold pageSize at *; omega)]
  refine ⟨rfl, rfl, rfl, ⟨[_], .refl _, rfl⟩, fun _ => ?_, fun _ => rfl, fun counted => ?_⟩
  · rw [List.length_append, List.length_singleton]
    omega
  · simp only [PhysicalPageAllocator.Counted, List.map_append, List.sum_append, List.map_cons,
      List.map_nil, List.sum_singleton, saturatingAdd] at counted ⊢
    generalize (alignDown span.stop - alignUp span.start) / pageSize = pages
    omega

/-- The regions of the usable memory that is not reserved. -/
def candidateRegions (bootInfo : BootInfo) (region : MemoryRegion) : List RegionCursor :=
  if bootInfo.firmwareMode.regionIsCurrentlyUsable region.kind then
    (cutReserved [{ start := region.start.toNat, stop := region.stop }]
      bootInfo.reservedMemory).flatMap fun span => (regionOf region.kind span).toList
  else []

theorem regionStop_lt (region : MemoryRegion) : region.stop < size := by
  simp only [MemoryRegion.stop, saturatingAdd, maxValue, size]
  omega

/-- A memory region of no pages has no whole page. -/
theorem candidateRegions_blank (blank : region.pageCount = 0) :
    candidateRegions bootInfo region = [] := by
  unfold candidateRegions
  split
  swap
  · rfl
  refine List.flatMap_eq_nil_iff.mpr fun span mem => ?_
  obtain ⟨whole, isWhole, lower, upper⟩ := ((cutReserved_spec bootInfo.reservedMemory
    (List.pairwise_singleton _ { start := region.start.toNat, stop := region.stop })).2 span mem).1
  cases List.mem_singleton.mp isWhole
  have above := le_alignUp span.start
  have below := alignDown_bounds (lt_of_le_of_lt upper (regionStop_lt region))
  have stop : region.stop ≤ region.start.toNat := by
    simp [MemoryRegion.stop, MemoryRegion.sizeBytes, blank, saturatingMul, saturatingAdd]
  rw [Option.toList_eq_nil_iff]
  exact if_pos (by dsimp only at lower upper; omega)

theorem init_grown (bootInfo : BootInfo) :
    Grown (bootInfo.memoryRegions.flatMap (candidateRegions bootInfo))
      { PhysicalPageAllocator.new with initialized := true } (.init bootInfo) := by
  refine Grown.foldl (fun allocator region => ?_) _ _
  split
  · rename_i skipped
    refine .refl (.inl ?_)
    simp only [Bool.or_eq_true, Bool.not_eq_eq_eq_not, Bool.not_true, decide_eq_true_eq] at skipped
    rcases skipped with unusable | blank
    · simp [candidateRegions, unusable]
    · exact candidateRegions_blank blank
  · rename_i usable
    simp only [Bool.or_eq_true, Bool.not_eq_eq_eq_not, Bool.not_true, decide_eq_true_eq, not_or,
      Bool.not_eq_false] at usable
    rw [candidateRegions, if_pos usable.1]
    exact Grown.foldl (fun allocator span => pushRegion_grown allocator region.kind span) _ _

theorem of_mem_candidateRegions (mem : cursor ∈ candidateRegions bootInfo region) :
    bootInfo.firmwareMode.regionIsCurrentlyUsable region.kind = true ∧
      cursor.start % pageSize = 0 ∧ cursor.area.stop ≤ size - pageSize ∧ cursor.nextPage = 0 ∧
      region.start.toNat ≤ cursor.start ∧ cursor.area.stop ≤ region.stop ∧
      ∀ address ∈ cursor.area.points, ¬Reserved bootInfo address := by
  unfold candidateRegions at mem
  split at mem
  swap
  · cases mem
  rename_i usable
  obtain ⟨span, isSpan, isRegion⟩ := List.mem_flatMap.mp mem
  obtain ⟨-, spans⟩ := cutReserved_spec bootInfo.reservedMemory (List.pairwise_singleton _
    { start := region.start.toNat, stop := region.stop })
  obtain ⟨⟨whole, isWhole, lower, upper⟩, clear⟩ := spans span isSpan
  cases List.mem_singleton.mp isWhole
  have bound := regionStop_lt region
  simp only at lower upper
  have facts := of_regionOf (Option.mem_toList.mp isRegion) (by omega)
  refine ⟨usable, facts.1, facts.2.1, facts.2.2.2.2.2, by omega, by omega, ?_⟩
  rintro address inside ⟨range, isRange, reserved⟩
  rw [Interval.mem_points] at inside
  have start : cursor.area.start = cursor.start := rfl
  exact clear range isRange address (by omega) (by omega) (by omega) reserved

theorem pairwise_candidateRegions (bootInfo : BootInfo) (region : MemoryRegion) :
    (candidateRegions bootInfo region).Pairwise fun cursor cursor' =>
      Disjoint cursor.area.points cursor'.area.points := by
  unfold candidateRegions
  split
  swap
  · exact .nil
  obtain ⟨ordered, spans⟩ := cutReserved_spec bootInfo.reservedMemory (List.pairwise_singleton _
    { start := region.start.toNat, stop := region.stop })
  refine List.pairwise_flatMap.mpr ⟨fun span _ => ?_, ?_⟩
  · cases regionOf region.kind span <;> simp
  have bound {span : RegionSpan}
      (mem : span ∈ cutReserved [{ start := region.start.toNat, stop := region.stop }]
        bootInfo.reservedMemory) : span.stop < size := by
    obtain ⟨whole, isWhole, -, upper⟩ := (spans span mem).1
    cases List.mem_singleton.mp isWhole
    exact upper.trans_lt (regionStop_lt region)
  refine ordered.imp_of_mem fun {span span'} mem mem' less cursor isRegion cursor' isRegion' => ?_
  have first := of_regionOf (Option.mem_toList.mp isRegion) (bound mem)
  have second := of_regionOf (Option.mem_toList.mp isRegion') (bound mem')
  simp only [Finset.disjoint_left, Interval.mem_points]
  intro address inside inside'
  have start : cursor'.area.start = cursor'.start := rfl
  omega

theorem init_areasOk (disjoint : DisjointRegions bootInfo) :
    AreasOk bootInfo ((PhysicalPageAllocator.init bootInfo).regions.map RegionCursor.area) := by
  have grown := init_grown bootInfo
  obtain ⟨kept, sub, regions⟩ := grown.regions
  have made {cursor : RegionCursor} (mem : cursor ∈ (PhysicalPageAllocator.init bootInfo).regions) :
      ∃ region ∈ bootInfo.memoryRegions, cursor ∈ candidateRegions bootInfo region := by
    rw [regions] at mem
    exact List.mem_flatMap.mp (sub.subset mem)
  refine ⟨?_, List.forall_mem_map.mpr ?_, List.forall_mem_map.mpr ?_, List.forall_mem_map.mpr ?_,
    List.forall_mem_map.mpr ?_, List.pairwise_map.mpr ?_⟩
  · rw [List.length_map]
    exact grown.fit (Nat.zero_le _)
  · intro cursor mem
    obtain ⟨region, -, candidate⟩ := made mem
    exact (of_mem_candidateRegions candidate).2.1
  · intro cursor mem
    obtain ⟨region, -, candidate⟩ := made mem
    exact (of_mem_candidateRegions candidate).2.2.1
  · intro cursor mem address inside
    obtain ⟨region, inMap, candidate⟩ := made mem
    obtain ⟨usable, -, -, -, lower, upper, -⟩ := of_mem_candidateRegions candidate
    rw [Interval.mem_points] at inside
    exact ⟨region, inMap, usable, lower.trans inside.1, inside.2.trans_le upper⟩
  · intro cursor mem
    obtain ⟨region, -, candidate⟩ := made mem
    exact (of_mem_candidateRegions candidate).2.2.2.2.2.2
  · rw [regions]
    refine List.Pairwise.sublist sub (List.pairwise_flatMap.mpr
      ⟨fun region _ => pairwise_candidateRegions bootInfo region, ?_⟩)
    refine disjoint.imp fun {region region'} apart cursor candidate cursor' candidate' => ?_
    obtain ⟨-, -, -, -, lower, upper, -⟩ := of_mem_candidateRegions candidate
    obtain ⟨-, -, -, -, lower', upper', -⟩ := of_mem_candidateRegions candidate'
    simp only [Finset.disjoint_left, Interval.mem_points]
    rintro address ⟨ge, lt⟩ ⟨ge', lt'⟩
    exact apart address
      ⟨⟨lower.trans ge, lt.trans_le upper⟩, lower'.trans ge', lt'.trans_le upper'⟩

theorem init_fresh (bootInfo : BootInfo) :
    (PhysicalPageAllocator.init bootInfo).initialized = true ∧
      (PhysicalPageAllocator.init bootInfo).allocatedPages = 0 ∧
      (PhysicalPageAllocator.init bootInfo).freeExtents = [] ∧
      ∀ cursor ∈ (PhysicalPageAllocator.init bootInfo).regions, cursor.nextPage = 0 := by
  have grown := init_grown bootInfo
  obtain ⟨kept, sub, regions⟩ := grown.regions
  refine ⟨grown.initialized, grown.allocatedPages, grown.freeExtents, fun cursor mem => ?_⟩
  rw [regions] at mem
  obtain ⟨region, -, candidate⟩ := List.mem_flatMap.mp (sub.subset mem)
  exact (of_mem_candidateRegions candidate).2.2.2.1

end

end CodexOS.Memory
