import CodexOS.Heap.Expandable
import CodexOS.Heap.Search

/-! # Two regions, one heap

Each of the two regions goes through a run of its own, whatever the heap as a whole
is asked for, and a pointer always goes back to the region that issued it.
-/

namespace CodexOS.HeapAllocator

open Word64 ByteMemory Intervals

section

variable {region : Region} {heap : Heap} {live : List Allocation} {blocks : List Interval}

theorem measureFree_eq {capacity fuel freeBytes largest head : Nat}
    (segment : Segment heap.memory head blocks freeListEnd) (placed : Placed capacity blocks)
    (small : capacity < size) (enough : blocks.length < fuel)
    (fits : freeBytes + total blocks < size) :
    ∃ largest', heap.measureFree fuel head freeBytes largest =
      some (freeBytes + total blocks, largest') := by
  induction blocks generalizing fuel freeBytes largest head with
  | nil =>
    cases fuel with
    | zero => simp at enough
    | succ fuel => exact ⟨largest, if_pos segment⟩
  | cons block rest ih =>
    cases fuel with
    | zero => simp at enough
    | succ fuel =>
      obtain ⟨rfl, length, links⟩ := segment
      have notEnd := (placed.start_lt_end small (show block ∈ block :: rest by simp)).ne
      obtain ⟨-, -, placedRest⟩ := placed_cons.mp placed
      rw [total_cons] at fits
      have noSaturation : saturatingAdd freeBytes block.length = freeBytes + block.length :=
        saturatingAdd_of_lt (by omega)
      obtain ⟨largest', measured⟩ := @ih fuel (freeBytes + block.length)
        (max largest block.length) _ links placedRest (by simpa using enough) (by omega)
      refine ⟨largest', ?_⟩
      have node : heap.readFreeBlock block.start =
          { size := block.length, next := loadWord heap.memory (block.start + 8) } := by
        rw [Heap.readFreeBlock, length]
      rw [Heap.measureFree, if_neg notEnd, node]
      simp only [noSaturation]
      rw [measured, total_cons, Nat.add_assoc]

theorem Intact.regionStats (intact : Intact region heap live blocks) :
    ∃ stats, heap.regionStats region.capacity = some stats ∧
      stats.capacityBytes = region.capacity ∧ stats.liveAllocations = live.length ∧
      stats.usedBytes + stats.freeBytes = region.capacity := by
  have sum := intact.total_eq
  obtain ⟨largest, measured⟩ := @measureFree_eq heap blocks region.capacity region.capacity 0 0 _
    intact.segment intact.placed region.small intact.length_lt
    (lt_of_le_of_lt (by omega) region.small)
  rw [Nat.zero_add] at measured
  refine ⟨_, by rw [Heap.regionStats, measured, Option.map_some], rfl, intact.count, sum⟩

end

section

/-- The region an allocation comes from. -/
inductive Issuer where
  | bootstrap
  | external
  deriving DecidableEq

structure Issued where
  allocation : Allocation
  issuer : Issuer
  deriving DecidableEq

/-- The allocations of one region. -/
def issuedBy (issuer : Issuer) (live : List Issued) : List Allocation :=
  (live.filter (·.issuer = issuer)).map Issued.allocation

variable {bootstrapRegion : Region}

/-- Who serves the request: the second region if it is there and has room. -/
def ExpandableHeap.issuer (heap : ExpandableHeap bootstrapRegion) (layout : Layout) : Issuer :=
  match heap.external with
  | none => .bootstrap
  | some external =>
    match external.heap.allocateFromFreeList external.region.capacity layout with
    | some (some _) => .external
    | _ => .bootstrap

/-- The states of a heap, with the allocations that are live and how often a second region was
    accepted. -/
inductive ExpandableRun (bootstrapRegion : Region) :
    ExpandableHeap bootstrapRegion → List Issued → Nat → Prop
  | start (memory : ByteMemory) : ExpandableRun bootstrapRegion (.new memory) [] 0
  | allocated {heap heap' live count pointer} (layout : Layout) :
      ExpandableRun bootstrapRegion heap live count →
      heap.alloc layout = some (some pointer, heap') →
      ExpandableRun bootstrapRegion heap'
        ({ allocation := { pointer, size := layout.size }, issuer := heap.issuer layout } :: live)
        count
  | refused {heap heap' live count} (layout : Layout) :
      ExpandableRun bootstrapRegion heap live count → heap.alloc layout = some (none, heap') →
      ExpandableRun bootstrapRegion heap' live count
  | deallocated {heap heap' before issued after count} :
      ExpandableRun bootstrapRegion heap (before ++ issued :: after) count →
      heap.dealloc issued.allocation.pointer = some heap' →
      ExpandableRun bootstrapRegion heap' (before ++ after) count
  | extended {heap heap' live count} (address capacity : Nat) (memory : ByteMemory) :
      ExpandableRun bootstrapRegion heap live count →
      heap.initializeExternal address capacity memory = .ok heap' →
      ExpandableRun bootstrapRegion heap' live (count + 1)
  | inspected {heap heap' live count stats} :
      ExpandableRun bootstrapRegion heap live count → heap.stats = some (stats, heap') →
      ExpandableRun bootstrapRegion heap' live count
  | writtenBootstrap {heap live count} (memory : ByteMemory) :
      ExpandableRun bootstrapRegion heap live count →
      (∀ address, (∀ allocation ∈ issuedBy .bootstrap live,
        address ∉ (allocation.userRange bootstrapRegion).points) →
        memory address = heap.bootstrap.memory address) →
      ExpandableRun bootstrapRegion
        { heap with bootstrap := { heap.bootstrap with memory } } live count
  | writtenExternal {heap external live count} (memory : ByteMemory) :
      ExpandableRun bootstrapRegion heap live count → heap.external = some external →
      (∀ address, (∀ allocation ∈ issuedBy .external live,
        address ∉ (allocation.userRange external.region).points) →
        memory address = external.heap.memory address) →
      ExpandableRun bootstrapRegion
        { heap with
          external := some { external with heap := { external.heap with memory } } } live count

/-- The allocator on the first storage: it is set up when it is first used. -/
def BootstrapRun (region : Region) (heap : Heap) (live : List Allocation) : Prop :=
  (∃ history, Run region heap live history) ∨
    live = [] ∧ ∃ memory, heap = { state := .new, memory }

/-- Each region is in a run of its own. -/
structure Regions (heap : ExpandableHeap bootstrapRegion) (live : List Issued) : Prop where
  bootstrap : BootstrapRun bootstrapRegion heap.bootstrap (issuedBy .bootstrap live)
  external : ∀ external, heap.external = some external →
    ∃ history, Run external.region external.heap (issuedBy .external live) history
  absent : heap.external = none → issuedBy .external live = []

theorem issuedBy_append (issuer : Issuer) (live live' : List Issued) :
    issuedBy issuer (live ++ live') = issuedBy issuer live ++ issuedBy issuer live' := by
  rw [issuedBy, List.filter_append, List.map_append]
  rfl

theorem issuedBy_cons_same (issued : Issued) (live : List Issued) :
    issuedBy issued.issuer (issued :: live) = issued.allocation :: issuedBy issued.issuer live := by
  simp [issuedBy]

theorem issuedBy_cons_other {issuer : Issuer} {issued : Issued} (other : issued.issuer ≠ issuer)
    (live : List Issued) : issuedBy issuer (issued :: live) = issuedBy issuer live := by
  simp [issuedBy, other]

theorem length_issuedBy (live : List Issued) :
    (issuedBy .bootstrap live).length + (issuedBy .external live).length = live.length := by
  induction live with
  | nil => rfl
  | cons issued live ih =>
    obtain ⟨allocation, issuer⟩ := issued
    cases issuer <;> simp [issuedBy] at ih ⊢ <;> omega

section

variable {region : Region} {heap heap' : Heap} {live before after : List Allocation}
  {allocation : Allocation} {layout : Layout}

namespace BootstrapRun

theorem setUp (run : BootstrapRun region heap live) :
    ∃ history, Run region (heap.initializeRegion region.capacity) live history := by
  rcases run with ⟨history, run⟩ | ⟨rfl, memory, rfl⟩
  · obtain ⟨⟨blocks, intact⟩, -⟩ := run.intact
    rw [show heap.initializeRegion region.capacity = heap from if_pos intact.initialized]
    exact ⟨history, run⟩
  · exact ⟨_, .start memory⟩

theorem allocated (run : BootstrapRun region heap live)
    (made : heap.alloc region layout = some (some pointer, heap')) :
    BootstrapRun region heap' ({ pointer, size := layout.size } :: live) := by
  obtain ⟨history, run⟩ := run.setUp
  rw [← alloc_initializeRegion] at made
  exact .inl ⟨_, run.allocated layout made⟩

theorem refused (run : BootstrapRun region heap live)
    (made : heap.alloc region layout = some (none, heap')) : BootstrapRun region heap' live := by
  obtain ⟨history, run⟩ := run.setUp
  rw [← alloc_initializeRegion] at made
  exact .inl ⟨_, run.refused layout made⟩

theorem deallocated (run : BootstrapRun region heap (before ++ allocation :: after))
    (freed : heap.dealloc region allocation.pointer = some heap') :
    BootstrapRun region heap' (before ++ after) := by
  rcases run with ⟨history, run⟩ | ⟨empty, -⟩
  · exact .inl ⟨_, run.deallocated freed⟩
  · simp at empty

theorem written (run : BootstrapRun region heap live)
    (only : ∀ address, (∀ allocation ∈ live, address ∉ (allocation.userRange region).points) →
      memory address = heap.memory address) :
    BootstrapRun region { heap with memory } live := by
  rcases run with ⟨history, run⟩ | ⟨rfl, memory', rfl⟩
  · exact .inl ⟨_, run.written memory only⟩
  · exact .inr ⟨rfl, memory, rfl⟩

theorem intact (run : BootstrapRun region heap live) (mem : allocation ∈ live) :
    ∃ blocks, Intact region heap live blocks := by
  rcases run with ⟨history, run⟩ | ⟨rfl, -⟩
  · exact run.intact.1
  · cases mem

end BootstrapRun

theorem Intact.pointer_bounds (intact : Intact region heap live blocks) (mem : allocation ∈ live) :
    region.base + headerSize ≤ allocation.pointer ∧
      allocation.pointer < region.base + region.capacity := by
  have recorded := intact.recorded allocation mem
  have behind := recorded.behindHeader
  have fits := recorded.fits
  have inRegion := recorded.inRegion
  obtain ⟨-, bounded⟩ := intact.roomy mem
  simp only [Allocation.userRange, Interval.stop, headerSize] at *
  omega

theorem alloc_of_initialized (initialized : heap.state.initialized = true) :
    heap.alloc region layout =
      match heap.allocateFromFreeList region.capacity layout with
      | none => none
      | some (some (userStart, used)) => some (some (region.base + userStart), used)
      | some none => some (none, heap.countFailure) := by
  have again : heap.initializeRegion region.capacity = heap := if_pos initialized
  unfold Heap.alloc
  rw [again]
  rfl

end

namespace Regions

variable {heap heap' : ExpandableHeap bootstrapRegion} {live before after : List Issued}
  {external : External bootstrapRegion} {issued : Issued} {layout : Layout}

theorem start (memory : ByteMemory) :
    Regions (ExpandableHeap.new memory : ExpandableHeap bootstrapRegion) [] :=
  ⟨.inr ⟨rfl, memory, rfl⟩, nofun, fun _ => rfl⟩

theorem of_alloc (made : heap.alloc layout = some (result, heap')) :
    (∃ external userStart used, heap.external = some external ∧
        external.heap.allocateFromFreeList external.region.capacity layout =
          some (some (userStart, used)) ∧
        result = some (external.region.base + userStart) ∧ heap.issuer layout = .external ∧
        heap' = { heap with external := some { external with heap := used } }) ∨
      ∃ bootstrap, heap.bootstrap.alloc bootstrapRegion layout = some (result, bootstrap) ∧
        heap.issuer layout = .bootstrap ∧
        ((heap.external = none ∧ heap' = { heap with bootstrap }) ∨
          ∃ external, heap.external = some external ∧
            external.heap.allocateFromFreeList external.region.capacity layout = some none ∧
            heap' =
              { bootstrap
                external := some { external with heap := external.heap.countFailure } }) := by
  unfold ExpandableHeap.alloc at made
  unfold ExpandableHeap.issuer
  cases isExternal : heap.external with
  | none =>
    simp only [isExternal] at made
    obtain ⟨⟨pointer, bootstrap⟩, served, same⟩ := Option.map_eq_some_iff.mp made
    cases same
    exact .inr ⟨bootstrap, served, rfl, .inl ⟨rfl, rfl⟩⟩
  | some external =>
    simp only [isExternal] at made
    cases found : external.heap.allocateFromFreeList external.region.capacity layout with
    | none =>
      simp only [found] at made
      cases made
    | some taken =>
      cases taken with
      | some place =>
        obtain ⟨userStart, used⟩ := place
        simp only [found] at made
        cases made
        refine .inl ⟨external, userStart, used, rfl, found, rfl, ?_, rfl⟩
        simp only [found]
      | none =>
        simp only [found] at made
        obtain ⟨⟨pointer, bootstrap⟩, served, same⟩ := Option.map_eq_some_iff.mp made
        cases same
        refine .inr ⟨bootstrap, served, ?_, .inr ⟨external, rfl, found, rfl⟩⟩
        simp only [found]

theorem isSome_of_alloc (made : heap.alloc layout = some (result, heap')) :
    heap'.external.isSome = heap.external.isSome := by
  rcases of_alloc made with ⟨external, userStart, used, isExternal, -, -, -, rfl⟩ |
    ⟨bootstrap, -, -, ⟨-, rfl⟩ | ⟨external, isExternal, -, rfl⟩⟩
  · rw [isExternal]
    rfl
  · rfl
  · rw [isExternal]
    rfl

theorem externalIntact (regions : Regions heap live) (isExternal : heap.external = some external) :
    ∃ blocks, Intact external.region external.heap (issuedBy .external live) blocks := by
  obtain ⟨history, run⟩ := regions.external external isExternal
  exact run.intact.1

theorem passedOn (regions : Regions heap live) (isExternal : heap.external = some external)
    (nothing : external.heap.allocateFromFreeList external.region.capacity layout = some none) :
    ∃ history, Run external.region external.heap.countFailure (issuedBy .external live) history := by
  obtain ⟨history, run⟩ := regions.external external isExternal
  obtain ⟨blocks, intact⟩ := regions.externalIntact isExternal
  have refused := @alloc_of_initialized external.region _ layout intact.initialized
  rw [nothing] at refused
  exact ⟨_, run.refused layout refused⟩

theorem allocated (regions : Regions heap live)
    (made : heap.alloc layout = some (some pointer, heap')) :
    Regions heap'
      ({ allocation := { pointer, size := layout.size }, issuer := heap.issuer layout } :: live) := by
  rcases of_alloc made with ⟨external, userStart, used, isExternal, found, result, issuer, rfl⟩ |
    ⟨bootstrap, served, issuer, rest⟩
  · obtain ⟨history, run⟩ := regions.external external isExternal
    obtain ⟨blocks, intact⟩ := regions.externalIntact isExternal
    have taken := @alloc_of_initialized external.region _ layout intact.initialized
    rw [found] at taken
    cases result
    rw [issuer]
    refine ⟨?_, ?_, nofun⟩
    · rw [issuedBy_cons_other (by simp)]
      exact regions.bootstrap
    · intro external' same
      cases same
      exact ⟨_, run.allocated layout taken⟩
  · have bootstrapRun := regions.bootstrap.allocated served
    rw [issuer]
    rcases rest with ⟨isNone, rfl⟩ | ⟨external, isExternal, nothing, rfl⟩
    · refine ⟨bootstrapRun, ?_, fun _ => ?_⟩
      · intro external' same
        rw [isNone] at same
        cases same
      · rw [issuedBy_cons_other (by simp)]
        exact regions.absent isNone
    · refine ⟨bootstrapRun, ?_, nofun⟩
      intro external' same
      cases same
      rw [issuedBy_cons_other (by simp)]
      exact regions.passedOn isExternal nothing

theorem refused (regions : Regions heap live) (made : heap.alloc layout = some (none, heap')) :
    Regions heap' live := by
  rcases of_alloc made with ⟨external, userStart, used, isExternal, found, result, -, -⟩ |
    ⟨bootstrap, served, -, rest⟩
  · cases result
  · have bootstrapRun := regions.bootstrap.refused served
    rcases rest with ⟨isNone, rfl⟩ | ⟨external, isExternal, nothing, rfl⟩
    · refine ⟨bootstrapRun, ?_, fun _ => regions.absent isNone⟩
      intro external' same
      rw [isNone] at same
      cases same
    · refine ⟨bootstrapRun, ?_, nofun⟩
      intro external' same
      cases same
      exact regions.passedOn isExternal nothing

theorem mem_issuedBy (mem : issued ∈ live) : issued.allocation ∈ issuedBy issued.issuer live :=
  List.mem_map.mpr ⟨issued, List.mem_filter.mpr ⟨mem, decide_eq_true rfl⟩, rfl⟩

theorem dealloc_external (regions : Regions heap live) (mem : issued ∈ live)
    (isIssuer : issued.issuer = .external) :
    ∃ external, heap.external = some external ∧
      heap.dealloc issued.allocation.pointer =
        (external.heap.dealloc external.region issued.allocation.pointer).map fun freed =>
          { heap with external := some { external with heap := freed } } := by
  have isLive := mem_issuedBy mem
  rw [isIssuer] at isLive
  cases isExternal : heap.external with
  | none =>
    rw [regions.absent isExternal] at isLive
    cases isLive
  | some external =>
    obtain ⟨blocks, intact⟩ := regions.externalIntact isExternal
    obtain ⟨above, below⟩ := intact.pointer_bounds isLive
    have notNull : issued.allocation.pointer ≠ 0 := by
      simp only [headerSize] at above
      omega
    have owns : ExpandableHeap.External.owns external issued.allocation.pointer = true := by
      rw [ExpandableHeap.External.owns, saturatingAdd_of_lt external.region.inMemory,
        Bool.and_eq_true, decide_eq_true_eq, decide_eq_true_eq]
      omega
    refine ⟨external, rfl, ?_⟩
    rw [ExpandableHeap.dealloc, if_neg notNull, isExternal, Heap.dealloc, if_neg notNull]
    exact if_pos owns

theorem dealloc_bootstrap (regions : Regions heap live) (mem : issued ∈ live)
    (isIssuer : issued.issuer = .bootstrap) :
    heap.dealloc issued.allocation.pointer =
      (heap.bootstrap.dealloc bootstrapRegion issued.allocation.pointer).map fun bootstrap =>
        { heap with bootstrap } := by
  have isLive := mem_issuedBy mem
  rw [isIssuer] at isLive
  obtain ⟨blocks, intact⟩ := regions.bootstrap.intact isLive
  obtain ⟨above, below⟩ := intact.pointer_bounds isLive
  have notNull : issued.allocation.pointer ≠ 0 := by
    simp only [headerSize] at above
    omega
  change _ = heap.deallocBootstrap issued.allocation.pointer
  rw [ExpandableHeap.dealloc, if_neg notNull]
  cases heap.external with
  | none => rfl
  | some external =>
    refine if_neg ?_
    have apart := external.apart
    rw [ExpandableHeap.External.owns, saturatingAdd_of_lt external.region.inMemory,
      Bool.and_eq_true, decide_eq_true_eq, decide_eq_true_eq]
    omega

theorem isSome_of_dealloc (freed : heap.dealloc pointer = some heap') :
    heap'.external.isSome = heap.external.isSome := by
  have direct (released : heap.deallocBootstrap pointer = some heap') :
      heap'.external.isSome = heap.external.isSome := by
    obtain ⟨bootstrap, -, rfl⟩ := Option.map_eq_some_iff.mp released
    rfl
  unfold ExpandableHeap.dealloc at freed
  split at freed
  · cases freed
    rfl
  · split at freed
    · exact direct freed
    · rename_i external isExternal
      split at freed
      · obtain ⟨used, -, rfl⟩ := Option.map_eq_some_iff.mp freed
        rw [isExternal]
        rfl
      · exact direct freed

theorem deallocated (regions : Regions heap (before ++ issued :: after))
    (freed : heap.dealloc issued.allocation.pointer = some heap') :
    Regions heap' (before ++ after) := by
  have isLive : issued ∈ before ++ issued :: after := by simp
  cases isIssuer : issued.issuer with
  | bootstrap =>
    rw [regions.dealloc_bootstrap isLive isIssuer] at freed
    obtain ⟨bootstrap, released, rfl⟩ := Option.map_eq_some_iff.mp freed
    have split := issuedBy_cons_same issued after
    have other := @issuedBy_cons_other .external issued (by simp [isIssuer]) after
    rw [isIssuer] at split
    obtain ⟨bootstrapRun, external, absent⟩ := regions
    rw [issuedBy_append, split] at bootstrapRun
    rw [issuedBy_append, other, ← issuedBy_append] at external absent
    refine ⟨?_, external, absent⟩
    rw [issuedBy_append]
    exact bootstrapRun.deallocated released
  | external =>
    obtain ⟨external, isExternal, routed⟩ := regions.dealloc_external isLive isIssuer
    rw [routed] at freed
    obtain ⟨used, released, rfl⟩ := Option.map_eq_some_iff.mp freed
    have split := issuedBy_cons_same issued after
    have other := @issuedBy_cons_other .bootstrap issued (by simp [isIssuer]) after
    rw [isIssuer] at split
    obtain ⟨bootstrapRun, externalRun, absent⟩ := regions
    rw [issuedBy_append, other, ← issuedBy_append] at bootstrapRun
    obtain ⟨history, run⟩ := externalRun external isExternal
    rw [issuedBy_append, split] at run
    refine ⟨bootstrapRun, ?_, nofun⟩
    intro external' same
    cases same
    rw [issuedBy_append]
    exact ⟨_, run.deallocated released⟩

theorem of_initializeExternal
    (accepted : heap.initializeExternal address capacity memory = .ok heap') :
    heap.external = none ∧ heap'.bootstrap = heap.bootstrap ∧
      ∃ external, heap'.external = some external ∧
        external.heap = Heap.initializeRegion { state := .new, memory } external.region.capacity := by
  unfold ExpandableHeap.initializeExternal at accepted
  split at accepted
  · cases accepted
  split at accepted
  · cases accepted
  split at accepted
  · cases accepted
  split at accepted
  · cases accepted
  · rename_i isNone
    cases accepted
    exact ⟨isNone, rfl, _, rfl, rfl⟩

theorem extended (regions : Regions heap live)
    (accepted : heap.initializeExternal address capacity memory = .ok heap') :
    Regions heap' live := by
  obtain ⟨isNone, bootstrap, external, isExternal, isNew⟩ := of_initializeExternal accepted
  refine ⟨?_, ?_, ?_⟩
  · rw [bootstrap]
    exact regions.bootstrap
  · intro external' same
    rw [isExternal] at same
    cases same
    rw [regions.absent isNone, isNew]
    exact ⟨_, .start memory⟩
  · intro isNone'
    rw [isExternal] at isNone'
    cases isNone'

theorem of_stats (asked : heap.stats = some (stats, heap')) :
    heap' = { heap with
      bootstrap := heap.bootstrap.initializeRegion bootstrapRegion.capacity } := by
  unfold ExpandableHeap.stats at asked
  split at asked
  · cases asked
  · rename_i total bootstrap measured
    obtain ⟨total', -, same⟩ := Option.map_eq_some_iff.mp measured
    cases same
    split at asked
    · cases asked
      rfl
    · obtain ⟨figures, -, same⟩ := Option.map_eq_some_iff.mp asked
      cases same
      rfl

theorem inspected (regions : Regions heap live) (asked : heap.stats = some (stats, heap')) :
    Regions heap' live := by
  obtain ⟨history, run⟩ := regions.bootstrap.setUp
  rw [of_stats asked]
  exact ⟨.inl ⟨history, run⟩, regions.external, regions.absent⟩

theorem writtenExternal (regions : Regions heap live) (isExternal : heap.external = some external)
    (only : ∀ address, (∀ allocation ∈ issuedBy .external live,
      address ∉ (allocation.userRange external.region).points) →
      memory address = external.heap.memory address) :
    Regions { heap with
      external := some { external with heap := { external.heap with memory } } } live := by
  obtain ⟨history, run⟩ := regions.external external isExternal
  refine ⟨regions.bootstrap, ?_, nofun⟩
  intro external' same
  cases same
  exact ⟨history, run.written memory only⟩

end Regions

/-- Every step of the heap is a step of one of its regions, or of none. -/
theorem ExpandableRun.regions (run : ExpandableRun bootstrapRegion heap live count) :
    Regions heap live ∧ count = if heap.external.isSome then 1 else 0 := by
  induction run with
  | start memory => exact ⟨Regions.start memory, rfl⟩
  | allocated layout _ made ih =>
    refine ⟨ih.1.allocated made, ih.2.trans ?_⟩
    rw [Regions.isSome_of_alloc made]
  | refused layout _ made ih =>
    refine ⟨ih.1.refused made, ih.2.trans ?_⟩
    rw [Regions.isSome_of_alloc made]
  | deallocated _ freed ih =>
    refine ⟨ih.1.deallocated freed, ih.2.trans ?_⟩
    rw [Regions.isSome_of_dealloc freed]
  | extended address capacity memory _ accepted ih =>
    refine ⟨ih.1.extended accepted, ?_⟩
    obtain ⟨isNone, -, external, isExternal, -⟩ := Regions.of_initializeExternal accepted
    rw [ih.2, isNone, isExternal]
    rfl
  | inspected _ asked ih =>
    refine ⟨ih.1.inspected asked, ih.2.trans ?_⟩
    rw [Regions.of_stats asked]
  | writtenBootstrap memory _ only ih =>
    exact ⟨⟨ih.1.bootstrap.written only, ih.1.external, ih.1.absent⟩, ih.2⟩
  | writtenExternal memory _ isExternal only ih =>
    refine ⟨ih.1.writtenExternal isExternal only, ?_⟩
    rw [ih.2, isExternal]
    rfl

/-- The block of the allocation has joined the free list of its region. -/
def Heap.Reclaims (region : Region) (heap heap' : Heap) (allocation : Allocation) : Prop :=
  ∃ blocks blocks', Segment heap.memory heap.state.freeHead blocks freeListEnd ∧
    Segment heap'.memory heap'.state.freeHead blocks' freeListEnd ∧
    cover blocks' = (allocation.block region heap).points ∪ cover blocks

/-- A deallocation changes the region that issued the pointer, and only that one. -/
def ExpandableHeap.Returns (heap heap' : ExpandableHeap bootstrapRegion) (issued : Issued) : Prop :=
  match issued.issuer with
  | .bootstrap => heap'.external = heap.external ∧
      heap.bootstrap.Reclaims bootstrapRegion heap'.bootstrap issued.allocation
  | .external => heap'.bootstrap = heap.bootstrap ∧
      ∃ external external', heap.external = some external ∧ heap'.external = some external' ∧
        external'.region = external.region ∧
        external.heap.Reclaims external.region external'.heap issued.allocation

/-- What holds of the two regions after every run. -/
structure Routed (heap : ExpandableHeap bootstrapRegion) (live : List Issued) (count : Nat) :
    Prop where
  once : count ≤ 1
  /-- The first storage, which is set up when it is first used. -/
  bootstrapTiles : ∃ history blocks, Sound bootstrapRegion
    (heap.bootstrap.initializeRegion bootstrapRegion.capacity) (issuedBy .bootstrap live) history
    blocks
  externalTiles : ∀ external, heap.external = some external →
    ∃ history blocks, Sound external.region external.heap (issuedBy .external live) history blocks
  returned : ∀ issued ∈ live, ∃ heap', heap.dealloc issued.allocation.pointer = some heap' ∧
    heap.Returns heap' issued
  figures : ∃ stats heap', heap.stats = some (stats, heap') ∧
    stats.liveAllocations = live.length ∧ stats.usedBytes + stats.freeBytes = stats.capacityBytes

section

variable {heap : ExpandableHeap bootstrapRegion} {live : List Issued} {count : Nat}

theorem Intact.reclaims {region : Region} {heap : Heap} {live : List Allocation}
    {blocks : List Interval} {allocation : Allocation} (intact : Intact region heap live blocks)
    (mem : allocation ∈ live) :
    ∃ heap', heap.dealloc region allocation.pointer = some heap' ∧
      heap.Reclaims region heap' allocation := by
  obtain ⟨before, after, rfl⟩ := List.append_of_mem mem
  obtain ⟨heap', freed, intact', -⟩ := intact.released
  exact ⟨heap', freed, blocks, _, intact.segment, intact'.segment, cover_join _ _⟩

theorem Regions.returned (regions : Regions heap live) {issued : Issued} (mem : issued ∈ live) :
    ∃ heap', heap.dealloc issued.allocation.pointer = some heap' ∧ heap.Returns heap' issued := by
  have isLive := Regions.mem_issuedBy mem
  unfold ExpandableHeap.Returns
  cases isIssuer : issued.issuer with
  | bootstrap =>
    rw [isIssuer] at isLive
    obtain ⟨blocks, intact⟩ := regions.bootstrap.intact isLive
    obtain ⟨bootstrap, freed, reclaims⟩ := intact.reclaims isLive
    rw [regions.dealloc_bootstrap mem isIssuer, freed]
    exact ⟨_, rfl, rfl, reclaims⟩
  | external =>
    rw [isIssuer] at isLive
    obtain ⟨external, isExternal, routed⟩ := regions.dealloc_external mem isIssuer
    obtain ⟨blocks, intact⟩ := regions.externalIntact isExternal
    obtain ⟨used, freed, reclaims⟩ := intact.reclaims isLive
    rw [routed, freed]
    exact ⟨_, rfl, rfl, external, _, isExternal, rfl, rfl, reclaims⟩

/-- The sums of the figures do not saturate: the two regions lie side by side in memory. -/
theorem Regions.figures (regions : Regions heap live) :
    ∃ stats heap', heap.stats = some (stats, heap') ∧ stats.liveAllocations = live.length ∧
      stats.usedBytes + stats.freeBytes = stats.capacityBytes := by
  obtain ⟨history, run⟩ := regions.bootstrap.setUp
  obtain ⟨⟨blocks, intact⟩, -⟩ := run.intact
  obtain ⟨total, measured, capacity, count, sum⟩ := intact.regionStats
  have split := length_issuedBy live
  unfold ExpandableHeap.stats Heap.stats
  simp only [measured, Option.map_some]
  cases isExternal : heap.external with
  | none =>
    rw [regions.absent isExternal, List.length_nil] at split
    exact ⟨total, _, rfl, by omega, by omega⟩
  | some external =>
    obtain ⟨blocks', intact'⟩ := regions.externalIntact isExternal
    obtain ⟨figures, measured', capacity', count', sum'⟩ := intact'.regionStats
    have inMemory := bootstrapRegion.inMemory
    have inMemory' := external.region.inMemory
    have apart := external.apart
    have few := intact.length_live_le
    have few' := intact'.length_live_le
    have counter := intact.count
    have counter' := intact'.count
    have whole := intact.total_eq
    have whole' := intact'.total_eq
    simp only [measured', Option.map_some]
    refine ⟨_, _, rfl, ?_, ?_⟩
    · simp only [HeapStats.add]
      rw [saturatingAdd_of_lt (by omega)]
      omega
    · simp only [HeapStats.add]
      rw [saturatingAdd_of_lt (by omega), saturatingAdd_of_lt (by omega),
        saturatingAdd_of_lt (by omega)]
      omega

theorem sample_two_regions :
    ∃ heap : ExpandableHeap sampleRegion, ExpandableRun sampleRegion heap
      [{ allocation := { pointer := 8256, size := 10 }, issuer := .external },
        { allocation := { pointer := 4160, size := 10 }, issuer := .bootstrap }] 1 := by
  have served : (do
      let (first, heap) ← (ExpandableHeap.new fun _ => 0 : ExpandableHeap sampleRegion).alloc
        sampleLayout
      let heap' ← (heap.initializeExternal 8192 256 fun _ => 0).toOption
      let (second, _) ← heap'.alloc sampleLayout
      return (first, (ExpandableHeap.new fun _ => 0 : ExpandableHeap sampleRegion).issuer
        sampleLayout, second, heap'.issuer sampleLayout)) =
      some (some 4160, .bootstrap, some 8256, .external) := by
    decide +kernel
  obtain ⟨⟨first, heap⟩, taken, served⟩ := Option.bind_eq_some_iff.mp served
  obtain ⟨heap', accepted, served⟩ := Option.bind_eq_some_iff.mp served
  obtain ⟨⟨second, final⟩, taken', served⟩ := Option.bind_eq_some_iff.mp served
  simp only [Option.pure_def, Option.some.injEq, Prod.mk.injEq] at served
  obtain ⟨rfl, issuer, rfl, issuer'⟩ := served
  have isOk : heap.initializeExternal 8192 256 (fun _ => 0) = .ok heap' := by
    cases result : heap.initializeExternal 8192 256 fun _ => 0 with
    | error _ =>
      rw [result] at accepted
      cases accepted
    | ok _ =>
      rw [result] at accepted
      cases accepted
      rfl
  have begin := ExpandableRun.allocated sampleLayout (.start fun _ => 0) taken
  have extended := ExpandableRun.extended 8192 256 (fun _ => 0) begin isOk
  have run := ExpandableRun.allocated sampleLayout extended taken'
  rw [issuer, issuer'] at run
  exact ⟨final, run⟩

/-- Every pointer goes back to the region that issued it, there is at most one second region, both
    are tiled, and the figures add up. -/
theorem two_regions_routed (run : ExpandableRun bootstrapRegion heap live count) :
    Routed heap live count := by
  obtain ⟨regions, counted⟩ := run.regions
  refine ⟨?_, ?_, ?_, fun issued mem => regions.returned mem, regions.figures⟩
  · rw [counted]
    split <;> omega
  · obtain ⟨history, bootstrap⟩ := regions.bootstrap.setUp
    obtain ⟨⟨blocks, intact⟩, peaked⟩ := bootstrap.intact
    exact ⟨history, blocks, intact.sound peaked⟩
  · intro external isExternal
    obtain ⟨history, externalRun⟩ := regions.external external isExternal
    obtain ⟨⟨blocks, intact⟩, peaked⟩ := externalRun.intact
    exact ⟨history, blocks, intact.sound peaked⟩

/-- One block from the first storage, then a second region and a block from there. -/
theorem two_regions_routed_sample :
    ∃ heap : ExpandableHeap sampleRegion, ExpandableRun sampleRegion heap
        [{ allocation := { pointer := 8256, size := 10 }, issuer := .external },
          { allocation := { pointer := 4160, size := 10 }, issuer := .bootstrap }] 1 ∧
      Routed heap
        [{ allocation := { pointer := 8256, size := 10 }, issuer := .external },
          { allocation := { pointer := 4160, size := 10 }, issuer := .bootstrap }] 1 := by
  obtain ⟨heap, run⟩ := sample_two_regions
  exact ⟨heap, run, two_regions_routed run⟩

end

end

end CodexOS.HeapAllocator
