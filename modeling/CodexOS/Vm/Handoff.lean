import CodexOS.Memory.Completeness
import CodexOS.Memory.Reserving
import CodexOS.Vm.BootWindows

/-! # The tables that the kernel takes over

The loader builds the kernel's tables from pages of its own allocator. What that
allocator has handed out is entered as reserved before the kernel starts an allocator of
its own, so none of the tables is given out again while the processor uses it.
-/

namespace CodexOS.Vm

open Effect Word64 Memory Intervals VirtualMemoryManager

/-! ## The boot runtime -/

/-- The machine of the loader, with the boot information it passes on. -/
structure Booting where
  machine : Machine PhysicalPageAllocator
  bootInfo : StagedBootInfo

abbrev BootM := EStateM VmError Booting

def onVm {β : Type} (x : VmM PhysicalPageAllocator β) : BootM β := fun booting =>
  match x.run booting.machine with
  | .ok b machine => .ok b { booting with machine }
  | .error error machine => .error error { booting with machine }

/-- `boot_runtime::init`, as far as it is about memory. A failure of the write-back is only
    logged. -/
def bootInit : BootM (Option Nat) := do
  modify fun booting =>
    { booting with machine.pages := .init booting.bootInfo.toBootInfo }
  match ← onVm init with
  | none => return none
  | some root => do
    tryCatch (onVm (discard syncPages)) fun _ => return ()
    return some root

/-- The loop over the allocated ranges. -/
def reservePageTables : List (Nat × Nat) → BootM Unit
  | [] => return ()
  | (start, length) :: ranges => do
    let booting ← get
    match booting.bootInfo.reserveMemory (.ofNat start) (.ofNat length) .pageTables with
    | none => throw .reservedRangeCapacity
    | some bootInfo => do
      set { booting with bootInfo.toBootInfo := bootInfo }
      reservePageTables ranges

def activatePostEbsVm (stackPointer : Nat) : BootM Nat := do
  let bootInfo := (← get).bootInfo
  if bootInfo.firmwareMode ≠ .postExitBootServices then throw .firmwareServicesActive
  else do
    let _report ← onVm (prepareBootIdentityMap bootInfo stackPointer)
    let allocatedRanges := (← get).machine.pages.allocatedRanges
    reservePageTables allocatedRanges
    onVm activate

/-! ## The allocator as a source of tables -/

section

variable {bootInfo : BootInfo} {allocator allocator' : PhysicalPageAllocator} {live : List Interval}
  {page : Nat}

theorem inUse_eq (disjoint : DisjointRegions bootInfo) (run : Reachable bootInfo allocator live) :
    allocator.inUse = cover live :=
  (run.consistent disjoint).inUse.symm

theorem of_allocatePage (disjoint : DisjointRegions bootInfo)
    (low : ∀ address, Usable bootInfo address → address < 2 ^ 52)
    (run : Reachable bootInfo allocator live)
    (step : allocator.allocatePage = (some page, allocator')) :
    IsFrame page ∧ ¬(pageRange page 1).points ⊆ allocator.inUse ∧
      (pageRange page 1).points ⊆ allocator'.inUse := by
  have run' : Reachable bootInfo allocator' (pageRange page 1 :: live) := .allocated run step
  have h := run'.consistent disjoint
  have first := @self_mem_pageRange page
  have new : Disjoint (pageRange page 1).points (cover live) :=
    disjoint_cover.mpr (List.pairwise_cons.mp h.disjoint).1
  refine ⟨⟨(h.whole _ List.mem_cons_self).1, ?_⟩, ?_, ?_⟩
  · exact low page (h.safe.usable _ List.mem_cons_self page first)
  · rw [inUse_eq disjoint run]
    exact fun inside => Finset.disjoint_left.mp new first (inside first)
  · rw [inUse_eq disjoint run', cover_cons]
    exact Finset.subset_union_left

theorem allocatePage_reachable (run : Reachable bootInfo allocator live) :
    ∃ live', Reachable bootInfo allocator.allocatePage.2 live' ∧ cover live ⊆ cover live' := by
  rcases step : allocator.allocatePage with ⟨answer, allocator'⟩
  cases answer with
  | none => exact ⟨live, .exhausted run step, Finset.Subset.refl _⟩
  | some page =>
    refine ⟨_, .allocated run step, ?_⟩
    rw [cover_cons]
    exact Finset.subset_union_right

/-- The allocator gives pages that are not in use, if its memory is within reach of an entry. -/
def allocatorSupply (disjoint : DisjointRegions bootInfo)
    (low : ∀ address, Usable bootInfo address → address < 2 ^ 52) :
    Supply PhysicalPageAllocator where
  Valid allocator := ∃ live, Reachable bootInfo allocator live
  Used allocator page := (pageRange page 1).points ⊆ allocator.inUse
  fresh := by
    rintro allocator page ⟨live, run⟩ answer
    exact of_allocatePage disjoint low run (Prod.ext answer rfl)
  valid := by
    rintro allocator ⟨live, run⟩
    obtain ⟨live', run', -⟩ := allocatePage_reachable run
    exact ⟨live', run'⟩
  keeps := by
    rintro allocator page ⟨live, run⟩ inUse
    obtain ⟨live', run', grown⟩ := allocatePage_reachable run
    rw [inUse_eq disjoint run] at inUse
    exact (inUse.trans grown).trans (inUse_eq disjoint run').ge

end

/-! ## Tables in memory -/

/-- The tables that the processor can come to from the root, with how far down they are. -/
inductive TableIn (memory : ByteMemory) (root : Nat) : Nat → Nat → Prop where
  | root : TableIn memory root 0 (entryAddress root)
  | child {depth table : Nat} {index : Index} (above : TableIn memory root depth table)
      (inner : depth < 3) (present : isPresent (readEntry memory table index) = true) :
      TableIn memory root (depth + 1) (entryAddress (readEntry memory table index))

section

variable {memory : ByteMemory} {tree : TableTree} {used : Nat → Prop} {root : PageTablePage}
  {depth table : Nat}

/-- Tables in memory are tables of the tree. -/
theorem TableIn.of_wired (isTable : TableIn memory root.physAddr depth table)
    (wired : Wired used tree) (inMemory : Wired.InMemory memory tree) (isRoot : tree [] = some root) :
    ∃ path page, tree path = some page ∧ path.length = depth ∧ page.physAddr = table := by
  induction isTable with
  | root => exact ⟨[], root, isRoot, rfl, ((wired.frame isRoot).1.and_mask).symm⟩
  | @child depth table index above inner present ih =>
    obtain ⟨path, page, found, isDepth, isPage⟩ := ih
    rw [← isPage, inMemory found index] at present ⊢
    rcases wired.inner_cases found (isDepth ▸ inner) index with
      ⟨-, empty⟩ | ⟨child, isChild, entry, address⟩
    · rw [empty, isPresent_zero] at present
      cases present
    · refine ⟨path ++ [index], child, isChild, ?_, ?_⟩
      · rw [List.length_append, isDepth]
        rfl
      · rw [entry, address]

end

/-! ## Memory that the direct map reaches -/

section

variable {α : Type} [PageSource α] {machine machine' : Machine α} {start stop new : Nat}
  {writable executable : Bool}

/-- The window of a range has the same distance to the end of the address space as the range to
    the end of memory. -/
theorem low_of_window (window : higherHalfPhys start = some windowVirt) (nonempty : start < stop)
    (run : (mapWindowRange windowVirt start stop writable executable).run machine =
      .ok new machine') :
    stop ≤ 2 ^ 47 := by
  obtain ⟨small, rfl⟩ := checkedAdd_eq_some.mp window
  have startAligned := alignDown_mod start
  have stopAligned : alignUp stop % pageSize = 0 := alignDown_mod _
  have below : alignDown start ≤ start := Nat.sub_le _ _
  have rounded := le_alignUp stop
  have base : highHalfDirectMapBase = 2 ^ 64 - 2 ^ 47 := by decide
  obtain empty | ⟨-, -, fits⟩ := (mapWindowRange_ok_iff.mp run).2.1
  all_goals
    unfold pagesBetween at *
    generalize alignDown start = first at *
    generalize alignUp stop = last at *
    unfold size pageSize at *
    omega

theorem low_of_mapUsableRegions
    (run : (mapUsableRegions mode report regions).run machine = .ok report' machine') :
    ∀ region ∈ regions, mode.regionIsCurrentlyUsable region.kind = true →
      region.start.toNat < region.stop → region.stop ≤ 2 ^ 47 := by
  induction regions generalizing report machine with
  | nil => nofun
  | cons first rest ih =>
    unfold mapUsableRegions at run
    split at run
    next skipped =>
      intro region mem usable nonempty
      rcases List.mem_cons.mp mem with rfl | later
      · have isEmpty : region.pageCount = 0 := by simpa [usable] using skipped
        rw [MemoryRegion.stop, MemoryRegion.sizeBytes, isEmpty] at nonempty
        unfold saturatingAdd saturatingMul at nonempty
        simp at nonempty
      · exact ih run region later usable nonempty
    next =>
      obtain ⟨windowVirt, _, isVirt, run⟩ := of_bind_ok run
      obtain ⟨window, same⟩ := of_orFail isVirt
      rw [same] at run
      obtain ⟨regionEnd, _, isEnd, run⟩ := of_bind_ok run
      obtain ⟨ends, same⟩ := of_orFail isEnd
      rw [same] at run
      obtain ⟨pages, mapped, isMapped, run⟩ := of_bind_ok run
      intro region mem usable nonempty
      rcases List.mem_cons.mp mem with rfl | later
      · obtain ⟨small, rfl⟩ := checkedAdd_eq_some.mp ends
        have isStop : region.stop = region.start.toNat + region.sizeBytes :=
          saturatingAdd_of_lt small
        rw [isStop] at nonempty ⊢
        exact low_of_window window nonempty (of_onConflict isMapped)
      · exact ih run region later usable nonempty

/-- Once the map for the boot is prepared, all usable memory is known to be low. -/
theorem low_of_prepareBootIdentityMap
    (run : (prepareBootIdentityMap bootInfo stackPointer).run machine = .ok report machine')
    (usable : Usable bootInfo.toBootInfo address) : address < 2 ^ 52 := by
  change EStateM.run (if !machine.manager.initialized then _ else _) machine = _ at run
  split at run
  · cases run
  obtain ⟨_, _, -, run⟩ := of_bind_ok run
  obtain ⟨_, _, -, run⟩ := of_bind_ok run
  obtain ⟨_, _, -, run⟩ := of_bind_ok run
  obtain ⟨_, _, -, run⟩ := of_bind_ok run
  obtain ⟨_, _, -, run⟩ := of_bind_ok run
  obtain ⟨_, _, isUsable, -⟩ := of_bind_ok run
  obtain ⟨region, mem, isKind, above, below⟩ := usable
  have low := low_of_mapUsableRegions isUsable region mem isKind (above.trans_lt below)
  omega

end

/-! ## Steps of the boot that return -/

section

variable {booting booting' : Booting} {machine machine' : Machine PhysicalPageAllocator} {root : Nat}

theorem of_onVm (run : (onVm x).run booting = .ok b booting') :
    ∃ machine, x.run booting.machine = .ok b machine ∧ booting' = { booting with machine } := by
  change onVm x booting = _ at run
  unfold onVm at run
  cases inner : x.run booting.machine with
  | ok value machine =>
    rw [inner] at run
    cases run
    exact ⟨machine, rfl, rfl⟩
  | error error machine =>
    rw [inner] at run
    cases run

theorem onVm_ok (run : x.run booting.machine = .ok b machine) :
    (onVm x).run booting = .ok b { booting with machine } := by
  change onVm x booting = _
  rw [onVm, run]

theorem bootInit_run {pages : PhysicalPageAllocator} {memory : ByteMemory} {cr3 : Nat}
    {bootInfo : StagedBootInfo} (started : init.run
      (Machine.cold (PhysicalPageAllocator.init bootInfo.toBootInfo) memory cr3) =
        .ok (some root) machine)
    (initialized : machine.manager.initialized = true) :
    bootInit.run { machine := Machine.cold pages memory cr3, bootInfo } =
      .ok (some root) { machine := machine.synced, bootInfo } := by
  have syncRun : (discard syncPages).run machine = .ok () machine.synced := by
    change (syncPages >>= fun _ => pure ()).run machine = _
    rw [bind_ok (syncPages_ok initialized)]
    rfl
  change EStateM.run (onVm init >>= _)
    { machine := Machine.cold (PhysicalPageAllocator.init bootInfo.toBootInfo) memory cr3,
      bootInfo } = _
  rw [bind_ok (onVm_ok started)]
  change EStateM.run (tryCatch (onVm (discard syncPages)) (fun _ => pure ()) >>= _)
    { machine, bootInfo } = _
  have caught : (tryCatch (onVm (discard syncPages)) (fun _ => pure ()) : BootM Unit).run
      { machine, bootInfo } = .ok () { machine := machine.synced, bootInfo } := by
    change EStateM.tryCatch _ _ _ = _
    unfold EStateM.tryCatch
    rw [show onVm (discard syncPages) { machine, bootInfo } = _ from onVm_ok syncRun]
  rw [bind_ok caught]
  rfl

theorem toNat_ofNat_range (small : start + length < size) :
    (UInt64.ofNat start).toNat = start ∧ (UInt64.ofNat length).toNat = length :=
  ⟨UInt64.toNat_ofNat_of_lt' (show start < size by omega),
    UInt64.toNat_ofNat_of_lt' (show length < size by omega)⟩

theorem of_reservePageTables (run : (reservePageTables ranges).run booting = .ok () booting') :
    booting'.machine = booting.machine ∧
      Reserves booting.bootInfo.toBootInfo booting'.bootInfo.toBootInfo ∧
      ∀ range ∈ ranges, range.1 + range.2 < size →
        Covered booting'.bootInfo.toBootInfo .pageTables range.1 (range.1 + range.2) := by
  induction ranges generalizing booting with
  | nil =>
    cases run
    exact ⟨rfl, .refl _, nofun⟩
  | cons first rest ih =>
    obtain ⟨start, length⟩ := first
    unfold reservePageTables at run
    obtain ⟨_, _, got, run⟩ := of_bind_ok run
    cases got
    split at run
    next => cases run
    next bootInfo entered =>
      obtain ⟨_, _, isSet, run⟩ := of_bind_ok run
      cases isSet
      obtain ⟨same, later, covered⟩ := ih run
      refine ⟨same, (reserves_of_reserveMemory entered).trans later, ?_⟩
      intro range mem small
      rcases List.mem_cons.mp mem with rfl | isLater
      · dsimp only at small ⊢
        obtain ⟨isStart, isLength⟩ := toNat_ofNat_range small
        have inside := covered_of_reserveMemory (by rw [isStart, isLength]; exact small) entered
        rw [isStart, isLength] at inside
        exact later.covered inside
      · exact covered range isLater small

theorem of_activate (committed : machine.manager.committed = true)
    (run : activate.run machine = .ok root machine') :
    root = machine.manager.root.physAddr ∧ machine'.memory = machine.memory ∧
      machine'.cr3 = root := by
  change EStateM.run (if !machine.manager.initialized then _ else _) machine = _ at run
  split at run
  · cases run
  obtain ⟨_, between, isSynced, run⟩ := of_bind_ok run
  change EStateM.run (if !machine.manager.committed then _ else _) machine = _ at isSynced
  rw [committed] at isSynced
  cases isSynced
  cases run
  exact ⟨rfl, rfl, rfl⟩

theorem of_bootInit (run : bootInit.run { machine := Machine.cold pages memory cr3, bootInfo } =
      .ok (some root) booting') :
    ∃ started, init.run (Machine.cold (PhysicalPageAllocator.init bootInfo.toBootInfo) memory cr3) =
        .ok (some root) started ∧ booting' = { machine := Machine.synced started, bootInfo } := by
  cases answer : (PageSource.allocatePage (PhysicalPageAllocator.init bootInfo.toBootInfo)).1 with
  | none =>
    have none := @init_cold_none _ _ _ memory cr3 answer
    change EStateM.run (onVm init >>= _)
      { machine := Machine.cold (PhysicalPageAllocator.init bootInfo.toBootInfo) memory cr3,
        bootInfo } = _ at run
    rw [bind_ok (onVm_ok none)] at run
    cases run
  | some page =>
    have started := @init_cold_some _ _ _ memory cr3 page answer
    rw [bootInit_run started rfl] at run
    cases run
    exact ⟨_, started, rfl⟩

theorem of_activatePostEbsVm
    (run : (activatePostEbsVm stackPointer).run booting = .ok root booting') :
    ∃ report prepared reserved,
      (prepareBootIdentityMap booting.bootInfo stackPointer).run booting.machine =
        .ok report prepared ∧
      (reservePageTables prepared.pages.allocatedRanges).run
        { machine := prepared, bootInfo := booting.bootInfo } = .ok () reserved ∧
      activate.run reserved.machine = .ok root booting'.machine ∧
      booting'.bootInfo = reserved.bootInfo := by
  unfold activatePostEbsVm at run
  obtain ⟨_, _, got, run⟩ := of_bind_ok run
  cases got
  dsimp only at run
  split at run
  · cases run
  obtain ⟨report, _, prepares, run⟩ := of_bind_ok run
  obtain ⟨prepared, isPrepared, rfl⟩ := of_onVm prepares
  obtain ⟨_, _, got, run⟩ := of_bind_ok run
  cases got
  obtain ⟨_, reserved, isReserved, run⟩ := of_bind_ok run
  obtain ⟨activated, isActivated, rfl⟩ := of_onVm run
  exact ⟨report, prepared, reserved, isPrepared, isReserved, isActivated, rfl⟩

end

/-! ## The handoff -/

section

variable {pages allocator allocator' : PhysicalPageAllocator} {memory : ByteMemory}
  {cr3 firstRoot root stackPointer : Nat} {bootInfo : StagedBootInfo} {booted handed : Booting}

/-- The tables in use lie in pages that are in use, and these are reserved. -/
theorem tables_covered (disjoint : DisjointRegions bootInfo.toBootInfo)
    (started : bootInit.run { machine := Machine.cold pages memory cr3, bootInfo } =
      .ok (some firstRoot) booted)
    (activated : (activatePostEbsVm stackPointer).run booted = .ok root handed) :
    handed.machine.cr3 = root ∧ Reserves bootInfo.toBootInfo handed.bootInfo.toBootInfo ∧
      ∀ depth table, TableIn handed.machine.memory root depth table →
        Covered handed.bootInfo.toBootInfo .pageTables table (table + pageSize) := by
  obtain ⟨rooted, isRooted, rfl⟩ := of_bootInit started
  obtain ⟨report, prepared, reserved, isPrepared, isReserved, isActivated, isInfo⟩ :=
    of_activatePostEbsVm activated
  let supply := allocatorSupply disjoint fun _ => low_of_prepareBootIdentityMap isPrepared
  have valid : supply.Valid (PhysicalPageAllocator.init bootInfo.toBootInfo) := ⟨[], .init⟩
  obtain ⟨coherent, -, -, -⟩ := init_coherent valid isRooted
  obtain ⟨entered, rfl, -, coherent', -⟩ :=
    synced_of_prepareBootIdentityMap coherent.synced isPrepared
  obtain ⟨sameMachine, reserves, covered⟩ := of_reservePageTables isReserved
  rw [sameMachine] at isActivated
  obtain ⟨rfl, sameMemory, isCr3⟩ := of_activate rfl isActivated
  rw [isInfo]
  refine ⟨isCr3, reserves, fun depth table isTable => ?_⟩
  rw [sameMemory] at isTable
  obtain ⟨path, page, found, -, rfl⟩ :=
    TableIn.of_wired isTable coherent'.wired coherent'.inMemory rfl
  obtain ⟨frame, used⟩ := coherent'.wired.frame found
  obtain ⟨live, run⟩ := coherent'.valid
  have consistent := run.consistent disjoint
  obtain ⟨range, mem, starts, ends⟩ := consistent.allocatedRanges_of_inUse frame.1 used
  obtain ⟨outer, isOuter, isKind, low, high⟩ :=
    covered range mem (consistent.of_mem_allocatedRanges mem)
  exact ⟨outer, isOuter, isKind, low.trans starts, ends.trans high⟩

/-- The tables that the processor uses when the kernel starts are reserved as page tables, and no
    run of the kernel's allocator gives out an address of them or of what was reserved before. -/
theorem page_table_handoff (disjoint : DisjointRegions bootInfo.toBootInfo)
    (started : bootInit.run { machine := Machine.cold pages memory cr3, bootInfo } =
      .ok (some firstRoot) booted)
    (activated : (activatePostEbsVm stackPointer).run booted = .ok root handed) :
    handed.machine.cr3 = root ∧
      (∀ depth table, TableIn handed.machine.memory root depth table →
        Covered handed.bootInfo.toBootInfo .pageTables table (table + pageSize)) ∧
      ∀ allocator live, Reachable handed.bootInfo.toBootInfo allocator live →
        ∀ pageCount start allocator',
          allocator.allocateContiguousPages pageCount = (some start, allocator') →
          ∀ address, start ≤ address → address < start + pageCount * pageSize →
            ¬Reserved bootInfo.toBootInfo address ∧
              ∀ depth table, TableIn handed.machine.memory root depth table →
                ¬(table ≤ address ∧ address < table + pageSize) := by
  obtain ⟨isCr3, reserves, covered⟩ := tables_covered disjoint started activated
  refine ⟨isCr3, covered, ?_⟩
  intro allocator live run pageCount start allocator' step address above below
  have safe := (Reachable.consistent (reserves.disjointRegions disjoint) (.allocated run step)).safe
  have free : ¬Reserved handed.bootInfo.toBootInfo address :=
    safe.unreserved _ List.mem_cons_self address (Interval.mem_points.mpr ⟨above, below⟩)
  refine ⟨fun before => free (reserves.reserved before), fun depth table isTable inside => ?_⟩
  obtain ⟨range, mem, -, low, high⟩ := covered depth table isTable
  exact free ⟨range, mem, low.trans inside.1, inside.2.trans_le high⟩

end

/-! ## A boot that succeeds -/

section

variable {bootInfo : BootInfo} {allocator : PhysicalPageAllocator} {live : List Interval}

theorem reserveMemory_isSome {start length : UInt64} {kind : ReservedMemoryKind}
    (nonempty : length ≠ 0) (room : bootInfo.reservedMemory.length < maxReservedMemoryRanges) :
    ∃ bootInfo', bootInfo.reserveMemory start length kind = some bootInfo' ∧
      bootInfo'.reservedMemory.length ≤ bootInfo.reservedMemory.length + 1 := by
  unfold BootInfo.reserveMemory
  rw [if_neg nonempty]
  split
  next index _ =>
    refine ⟨_, rfl, ?_⟩
    change (bootInfo.reservedMemory.modify index _).length ≤ _
    rw [List.length_modify]
    exact Nat.le_succ _
  next =>
    rw [dif_pos room]
    refine ⟨_, rfl, ?_⟩
    change (bootInfo.reservedMemory ++ [_]).length ≤ _
    rw [List.length_append]
    rfl

theorem reservePageTables_run (nonempty : ∀ range ∈ ranges, 0 < range.2 ∧ range.2 < size)
    (room : booting.bootInfo.reservedMemory.length + ranges.length ≤ maxReservedMemoryRanges) :
    ∃ booting', (reservePageTables ranges).run booting = .ok () booting' := by
  induction ranges generalizing booting with
  | nil => exact ⟨booting, rfl⟩
  | cons first rest ih =>
    obtain ⟨start, length⟩ := first
    obtain ⟨⟨positive, small⟩, others⟩ := List.forall_mem_cons.mp nonempty
    rw [List.length_cons] at room
    have isLength : (UInt64.ofNat length).toNat = length := UInt64.toNat_ofNat_of_lt' small
    have some : UInt64.ofNat length ≠ 0 := by
      intro zero
      rw [zero] at isLength
      exact absurd isLength.symm positive.ne'
    obtain ⟨bootInfo, entered, grown⟩ := @reserveMemory_isSome booting.bootInfo.toBootInfo
      (.ofNat start) (.ofNat length) .pageTables some (by omega)
    obtain ⟨booting', run⟩ := @ih { booting with bootInfo.toBootInfo := bootInfo } others (by
      dsimp only
      omega)
    refine ⟨booting', ?_⟩
    unfold reservePageTables
    rw [bind_ok (show (get : BootM Booting).run booting = .ok booting booting from rfl), entered]
    exact run

theorem activate_ok (initialized : machine.manager.initialized = true)
    (committed : machine.manager.committed = true) :
    ∃ root machine', activate.run machine = .ok root machine' := by
  have synced : syncIfChanged.run machine = .ok () machine := by
    change EStateM.run (if !machine.manager.committed then _ else _) machine = _
    rw [committed]
    rfl
  refine ⟨machine.manager.root.physAddr,
    { machine with
      cr3 := machine.manager.root.physAddr
      manager := { machine.manager with active := true } }, ?_⟩
  change EStateM.run (if !machine.manager.initialized then _ else _) machine = _
  rw [initialized]
  exact (bind_ok synced).trans rfl

theorem activatePostEbsVm_run {booting reserved : Booting} {stackPointer root : Nat}
    {report : BootVmReport} {prepared machine : Machine PhysicalPageAllocator}
    (mode : booting.bootInfo.firmwareMode = .postExitBootServices)
    (isPrepared : (prepareBootIdentityMap booting.bootInfo stackPointer).run booting.machine =
      .ok report prepared)
    (isReserved : (reservePageTables prepared.pages.allocatedRanges).run
      { machine := prepared, bootInfo := booting.bootInfo } = .ok () reserved)
    (isActivated : activate.run reserved.machine = .ok root machine) :
    (activatePostEbsVm stackPointer).run booting = .ok root { reserved with machine } := by
  unfold activatePostEbsVm
  rw [bind_ok (show (get : BootM Booting).run booting = .ok booting booting from rfl)]
  dsimp only
  rw [if_neg (not_not.mpr mode), bind_ok (onVm_ok isPrepared),
    bind_ok (show (get : BootM Booting).run _ = .ok _ _ from rfl), bind_ok isReserved]
  exact onVm_ok isActivated

instance decidableLasts : ∀ (n : Nat) (pages : PhysicalPageAllocator), Decidable (Lasts n pages)
  | 0, _ => inferInstanceAs (Decidable True)
  | n + 1, pages =>
    have := decidableLasts n (PageSource.allocatePage pages).2
    inferInstanceAs (Decidable (_ ∧ _))

/-- Sixty-four pages of memory. -/
def handoffBoot : StagedBootInfo :=
  { sampleBoot with
    memoryRegions := [{ sampleRegion with pageCount := 64 }]
    regionsFit := by decide }

theorem handoffBoot_disjoint : DisjointRegions handoffBoot.toBootInfo :=
  List.pairwise_singleton _ _

theorem handoffBoot_low (address : Nat) (usable : Usable handoffBoot.toBootInfo address) :
    address < 2 ^ 52 := by
  obtain ⟨region, mem, -, -, below⟩ := usable
  rw [List.mem_singleton.mp mem] at below
  exact below.trans (by decide)

theorem handoffBoot_lasts : Lasts 34 (PhysicalPageAllocator.init handoffBoot.toBootInfo) := by
  decide +kernel

theorem handoffBoot_oneRegion :
    (PhysicalPageAllocator.init handoffBoot.toBootInfo).regions.length = 1 := by
  decide +kernel

theorem handoffBoot_reserves {machine : Machine PhysicalPageAllocator}
    (valid : (allocatorSupply handoffBoot_disjoint handoffBoot_low).Valid machine.pages) :
    ∃ reserved, (reservePageTables machine.pages.allocatedRanges).run
      { machine, bootInfo := handoffBoot } = .ok () reserved := by
  obtain ⟨live, run⟩ := valid
  have consistent := run.consistent handoffBoot_disjoint
  refine reservePageTables_run (fun range mem => ⟨?_, ?_⟩) ?_
  · obtain ⟨region, isRegion, rfl⟩ := List.mem_map.mp mem
    have some := of_decide_eq_true (List.mem_filter.mp isRegion).2
    unfold saturatingMul maxValue size pageSize
    dsimp only
    omega
  · have small := consistent.of_mem_allocatedRanges mem
    omega
  · have few : machine.pages.allocatedRanges.length ≤ 1 := by
      unfold PhysicalPageAllocator.allocatedRanges
      have sameLength := congrArg List.length run.areas
      rw [List.length_map, List.length_map, handoffBoot_oneRegion] at sameLength
      rw [List.length_map, ← sameLength]
      exact List.length_filter_le _ _
    have isOne : handoffBoot.reservedMemory.length = 1 := by decide
    dsimp only
    unfold maxReservedMemoryRanges
    omega

theorem page_table_handoff_sample : ∃ firstRoot root booted handed,
    bootInit.run { machine := Machine.cold .new (fun _ => 0) 0, bootInfo := handoffBoot } =
      .ok (some firstRoot) booted ∧
    (activatePostEbsVm 0x40000000).run booted = .ok root handed ∧
    ∀ depth table, TableIn handed.machine.memory root depth table →
      Covered handed.bootInfo.toBootInfo .pageTables table (table + pageSize) := by
  have valid : (allocatorSupply handoffBoot_disjoint handoffBoot_low).Valid
      (PhysicalPageAllocator.init handoffBoot.toBootInfo) := ⟨[], .init⟩
  obtain ⟨firstRoot, rooted, isRooted, ready, empty⟩ :=
    Ready.init valid handoffBoot_lasts (fun _ => 0) 0
  have started := @bootInit_run _ _ .new _ _ _ isRooted ready.initialized
  have isSample : IsSample handoffBoot 64 := ⟨rfl, rfl, rfl, rfl⟩
  have stackFits : StackFits 0x40000000 := ⟨by decide, by decide, by decide⟩
  obtain ⟨report, prepared, isPrepared⟩ := isSample.prepared (by decide) (by decide)
    (⟨ready.coherent.synced, ready.initialized, ready.lasts⟩ : Ready _ 33 rooted.synced) empty
    stackFits
  obtain ⟨entered, rfl, initialized, coherent, -⟩ :=
    synced_of_prepareBootIdentityMap ready.coherent.synced isPrepared
  obtain ⟨reserved, isReserved⟩ := @handoffBoot_reserves (Machine.synced entered) coherent.valid
  obtain ⟨sameMachine, -, -⟩ := of_reservePageTables isReserved
  obtain ⟨root, machine, isActivated⟩ : ∃ root machine,
      activate.run reserved.machine = .ok root machine := by
    rw [sameMachine]
    exact activate_ok initialized rfl
  have activated : (activatePostEbsVm 0x40000000).run
      { machine := rooted.synced, bootInfo := handoffBoot } = .ok root { reserved with machine } :=
    activatePostEbsVm_run rfl isPrepared isReserved isActivated
  exact ⟨firstRoot, root, _, _, started, activated,
    (page_table_handoff handoffBoot_disjoint started activated).2.1⟩

end

end CodexOS.Vm
