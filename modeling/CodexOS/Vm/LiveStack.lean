import CodexOS.Memory.Completeness
import CodexOS.Vm.Handoff

/-! # The stack that the kernel starts on

The kernel is called on the stack that the firmware gave the loader. The loader enters its
image, the heaps, the frame buffer, the buffer of the memory map, the kernel image and the
page tables as reserved, but not the stack. So the kernel's allocator hands out the pages
of the stack that lie in memory it may reclaim, unless one of these ranges touches them.
-/

namespace CodexOS.Vm

open Effect Word64 Memory Intervals VirtualMemoryManager
open Release (KernelImageInfo)

/-! ## The record of the loader -/

/-- The types of memory that the firmware tells apart. -/
inductive MemoryType where
  | reserved
  | loaderCode
  | loaderData
  | bootServicesCode
  | bootServicesData
  | runtimeServicesCode
  | runtimeServicesData
  | conventional
  | unusable
  | acpiReclaim
  | acpiNonVolatile
  | mmio
  | mmioPortSpace
  | palCode
  | persistentMemory
  | unaccepted
  | other (code : UInt32)
  deriving DecidableEq

def mapMemoryType : MemoryType → MemoryRegionKind
  | .reserved => .reserved
  | .loaderCode => .loaderCode
  | .loaderData => .loaderData
  | .bootServicesCode => .bootServicesCode
  | .bootServicesData => .bootServicesData
  | .runtimeServicesCode => .runtimeServicesCode
  | .runtimeServicesData => .runtimeServicesData
  | .conventional => .conventional
  | .unusable => .unusable
  | .acpiReclaim => .acpiReclaim
  | .acpiNonVolatile => .acpiNonVolatile
  | .mmio => .mmio
  | .mmioPortSpace => .mmioPortSpace
  | .palCode => .palCode
  | .persistentMemory => .persistentMemory
  | .unaccepted => .unaccepted
  | .other _ => .unknown

structure MemoryDescriptor where
  ty : MemoryType
  physStart : UInt64
  pageCount : UInt64
  deriving DecidableEq

def MemoryDescriptor.stop (descriptor : MemoryDescriptor) : Nat :=
  descriptor.physStart.toNat + descriptor.pageCount.toNat * pageSize

/-- The memory map of the firmware, which names no address twice. -/
structure MemoryMap where
  entries : List MemoryDescriptor
  disjoint : entries.Pairwise fun descriptor descriptor' =>
    descriptor.stop ≤ descriptor'.physStart.toNat ∨ descriptor'.stop ≤ descriptor.physStart.toNat

/-- What `run_handoff_mode` builds the record from. Ranges are given by start and length. -/
structure HandoffInputs where
  memoryMap : MemoryMap
  memoryMapBuffer : UInt64 × UInt64
  framebuffer : UInt64 × UInt64
  kernelImage : KernelImageInfo
  loaderImage : Option (UInt64 × UInt64)
  runtimeHeap : UInt64 × UInt64
  kernelHeap : Option (UInt64 × UInt64)

def lowMemoryReserveBytes : UInt64 := 1024 * 1024

def MemoryDescriptor.region (descriptor : MemoryDescriptor) : MemoryRegion where
  start := descriptor.physStart
  pageCount := descriptor.pageCount
  kind := mapMemoryType descriptor.ty

def collectMemoryRegions (bootInfo : BootInfo) : List MemoryDescriptor → BootInfo
  | [] => bootInfo
  | descriptor :: descriptors =>
    if room : bootInfo.memoryRegions.length < maxMemoryRegions then
      collectMemoryRegions
        { bootInfo with
          memoryRegions := bootInfo.memoryRegions ++ [descriptor.region]
          regionsFit := by
            rw [List.length_append]
            exact room }
        descriptors
    else collectMemoryRegions bootInfo descriptors

def pushReservedRange (bootInfo : BootInfo) (start length : UInt64) (kind : ReservedMemoryKind) :
    BootInfo :=
  if skip : length = 0 ∨ bootInfo.reservedMemory.length ≥ maxReservedMemoryRanges then bootInfo
  else
    { bootInfo with
      reservedMemory := bootInfo.reservedMemory ++ [{ start, length, kind }]
      rangesFit := by
        rw [List.length_append]
        exact Nat.lt_of_not_le fun full => skip (.inr full) }

/-- The source's `if let Some((base, size))` around a push. -/
def pushKnownRange (bootInfo : BootInfo) (range : Option (UInt64 × UInt64))
    (kind : ReservedMemoryKind) : BootInfo :=
  match range with
  | some (base, size) => pushReservedRange bootInfo base size kind
  | none => bootInfo

/-- The pages that the kernel image was loaded to. -/
def kernelImageLoad (kernelImage : KernelImageInfo) : Option (UInt64 × UInt64) :=
  if kernelImage.loadPageCount ≠ 0 then
    some (.ofNat (alignDown kernelImage.loadBase),
      .ofNat (saturatingMul kernelImage.loadPageCount pageSize))
  else none

def collectReservedRanges (bootInfo : BootInfo) (framebuffer : UInt64 × UInt64)
    (kernelImage : KernelImageInfo)
    (loaderImage runtimeHeap kernelHeap memoryMapBuffer : Option (UInt64 × UInt64)) : BootInfo :=
  let bootInfo := pushReservedRange bootInfo 0 lowMemoryReserveBytes .lowMemory
  let bootInfo := pushKnownRange bootInfo loaderImage .loaderImage
  let bootInfo := pushKnownRange bootInfo runtimeHeap .runtimeHeap
  let bootInfo := pushKnownRange bootInfo kernelHeap .kernelHeap
  let bootInfo := pushReservedRange bootInfo framebuffer.1 framebuffer.2 .frameBuffer
  let bootInfo := pushKnownRange bootInfo memoryMapBuffer .memoryMap
  pushKnownRange bootInfo (kernelImageLoad kernelImage) .kernelImageLoad

def newBootInfo (firmwareMode : FirmwareMode) : BootInfo where
  firmwareMode
  memoryRegions := []
  reservedMemory := []
  regionsFit := Nat.zero_le _
  rangesFit := Nat.zero_le _

/-- The record that `run_handoff_mode` has before it is passed to the boot runtime. -/
def handoffBootInfo (inputs : HandoffInputs) : StagedBootInfo where
  toBootInfo := collectReservedRanges
    (collectMemoryRegions (newBootInfo .postExitBootServices) inputs.memoryMap.entries)
    inputs.framebuffer inputs.kernelImage inputs.loaderImage (some inputs.runtimeHeap)
    inputs.kernelHeap (some inputs.memoryMapBuffer)
  kernelImage := inputs.kernelImage

/-! ## What the record says -/

section

variable {bootInfo : BootInfo} {inputs : HandoffInputs} {regions : List MemoryRegion}
  {ranges : List (UInt64 × UInt64)} {start length : UInt64} {kind : ReservedMemoryKind} {address page : Nat}

theorem collectMemoryRegions_eq (bootInfo : BootInfo) (descriptors : List MemoryDescriptor) :
    (collectMemoryRegions bootInfo descriptors).firmwareMode = bootInfo.firmwareMode ∧
      (collectMemoryRegions bootInfo descriptors).reservedMemory = bootInfo.reservedMemory ∧
      (collectMemoryRegions bootInfo descriptors).memoryRegions = bootInfo.memoryRegions ++
        (descriptors.take (maxMemoryRegions - bootInfo.memoryRegions.length)).map
          MemoryDescriptor.region := by
  induction descriptors generalizing bootInfo with
  | nil => simp [collectMemoryRegions]
  | cons descriptor descriptors ih =>
    unfold collectMemoryRegions
    split
    next room =>
      obtain ⟨mode, reserved, regions⟩ := ih
        { bootInfo with
          memoryRegions := bootInfo.memoryRegions ++ [descriptor.region]
          regionsFit := by
            rw [List.length_append]
            exact room }
      refine ⟨mode, reserved, regions.trans ?_⟩
      obtain ⟨left, isLeft⟩ := Nat.exists_eq_succ_of_ne_zero (Nat.sub_ne_zero_of_lt room)
      have next : maxMemoryRegions - (bootInfo.memoryRegions.length + 1) = left := by omega
      dsimp only
      rw [isLeft, List.take_succ_cons, List.map_cons, List.length_append, List.length_singleton,
        next, List.append_assoc, List.singleton_append]
    next full =>
      obtain ⟨mode, reserved, regions⟩ := ih bootInfo
      refine ⟨mode, reserved, regions.trans ?_⟩
      rw [Nat.sub_eq_zero_of_le (Nat.le_of_not_lt full), List.take_zero, List.take_zero]

def InRange (range : UInt64 × UInt64) (address : Nat) : Prop :=
  range.1.toNat ≤ address ∧ address < range.1.toNat + range.2.toNat

/-- The record has these regions, and just these ranges are reserved. -/
structure Lists (bootInfo : BootInfo) (regions : List MemoryRegion)
    (ranges : List (UInt64 × UInt64)) : Prop where
  mode : bootInfo.firmwareMode = .postExitBootServices
  regions : bootInfo.memoryRegions = regions
  few : bootInfo.reservedMemory.length ≤ ranges.length
  reserved : ∀ address, Reserved bootInfo address ↔ ∃ range ∈ ranges, InRange range address

theorem Lists.push (lists : Lists bootInfo regions ranges)
    (room : ranges.length < maxReservedMemoryRanges) :
    Lists (pushReservedRange bootInfo start length kind) regions (ranges ++ [(start, length)]) := by
  have few := lists.few
  unfold pushReservedRange
  split
  next skip =>
    have blank : length = 0 := skip.resolve_right (by omega)
    refine ⟨lists.mode, lists.regions, by rw [List.length_append]; omega, fun address => ?_⟩
    rw [lists.reserved address]
    simp [InRange, blank, or_and_right, exists_or]
  next =>
    refine ⟨lists.mode, lists.regions, by simpa using few, fun address => ?_⟩
    have known := lists.reserved address
    unfold Reserved at known ⊢
    simp only [List.mem_append, List.mem_singleton, or_and_right, exists_or, exists_eq_left]
    rw [known]
    rfl

theorem Lists.pushKnown (lists : Lists bootInfo regions ranges)
    (room : ranges.length < maxReservedMemoryRanges) (range : Option (UInt64 × UInt64)) :
    Lists (pushKnownRange bootInfo range kind) regions (ranges ++ range.toList) := by
  cases range with
  | none =>
    rw [Option.toList_none, List.append_nil]
    exact lists
  | some range => exact lists.push room

/-- The ranges that the loader knows to be in use. -/
def knownRanges (inputs : HandoffInputs) : List (UInt64 × UInt64) :=
  [(0, lowMemoryReserveBytes)] ++ inputs.loaderImage.toList ++ [inputs.runtimeHeap] ++
    inputs.kernelHeap.toList ++ [inputs.framebuffer] ++ [inputs.memoryMapBuffer] ++
    (kernelImageLoad inputs.kernelImage).toList

def knownRegions (inputs : HandoffInputs) : List MemoryRegion :=
  (inputs.memoryMap.entries.take maxMemoryRegions).map MemoryDescriptor.region

theorem lists_collectMemoryRegions (inputs : HandoffInputs) :
    Lists (collectMemoryRegions (newBootInfo .postExitBootServices) inputs.memoryMap.entries)
      (knownRegions inputs) [] := by
  obtain ⟨mode, none, regions⟩ := collectMemoryRegions_eq (newBootInfo .postExitBootServices)
    inputs.memoryMap.entries
  refine ⟨mode, regions, by rw [none]; rfl, fun address => ⟨?_, nofun⟩⟩
  rintro ⟨range, mem, -⟩
  rw [none] at mem
  cases mem

theorem length_toList_le (value : Option α) : value.toList.length ≤ 1 := by
  cases value <;> simp

/-- The table has room for all ranges the loader knows. -/
theorem lists_handoffBootInfo (inputs : HandoffInputs) :
    Lists (handoffBootInfo inputs).toBootInfo (knownRegions inputs) (knownRanges inputs) := by
  have loader := length_toList_le inputs.loaderImage
  have heap := length_toList_le inputs.kernelHeap
  unfold handoffBootInfo collectReservedRanges knownRanges
  refine (((((((lists_collectMemoryRegions inputs).push ?_).pushKnown ?_ _).pushKnown
    ?_ _).pushKnown ?_ _).push ?_).pushKnown ?_ _).pushKnown ?_ _
  all_goals
    simp only [List.length_append, List.length_nil, List.length_singleton, Option.toList_some]
    unfold maxReservedMemoryRanges
    omega

/-- Regions of one memory map do not overlap. -/
theorem disjoint_handoffBootInfo (inputs : HandoffInputs) :
    DisjointRegions (handoffBootInfo inputs).toBootInfo := by
  have ends (descriptor : MemoryDescriptor) : descriptor.region.stop ≤ descriptor.stop := by
    simp only [MemoryRegion.stop, MemoryRegion.sizeBytes, MemoryDescriptor.region,
      MemoryDescriptor.stop, saturatingAdd, saturatingMul, pageSize]
    omega
  unfold DisjointRegions
  rw [(lists_handoffBootInfo inputs).regions, knownRegions, List.pairwise_map]
  refine (inputs.memoryMap.disjoint.sublist (List.take_sublist _ _)).imp ?_
  rintro descriptor descriptor' apart address ⟨⟨starts, below⟩, starts', below'⟩
  have := ends descriptor
  have := ends descriptor'
  simp only [MemoryDescriptor.region] at starts starts'
  omega

/-- The page lies in memory that the kernel may reclaim. -/
def ReclaimablePage (inputs : HandoffInputs) (page : Nat) : Prop :=
  page % pageSize = 0 ∧ ∃ descriptor ∈ inputs.memoryMap.entries.take maxMemoryRegions,
    (mapMemoryType descriptor.ty).isReclaimableByKernel = true ∧
      descriptor.physStart.toNat ≤ page ∧ page < size - pageSize ∧ page + pageSize ≤ descriptor.stop

theorem wholePage_iff (reserves : Reserves (handoffBootInfo inputs).toBootInfo bootInfo) :
    WholePage bootInfo page ↔ ReclaimablePage inputs page := by
  have lists := lists_handoffBootInfo inputs
  unfold WholePage ReclaimablePage
  rw [reserves.regions, lists.regions, reserves.mode, lists.mode, knownRegions]
  refine and_congr_right fun aligned => ?_
  simp only [List.mem_map, exists_exists_and_eq_and, le_stop_iff aligned]
  rfl

/-- The address belongs to something that the loader knows to be in use, or to its tables. -/
def KnownInUse (inputs : HandoffInputs) (tables : List (Nat × Nat)) (address : Nat) : Prop :=
  (∃ range ∈ knownRanges inputs, InRange range address) ∨
    ∃ table ∈ tables, table.1 ≤ address ∧ address < table.1 + table.2

theorem reserved_of_reservePageTables (small : ∀ table ∈ tables, table.1 + table.2 < size)
    (run : (reservePageTables tables).run booting = .ok () handed) :
    Reserved handed.bootInfo.toBootInfo address ↔ Reserved booting.bootInfo.toBootInfo address ∨
      ∃ table ∈ tables, table.1 ≤ address ∧ address < table.1 + table.2 := by
  induction tables generalizing booting with
  | nil =>
    cases run
    simp
  | cons table tables ih =>
    obtain ⟨start, length⟩ := table
    obtain ⟨here, others⟩ := List.forall_mem_cons.mp small
    dsimp only at here
    obtain ⟨_, _, got, run⟩ := of_bind_ok run
    cases got
    split at run
    next => cases run
    next bootInfo entered =>
      obtain ⟨_, _, isSet, run⟩ := of_bind_ok run
      cases isSet
      obtain ⟨isStart, isLength⟩ := toNat_ofNat_range here
      have new := @reserved_reserveMemory_iff _ _ _ _ _
        (by rw [isStart, isLength]; exact here) entered address
      rw [isStart, isLength] at new
      rw [ih others run, new, List.exists_mem_cons_iff, or_assoc]

end

/-! ## The stack -/

section

variable {inputs : HandoffInputs} {tables : List (Nat × Nat)}
  {machine : Machine PhysicalPageAllocator} {handed : Booting}

/-- The page has a byte of the stack. -/
def StackPage (stack : Interval) (page : Nat) : Prop :=
  page % pageSize = 0 ∧ page < stack.stop ∧ stack.start < page + pageSize

/-- A page is handed out in some run of the kernel's allocator exactly if it can be reclaimed and
    has no address that is known to be in use. -/
theorem handed_out_iff_unknown (aligned : page % pageSize = 0)
    (small : ∀ table ∈ tables, table.1 + table.2 < size)
    (entered : (reservePageTables tables).run { machine, bootInfo := handoffBootInfo inputs } =
      .ok () handed) :
    (∃ allocator live pageCount start allocator',
      Reachable handed.bootInfo.toBootInfo allocator live ∧
        allocator.allocateContiguousPages pageCount = (some start, allocator') ∧
        page ∈ (pageRange start pageCount).points) ↔
      ReclaimablePage inputs page ∧
        ∀ address, page ≤ address → address < page + pageSize → ¬KnownInUse inputs tables address := by
  obtain ⟨-, reserves, -⟩ := of_reservePageTables entered
  have disjoint := reserves.disjointRegions (disjoint_handoffBootInfo inputs)
  rw [handed_out_iff disjoint aligned, wholePage_iff reserves]
  unfold OpenPage KnownInUse
  simp only [reserved_of_reservePageTables small entered, (lists_handoffBootInfo inputs).reserved]

/-- No run of the kernel's allocator hands out a page of the stack exactly if each page of it that
    can be reclaimed also has an address of something else that the loader knows to be in use. -/
theorem live_stack_kept_iff (small : ∀ table ∈ tables, table.1 + table.2 < size)
    (entered : (reservePageTables tables).run { machine, bootInfo := handoffBootInfo inputs } =
      .ok () handed) (stack : Interval) :
    (∀ allocator live, Reachable handed.bootInfo.toBootInfo allocator live →
      ∀ pageCount start allocator',
        allocator.allocateContiguousPages pageCount = (some start, allocator') →
        ∀ page, StackPage stack page → ¬(start ≤ page ∧ page < start + pageCount * pageSize)) ↔
      ∀ page, StackPage stack page → ReclaimablePage inputs page →
        ∃ address, page ≤ address ∧ address < page + pageSize ∧
          KnownInUse inputs tables address := by
  constructor
  · intro kept page isStack reclaimable
    by_contra unknown
    obtain ⟨allocator, live, pageCount, start, allocator', run, step, inside⟩ :=
      (handed_out_iff_unknown isStack.1 small entered).mpr ⟨reclaimable,
        fun address low high known => unknown ⟨address, low, high, known⟩⟩
    exact kept allocator live run pageCount start allocator' step page isStack
      (Interval.mem_points.mp inside)
  · intro known allocator live run pageCount start allocator' step page isStack inside
    obtain ⟨reclaimable, unknown⟩ := (handed_out_iff_unknown isStack.1 small entered).mp
      ⟨allocator, live, pageCount, start, allocator', run, step, Interval.mem_points.mpr inside⟩
    obtain ⟨address, low, high, isKnown⟩ := known page isStack reclaimable
    exact unknown address low high isKnown

/-- A small machine: conventional memory, the loader's data with both heaps and the buffer of the
    memory map, the kernel, and the stack in data of the boot services. -/
def sampleInputs : HandoffInputs where
  memoryMap :=
    { entries :=
        [{ ty := .conventional, physStart := 0x100000, pageCount := 0x100 },
         { ty := .loaderCode, physStart := 0x200000, pageCount := 2 },
         { ty := .loaderData, physStart := 0x10000000, pageCount := 0x8002 },
         { ty := .bootServicesData, physStart := 0x20000000, pageCount := 32 }]
      disjoint := by decide }
  memoryMapBuffer := (0x18000000, 0x2000)
  framebuffer := (0x80000000, 0x3e8000)
  kernelImage := sampleImage
  loaderImage := none
  runtimeHeap := (0x10000000, 0x4000000)
  kernelHeap := some (0x14000000, 0x4000000)

theorem sampleInputs_enters {used : Nat} (nonempty : 0 < used) (few : used ≤ 0x100) :
    ∃ handed, (reservePageTables [(0x100000, used * pageSize)]).run
      { machine := Machine.cold .new (fun _ => 0) 0, bootInfo := handoffBootInfo sampleInputs } =
        .ok () handed := by
  have room := (lists_handoffBootInfo sampleInputs).few
  have isShort : (knownRanges sampleInputs).length = 6 := by decide
  refine reservePageTables_run (fun table mem => ?_) ?_
  · rw [List.mem_singleton.mp mem]
    unfold pageSize size
    omega
  · dsimp only [List.length_singleton]
    unfold maxReservedMemoryRanges
    omega

/-- Wherever in the first region the tables end, a run of the allocator hands out the first page
    of the stack. -/
theorem live_stack_handed_out :
    (∀ address, 0x20000000 ≤ address → address < 0x20020000 → ∃ descriptor ∈
      sampleInputs.memoryMap.entries, descriptor.ty = .bootServicesData ∧
        descriptor.physStart.toNat ≤ address ∧ address < descriptor.stop) ∧
    ∀ used, 0 < used → used ≤ 0x100 → ∃ handed,
      (reservePageTables [(0x100000, used * pageSize)]).run
        { machine := Machine.cold .new (fun _ => 0) 0, bootInfo := handoffBootInfo sampleInputs } =
          .ok () handed ∧
      ∃ allocator live pageCount start allocator',
        Reachable handed.bootInfo.toBootInfo allocator live ∧
          allocator.allocateContiguousPages pageCount = (some start, allocator') ∧
          0x20000000 ∈ (pageRange start pageCount).points := by
  refine ⟨fun address low high => ⟨⟨.bootServicesData, 0x20000000, 32⟩, by decide, rfl, low, high⟩,
    fun used nonempty few => ?_⟩
  obtain ⟨handed, entered⟩ := sampleInputs_enters nonempty few
  have product : used * pageSize ≤ 0x100000 := Nat.mul_le_mul_right pageSize few
  refine ⟨handed, entered, (handed_out_iff_unknown (by decide) ?_ entered).mpr ⟨?_, ?_⟩⟩
  · intro table mem
    rw [List.mem_singleton.mp mem]
    unfold size
    omega
  · exact ⟨by decide, ⟨.bootServicesData, 0x20000000, 32⟩, by decide, by decide⟩
  · rintro address low high (⟨range, mem, inside⟩ | ⟨table, mem, inside⟩)
    · have apart : ∀ range ∈ knownRanges sampleInputs,
          range.1.toNat + range.2.toNat ≤ 0x20000000 ∨ 0x20001000 ≤ range.1.toNat :=
        -- the list is gone through, and not all pairs of words
        List.forall_iff_forall_mem.mp (by decide +kernel)
      have := apart range mem
      unfold InRange at inside
      unfold pageSize at high
      omega
    · rw [List.mem_singleton.mp mem] at inside
      dsimp only at inside
      omega

/-- A stack in the runtime heap would be kept. -/
theorem live_stack_kept_in_heap : ∃ handed,
    (reservePageTables [(0x100000, 0x22000)]).run
      { machine := Machine.cold .new (fun _ => 0) 0, bootInfo := handoffBootInfo sampleInputs } =
        .ok () handed ∧
    ∀ allocator live, Reachable handed.bootInfo.toBootInfo allocator live →
      ∀ pageCount start allocator',
        allocator.allocateContiguousPages pageCount = (some start, allocator') →
        ∀ page, StackPage ⟨0x10000000, 0x20000⟩ page →
          ¬(start ≤ page ∧ page < start + pageCount * pageSize) := by
  obtain ⟨handed, entered⟩ := @sampleInputs_enters 0x22 (by decide) (by decide)
  refine ⟨handed, entered, (live_stack_kept_iff (by decide) entered _).mpr ?_⟩
  rintro page ⟨aligned, below, above⟩ -
  refine ⟨page, Nat.le_refl _, Nat.lt_add_of_pos_right (by decide), .inl ⟨(0x10000000, 0x4000000),
    by decide, ?_⟩⟩
  simp only [InRange, Interval.stop, pageSize] at *
  change 0x10000000 ≤ page ∧ page < 0x10000000 + 0x4000000
  omega

end

end CodexOS.Vm
