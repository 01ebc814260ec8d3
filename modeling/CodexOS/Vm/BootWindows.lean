import CodexOS.Vm.KernelPlan
import CodexOS.Vm.Progress

/-! # What the boot map holds

The map for the boot has all the windows it was made of: memory through the direct
map, the kernel image with the rights of its segments, and the stack where it is.
-/

namespace CodexOS.Vm

open Effect Word64 Memory VirtualMemoryManager

variable {α : Type} [PageSource α] {supply : Supply α} {machine machine' : Machine α}

section

variable {β : Type} {remapped : VmError} {x : VmM α β} {b : β}

omit [PageSource α] in
theorem onConflict_ok (run : x.run machine = .ok b machine') :
    (onConflict remapped x).run machine = .ok b machine' := by
  change onConflict remapped x machine = _
  rw [onConflict, run]

omit [PageSource α] in
theorem onConflict_error (run : x.run machine = .error e machine') :
    (onConflict remapped x).run machine = .error (remapConflict e remapped) machine' := by
  change onConflict remapped x machine = _
  rw [onConflict, run]

omit [PageSource α] in
theorem of_onConflict (run : (onConflict remapped x).run machine = .ok b machine') :
    x.run machine = .ok b machine' := by
  cases result : x.run machine with
  | ok c behind =>
    rw [onConflict_ok result] at run
    exact run
  | error e behind =>
    rw [onConflict_error result] at run
    cases run

theorem Adding.onConflict (adding : Adding supply x) : Adding supply (onConflict remapped x) := by
  intro machine
  have moved := adding machine
  cases run : x.run machine with
  | ok c behind =>
    rw [after_ok run] at moved
    rw [after_ok (onConflict_ok run)]
    exact moved
  | error e behind =>
    rw [after_error run] at moved
    rw [after_error (onConflict_error run)]
    exact moved

variable {target : PageMap} {m n : Nat}

theorem Leads.onConflict (leads : Leads supply target m n x) :
    Leads supply target m n (onConflict remapped x) := by
  intro machine heading
  have led := leads machine heading
  cases run : x.run machine with
  | ok c behind =>
    rw [run] at led
    rw [onConflict_ok run]
    exact led
  | error e behind =>
    rw [run] at led
    exact led.elim

omit [PageSource α] in
theorem spec_orFail {f : β → VmM α γ} (isSome : value = some b) (next : Spec pre (f b) post fail) :
    Spec pre (orFail value error >>= f) post fail := by
  rw [isSome]
  exact next

end

section

variable {map : PageMap} {start stop : Nat}

/-- The pages of a range of memory can be reached through the direct map. -/
def PageMap.Reaches (map : PageMap) (start stop : Nat) : Prop :=
  ∀ page, page % pageSize = 0 → alignDown start ≤ page → page < alignUp stop →
    map (pageNumber (highHalfDirectMapBase + page)) =
      some { page := entryAddress page, writable := true, executable := false }

theorem PageMap.Reaches.kept (reaches : map.Reaches start stop)
    (adds : Relation.ReflTransGen Adds map map') : map'.Reaches start stop :=
  fun page aligned low high => PageMap.kept adds (reaches page aligned low high)

theorem reaches_window {remapped : VmError} {new windowVirt : Nat}
    (coherent : Coherent supply machine) (window : higherHalfPhys start = some windowVirt)
    (run : (onConflict remapped (mapWindowRange windowVirt start stop true false)).run machine =
      .ok new machine') :
    Added supply machine machine' ∧ machine'.pageMap.Reaches start stop := by
  have opened := of_enterRange coherent (mapWindowRange_ok_iff.mp (of_onConflict run)).2.2
  refine ⟨opened.added, fun page aligned low high => ?_⟩
  have bound := opened.binds.between aligned low high
  obtain ⟨-, isWindow⟩ := checkedAdd_eq_some.mp window
  have below : alignDown start ≤ start := Nat.sub_le _ _
  rw [← isWindow, show highHalfDirectMapBase + start - (start - alignDown start) +
      (page - alignDown start) = highHalfDirectMapBase + page by omega,
    Nat.add_sub_cancel' low] at bound
  exact bound

theorem Adding.mapReservedIdentity (range : ReservedMemoryRange) :
    Adding supply (mapReservedIdentity range : VmM α Nat) :=
  .ite (fun _ => Adding.onConflict (Adding.mapIdentityRange _ _ _ _)) fun _ => .pure 0

theorem of_mapReservedRanges (coherent : Coherent supply machine)
    (run : (mapReservedRanges report ranges).run machine = .ok report' machine') :
    Added supply machine machine' ∧
      ∀ range ∈ ranges, machine'.pageMap.Reaches range.start.toNat range.stop := by
  induction ranges generalizing report machine with
  | nil =>
    cases run
    exact ⟨.refl coherent, fun _ mem => absurd mem List.not_mem_nil⟩
  | cons range ranges ih =>
    obtain ⟨identity, kept, isKept, run⟩ := of_bind_ok run
    obtain ⟨windowVirt, same, window, run⟩ := of_bind_ok run
    obtain ⟨window, same⟩ := of_orFail window
    rw [same] at run
    obtain ⟨pages, mapped, isMapped, run⟩ := of_bind_ok run
    have added := (Adding.mapReservedIdentity range).added coherent isKept
    obtain ⟨added', reaches⟩ := reaches_window added.1.coherent window isMapped
    obtain ⟨added'', others⟩ := ih added'.1.coherent run
    refine ⟨(added.trans added').trans added'', fun other mem => ?_⟩
    rcases List.mem_cons.mp mem with rfl | mem
    · exact reaches.kept added''.2
    · exact others other mem

theorem of_mapUsableRegions (coherent : Coherent supply machine)
    (run : (mapUsableRegions mode report regions).run machine = .ok report' machine') :
    Added supply machine machine' ∧
      ∀ region ∈ regions, mode.regionIsCurrentlyUsable region.kind → region.pageCount ≠ 0 →
        machine'.pageMap.Reaches region.start.toNat (region.start.toNat + region.sizeBytes) := by
  induction regions generalizing report machine with
  | nil =>
    cases run
    exact ⟨.refl coherent, fun _ mem => absurd mem List.not_mem_nil⟩
  | cons region regions ih =>
    unfold mapUsableRegions at run
    split at run
    · rename_i skipped
      obtain ⟨added, others⟩ := ih coherent run
      refine ⟨added, fun other mem usable filled => ?_⟩
      rcases List.mem_cons.mp mem with rfl | mem
      · simp [usable, filled] at skipped
      · exact others other mem usable filled
    · obtain ⟨windowVirt, same, window, run⟩ := of_bind_ok run
      obtain ⟨window, same⟩ := of_orFail window
      rw [same] at run
      obtain ⟨regionEnd, same, isEnd, run⟩ := of_bind_ok run
      obtain ⟨isEnd, same⟩ := of_orFail isEnd
      rw [same] at run
      obtain ⟨pages, mapped, isMapped, run⟩ := of_bind_ok run
      obtain ⟨added, reaches⟩ := reaches_window coherent window isMapped
      obtain ⟨added', others⟩ := ih added.1.coherent run
      refine ⟨added.trans added', fun other mem usable filled => ?_⟩
      rcases List.mem_cons.mp mem with rfl | mem
      · rw [(checkedAdd_eq_some.mp isEnd).2]
        exact reaches.kept added'.2
      · exact others other mem usable filled

theorem of_mapKernelRanges {mappings : List KernelPageMapping} {report report' : BootVmReport}
    (coherent : Coherent supply machine)
    (run : (mapKernelRanges report mappings).run machine = .ok report' machine') :
    Added supply machine machine' ∧ ∀ mapping ∈ mappings,
      machine'.pageMap.Binds mapping.virtStart mapping.physStart mapping.pageCount
        mapping.writable mapping.executable ∧
      (mapping.pageCount ≠ 0 → mapping.physStart % pageSize = 0) := by
  induction mappings generalizing report machine with
  | nil =>
    cases run
    exact ⟨.refl coherent, fun _ mem => absurd mem List.not_mem_nil⟩
  | cons mapping mappings ih =>
    obtain ⟨pages, mapped, isMapped, run⟩ := of_bind_ok run
    obtain ⟨-, fixed, entered⟩ := mapFixedRange_ok_iff.mp (of_onConflict isMapped)
    have opened := of_enterRange coherent entered
    obtain ⟨added, others⟩ := ih opened.added.1.coherent run
    refine ⟨opened.added.trans added, fun other mem => ?_⟩
    rcases List.mem_cons.mp mem with rfl | mem
    · exact ⟨opened.binds.kept added.2, fun some => (fixed.resolve_left some).2.1⟩
    · exact others other mem

end

section

variable {bootInfo : StagedBootInfo} {stackPointer : Nat} {report : BootVmReport}

/-- What the map for the boot is made of. -/
structure BootMapped (bootInfo : StagedBootInfo) (stackPointer : Nat) (map : PageMap) : Prop where
  stack : map.Binds (alignDown (stackPointer - stackWindowBytes / 2))
    (alignDown (stackPointer - stackWindowBytes / 2))
    (pagesBetween (stackPointer - stackWindowBytes / 2)
      (saturatingAdd stackPointer (stackWindowBytes / 2))) true false
  window : map.Reaches 0 highHalfBootWindowBytes
  reserved : ∀ range ∈ bootInfo.reservedMemory, map.Reaches range.start.toNat range.stop
  usable : ∀ region ∈ bootInfo.memoryRegions,
    bootInfo.firmwareMode.regionIsCurrentlyUsable region.kind = true → region.pageCount ≠ 0 →
      map.Reaches region.start.toNat (region.start.toNat + region.sizeBytes)
  kernel : ∃ mappings, kernelPageMappings bootInfo.kernelImage = .ok mappings ∧
    ∀ mapping ∈ mappings,
      map.Binds mapping.virtStart mapping.physStart mapping.pageCount mapping.writable
        mapping.executable ∧
      (mapping.pageCount ≠ 0 → mapping.physStart % pageSize = 0)

omit [PageSource α] in
theorem of_discard_syncPages (run : (discard syncPages).run machine = .ok done machine') :
    machine' = machine.synced ∧ machine.manager.initialized = true := by
  change (syncPages >>= fun _ => pure ()).run machine = _ at run
  cases initialized : machine.manager.initialized with
  | true =>
    rw [bind_ok (syncPages_ok initialized)] at run
    cases run
    exact ⟨rfl, rfl⟩
  | false =>
    rw [bind_error (syncPages_error initialized)] at run
    cases run

section

variable (coherent : Coherent supply machine)

include coherent

/-- Each window is opened in its turn, what is entered later leaves it as it is, and in the end
    the tables are written back. -/
theorem synced_of_prepareBootIdentityMap
    (run : (prepareBootIdentityMap bootInfo stackPointer).run machine = .ok report machine') :
    ∃ entered, machine' = Machine.synced entered ∧ entered.manager.initialized = true ∧
      Coherent supply entered ∧ BootMapped bootInfo stackPointer entered.pageMap := by
  change EStateM.run (if !machine.manager.initialized then _ else _) machine = _ at run
  split at run
  · cases run
  obtain ⟨lowPages, low, isLow, run⟩ := of_bind_ok run
  obtain ⟨stackPages, onStack, isStack, run⟩ := of_bind_ok run
  obtain ⟨windowVirt, _, isVirt, run⟩ := of_bind_ok run
  obtain ⟨isVirt, same⟩ := of_orFail isVirt
  rw [same] at run
  obtain ⟨windowPages, windowed, isWindow, run⟩ := of_bind_ok run
  obtain ⟨_, reservedMapped, isReserved, run⟩ := of_bind_ok run
  obtain ⟨_, usableMapped, isUsable, run⟩ := of_bind_ok run
  obtain ⟨mappings, _, isMappings, run⟩ := of_bind_ok run
  obtain ⟨isMappings, same⟩ := of_check isMappings
  rw [same] at run
  obtain ⟨_, kernelMapped, isKernel, run⟩ := of_bind_ok run
  obtain ⟨_, synced, isSynced, run⟩ := of_bind_ok run
  cases run
  have added := Adding.added (moves_mapIdentityRangeExcluding
    (fun _ _ => Adding.mapIdentityRange _ _ _ _) _ _ _) coherent (of_onConflict isLow)
  have stack := of_enterRange added.1.coherent (mapIdentityRange_ok_iff.mp (of_onConflict isStack)).2
  obtain ⟨added, window⟩ := reaches_window stack.added.1.coherent isVirt isWindow
  obtain ⟨afterReserved, reserved⟩ := of_mapReservedRanges added.1.coherent isReserved
  obtain ⟨afterUsable, usable⟩ := of_mapUsableRegions afterReserved.1.coherent isUsable
  obtain ⟨afterKernel, kernel⟩ := of_mapKernelRanges afterUsable.1.coherent isKernel
  have later := added.2.trans (afterReserved.2.trans (afterUsable.2.trans afterKernel.2))
  obtain ⟨isWritten, initialized⟩ := of_discard_syncPages isSynced
  refine ⟨kernelMapped, isWritten, initialized, afterKernel.1.coherent, ?_⟩
  exact
    { stack := stack.binds.kept later
      window := window.kept (afterReserved.2.trans (afterUsable.2.trans afterKernel.2))
      reserved := fun range mem => (reserved range mem).kept (afterUsable.2.trans afterKernel.2)
      usable := fun region mem isUsable filled =>
        (usable region mem isUsable filled).kept afterKernel.2
      kernel := ⟨mappings, isMappings, kernel⟩ }

theorem of_prepareBootIdentityMap
    (run : (prepareBootIdentityMap bootInfo stackPointer).run machine = .ok report machine') :
    Coherent supply machine' ∧ BootMapped bootInfo stackPointer machine'.pageMap := by
  obtain ⟨entered, rfl, -, coherent', mapped⟩ := synced_of_prepareBootIdentityMap coherent run
  exact ⟨coherent'.synced, mapped⟩

/-- The manager takes the page to a frame, through a leaf with these rights. -/
def VirtualMemoryManager.Maps (manager : VirtualMemoryManager) (virt phys : Nat)
    (writable executable : Bool) : Prop :=
  manager.translate virt = some phys ∧
    ∃ leaf, (manager.walk virt).l1Entry = some leaf ∧ has leaf entryWritable = writable ∧
      has leaf entryNoExecute = !executable

theorem Coherent.maps (aligned : virt % pageSize = 0) (frame : IsFrame phys)
    (bound : machine.pageMap (pageNumber virt) =
      some { page := entryAddress phys, writable, executable }) :
    machine.manager.Maps virt phys writable executable := by
  have address : entryAddress phys = phys := frame.and_mask
  rw [address] at bound
  refine ⟨?_, ?_⟩
  · rw [translate_eq coherent.shelved coherent.wired, PageMap.translate]
    change (machine.pageMap (pageNumber virt)).map _ = _
    rw [bound, aligned]
    rfl
  · have leaf := walk_l1Entry coherent.shelved coherent.wired virt
    change _ = machine.pageMap (pageNumber virt) at leaf
    rw [bound] at leaf
    obtain ⟨entry, isEntry, isBinding⟩ := Option.bind_eq_some_iff.mp leaf
    unfold bindingOf at isBinding
    split at isBinding
    · cases isBinding
      exact ⟨entry, isEntry, rfl, by rw [Bool.not_not]⟩
    · cases isBinding

end

theorem page_bounds (aligned : page % pageSize = 0) (low : page ≤ address)
    (high : address < page + pageSize) (above : start ≤ address) (below : address < stop)
    (small : stop ≤ 2 ^ 52) :
    alignDown start ≤ page ∧ page < alignUp stop ∧ IsFrame page := by
  unfold IsFrame
  simp only [alignUp, alignDown, saturatingAdd, maxValue, size, pageSize] at *
  omega

/-- The page holds the address. -/
def IsPageOf (page address : Nat) : Prop :=
  page % pageSize = 0 ∧ page ≤ address ∧ address < page + pageSize

instance (page address : Nat) : Decidable (IsPageOf page address) :=
  inferInstanceAs (Decidable (_ ∧ _))

theorem Coherent.reaches (coherent : Coherent supply machine)
    (reaches : machine.pageMap.Reaches start stop) (isPage : IsPageOf page address)
    (above : start ≤ address) (below : address < stop) (small : stop ≤ 2 ^ 52) :
    machine.manager.Maps (highHalfDirectMapBase + page) page true false := by
  obtain ⟨aligned, low, high⟩ := isPage
  obtain ⟨first, last, frame⟩ := page_bounds aligned low high above below small
  refine coherent.maps ?_ frame (reaches page aligned first last)
  rw [highHalfDirectMapBase]
  simp only [pageSize] at *
  omega

namespace BootMapped

variable (coherent : Coherent supply machine)
  (mapped : BootMapped bootInfo stackPointer machine.pageMap)
include coherent mapped

theorem memory (isPage : IsPageOf page address)
    (bounded : ∀ address, Usable bootInfo.toBootInfo address ∨ Reserved bootInfo.toBootInfo address →
      address < 2 ^ 47)
    (known : Usable bootInfo.toBootInfo address ∨ Reserved bootInfo.toBootInfo address ∨
      address < highHalfBootWindowBytes) :
    machine.manager.Maps (highHalfDirectMapBase + page) page true false := by
  rcases known with ⟨region, mem, usable, above, below⟩ | ⟨range, mem, above, below⟩ | low
  · -- The last address of the region is bounded, so its end was not cut off.
    have last := bounded (region.stop - 1) (.inl ⟨region, mem, usable, by omega, by omega⟩)
    have isStop : region.stop = region.start.toNat + region.sizeBytes := by
      simp only [MemoryRegion.stop, saturatingAdd, maxValue, size] at last ⊢
      omega
    have filled : region.pageCount ≠ 0 := by
      intro empty
      rw [isStop, MemoryRegion.sizeBytes, empty] at below
      simp [saturatingMul] at below
      omega
    have reaches := mapped.usable region mem usable filled
    rw [← isStop] at reaches
    exact coherent.reaches reaches isPage above below (by omega)
  · have last := bounded (range.start.toNat + range.length.toNat - 1)
      (.inr ⟨range, mem, by omega, by omega⟩)
    have isStop : range.stop = range.start.toNat + range.length.toNat := by
      simp only [ReservedMemoryRange.stop, saturatingAdd, maxValue, size]
      omega
    have reaches := mapped.reserved range mem
    rw [isStop] at reaches
    exact coherent.reaches reaches isPage above below (by omega)
  · exact coherent.reaches mapped.window isPage (Nat.zero_le _) low (by decide)

theorem stackPage (isPage : IsPageOf page address)
    (small : stackPointer + stackWindowBytes / 2 ≤ 2 ^ 52)
    (above : stackPointer - stackWindowBytes / 2 ≤ address)
    (below : address < stackPointer + stackWindowBytes / 2) :
    machine.manager.Maps page page true false := by
  obtain ⟨aligned, low, high⟩ := isPage
  obtain ⟨first, last, frame⟩ := page_bounds aligned low high above below small
  have noSaturation : saturatingAdd stackPointer (stackWindowBytes / 2) =
      stackPointer + stackWindowBytes / 2 := by
    apply saturatingAdd_of_lt
    simp only [size]
    omega
  have binds := mapped.stack
  rw [noSaturation] at binds
  have bound := binds.between aligned first last
  rw [Nat.add_sub_cancel' first] at bound
  exact coherent.maps aligned frame bound

theorem imagePage (loaded : bootInfo.kernelImage.loadPageCount ≠ 0)
    (based : bootInfo.kernelImage.loadBase ≠ 0)
    (small : bootInfo.kernelImage.loadBase + pageSize * bootInfo.kernelImage.loadPageCount ≤ 2 ^ 52) :
    ∃ base, imageBase bootInfo.kernelImage.segments = some base ∧
      ∀ virt segment, virt % pageSize = 0 → segment ∈ bootInfo.kernelImage.segments →
        covers virt segment = true →
        machine.manager.Maps virt (bootInfo.kernelImage.loadBase + (virt - base))
          (imageRights bootInfo.kernelImage.segments virt).writable
          (imageRights bootInfo.kernelImage.segments virt).executable ∧
        (imageRights bootInfo.kernelImage.segments virt).Safe := by
  obtain ⟨mappings, isMappings, binds⟩ := mapped.kernel
  obtain ⟨base, isBase, serves⟩ := of_kernelPageMappings loaded based isMappings
  obtain ⟨baseAligned, -⟩ := of_imageBase isBase
  refine ⟨base, isBase, fun virt segment aligned mem covered => ?_⟩
  obtain ⟨above, below, safe, mapping, isMapping, i, inside, virtual, physical, writable,
    executable⟩ := serves virt segment aligned mem covered
  obtain ⟨binds, loadAligned⟩ := binds mapping isMapping
  have offset : pageSize * ((virt - base) / pageSize) = virt - base := by
    simp only [pageSize] at *
    omega
  have bound := binds i inside
  rw [virtual, physical, offset, Nat.add_sub_cancel' above, writable, executable] at bound
  refine ⟨coherent.maps aligned ?_ bound, safe⟩
  rw [offset] at physical
  have physAligned := loadAligned (Nat.ne_of_gt (Nat.zero_lt_of_lt inside))
  constructor
  · rw [← physical, Nat.add_mul_mod_self_left, physAligned]
  · omega

end BootMapped

section

variable {pages : α} {memory : ByteMemory} {cr3 root : Nat} {booted : Machine α}

end

section

open Release (KernelImageInfo KernelImageSegment)

def sampleSegment (virtualAddress flags : Nat) : KernelImageSegment where
  virtualAddress := virtualAddress
  physicalAddress := 0
  fileOffset := 0
  fileSize := pageSize
  memorySize := pageSize
  flags := flags
  loadAddress := 0
  loadPageCount := 1

/-- A page of code and one of data at the end of the address space, loaded at 2 MiB. -/
def sampleImage : KernelImageInfo where
  imageSize := 2 * pageSize
  releaseVersion := 1
  bootStateGeneration := 1
  systemSlot := 0
  recoveryFallback := 0
  signatureVerified := 1
  verificationKeyId := Vector.replicate 16 0
  kernelSha256 := Vector.replicate 32 0
  entryPoint := 0xffffffff80000000
  loadedEntryPoint := 0x200000
  loadBase := 0x200000
  loadPageCount := 2
  programHeaderCount := 2
  segments := [sampleSegment 0xffffffff80000000 5, sampleSegment 0xffffffff80001000 3]
  loadSegmentTotal := 2
  loadedSegmentCount := 2
  relocationCount := 0

def sampleRegion : MemoryRegion where
  start := 0x100000
  pageCount := 16
  kind := .conventional

def sampleRange : ReservedMemoryRange where
  start := 0
  length := 0x1000
  kind := .lowMemory

def sampleBoot : StagedBootInfo where
  firmwareMode := .postExitBootServices
  memoryRegions := [sampleRegion]
  reservedMemory := [sampleRange]
  regionsFit := by decide
  rangesFit := by decide
  kernelImage := sampleImage

/-- The same with any number of pages in the region. -/
structure IsSample (bootInfo : StagedBootInfo) (pageCount : UInt64) : Prop where
  mode : bootInfo.firmwareMode = .postExitBootServices
  regions : bootInfo.memoryRegions = [{ sampleRegion with pageCount }]
  ranges : bootInfo.reservedMemory = [sampleRange]
  image : bootInfo.kernelImage = sampleImage

theorem IsSample.holes (isSample : IsSample bootInfo pageCount) :
    kernelVirtualHoles bootInfo 0 identityBootWindowBytes = [] := by
  have outside : sampleImage.segments.filterMap (kernelHole 0 identityBootWindowBytes) = [] := by
    decide +kernel
  rw [kernelVirtualHoles, isSample.image, outside, List.mergeSort_nil]

def sampleMappings : List KernelPageMapping :=
  [{ virtStart := 0xffffffff80000000, physStart := 0x200000, pageCount := 1, writable := false,
     executable := true },
   { virtStart := 0xffffffff80001000, physStart := 0x201000, pageCount := 1, writable := true,
     executable := false }]

theorem sampleImage_mappings : kernelPageMappings sampleImage = .ok sampleMappings := by
  decide +kernel

/-- Where the pages of the stack start. -/
def stackNumber (stackPointer : Nat) : Nat :=
  pageNumber (alignDown (stackPointer - stackWindowBytes / 2))

/-- A stack of 512 pages that is in nobody's way. -/
structure StackFits (stackPointer : Nat) : Prop where
  window : pagesBetween (stackPointer - stackWindowBytes / 2)
    (saturatingAdd stackPointer (stackWindowBytes / 2)) = 512
  fits : stackNumber stackPointer + 512 ≤ 2 ^ 36
  apart : ∀ span ∈ [(0, 1024), (2 ^ 35, 1024), (0xffff80000, 2)],
    stackNumber stackPointer + 512 ≤ span.1 ∨ span.1 + span.2 ≤ stackNumber stackPointer

/-- The windows for low memory, the direct map and the stack, and the kernel image. -/
def sampleSpans (stackPointer : Nat) : List Span :=
  [⟨0, 1024, 0, true, true⟩, ⟨2 ^ 35, 1024, 0, true, false⟩,
    ⟨0xffff80000, 1, 0x200000, false, true⟩, ⟨0xffff80001, 1, 0x201000, true, false⟩,
    ⟨stackNumber stackPointer, 512, alignDown (stackPointer - stackWindowBytes / 2), true, false⟩]

abbrev sampleTarget (stackPointer : Nat) : PageMap :=
  .ofSpans (sampleSpans stackPointer)

theorem leafTables_le (virt : Nat) : leafTables virt 512 ≤ 2 := by
  unfold leafTables
  omega

section

variable {n : Nat}

theorem StackFits.binds (stackFits : StackFits stackPointer) (i : Nat)
    (isSpan : (sampleSpans stackPointer)[i]? = some span) (k : Nat)
    (isFirst : (pageNumber virt : Nat) = span.first + k) (inside : k + count ≤ span.count) :
    (sampleTarget stackPointer).Binds virt (span.phys + pageSize * k) count span.writable
      span.executable := by
  have fits := stackFits.fits
  have mem := List.mem_of_getElem? isSpan
  refine PageMap.ofSpans_binds ?_ mem k isFirst inside ?_
  · have apart := stackFits.apart
    simp [sampleSpans, Span.Apart] at apart ⊢
    omega
  · simp only [sampleSpans, List.mem_cons, List.not_mem_nil, or_false] at mem
    rcases mem with rfl | rfl | rfl | rfl | rfl
    iterate 4 decide
    exact fits

section

variable (stackFits : StackFits stackPointer)

include stackFits

theorem StackFits.reservedRanges (report : BootVmReport) :
    Leads supply (sampleTarget stackPointer) 15 9 (mapReservedRanges report [sampleRange]) := by
  refine Spec.bind (Leads.onConflict (Leads.mapIdentityRange (n := 12) (by decide) (by decide)
    (stackFits.binds 0 rfl 0 (by decide) (by decide)))) fun kept =>
      spec_orFail (show _ = some highHalfDirectMapBase by decide) ?_
  exact Spec.bind (Leads.onConflict (Leads.mapWindowRange highHalfDirectMapBase 0 sampleRange.stop
    highHalfDirectMapBase 0 1 (by decide) (by decide) (by decide) (by decide) (by decide) (by decide)
    (stackFits.binds 1 rfl 0 (by decide) (by decide)))) fun pages => Spec.pure _ fun _ => id

theorem StackFits.usableRegions {pageCount : UInt64} (nonempty : pageCount ≠ 0)
    (few : pageCount.toNat ≤ 256) (report : BootVmReport) :
    Leads supply (sampleTarget stackPointer) 9 6 (mapUsableRegions .postExitBootServices report
      [{ sampleRegion with pageCount }]) := by
  have oneTable : leafTables 0xffff800000100000 pageCount.toNat ≤ 1 := by
    have place : 0xffff800000100000 / pageSize % 512 = 256 := by decide
    rw [leafTables, place]
    omega
  have isCount : pagesBetween 0x100000 (0x100000 + pageCount.toNat * pageSize) =
      pageCount.toNat := by
    rw [pagesBetween, alignUp, saturatingAdd_of_lt (by unfold pageSize size; omega)]
    unfold alignDown pageSize
    omega
  have isSize : MemoryRegion.sizeBytes { sampleRegion with pageCount } =
      pageCount.toNat * pageSize :=
    saturatingMul_of_lt (show pageCount.toNat * pageSize < size by unfold pageSize size; omega)
  have isEnd : checkedAdd 0x100000 (pageCount.toNat * pageSize) =
      some (0x100000 + pageCount.toNat * pageSize) :=
    checkedAdd_eq_some.mpr ⟨by unfold pageSize size; omega, rfl⟩
  have mapped : Leads supply (sampleTarget stackPointer) 9 6 (mapWindowRange
      0xffff800000100000 0x100000 (0x100000 + pageCount.toNat * pageSize)
      true false) :=
    @Leads.mapWindowRange α _ supply 6 true false (sampleTarget stackPointer) 9 0xffff800000100000
      0x100000 (0x100000 + pageCount.toNat * pageSize) 0xffff800000100000 0x100000 pageCount.toNat
      (by decide) isCount (by decide) (by omega) (by omega)
      (.inr ⟨by decide, by decide, by unfold pageSize size; omega⟩)
      (stackFits.binds 1 rfl 256 (by decide) (show 256 + _ ≤ 1024 by omega))
  rw [mapUsableRegions, if_neg (by simp [nonempty]; decide), isSize,
    show UInt64.toNat (MemoryRegion.start { sampleRegion with pageCount }) = 0x100000 by rfl]
  refine spec_orFail (show _ = some 0xffff800000100000 by decide)
    (spec_orFail isEnd ?_)
  generalize (mapWindowRange _ _ _ _ _ : VmM α Nat) = window at mapped ⊢
  exact Spec.bind mapped.onConflict fun pages => Spec.pure _ fun _ => id

theorem StackFits.kernelRanges (report : BootVmReport) :
    Leads supply (sampleTarget stackPointer) 6 0 (mapKernelRanges report sampleMappings) := by
  refine Spec.bind (Leads.onConflict (Leads.mapFixedRange (n := 3) (by decide) (by decide) (by decide)
    (stackFits.binds 2 rfl 0 (by decide) (by decide)))) fun code => ?_
  exact Spec.bind (Leads.onConflict (Leads.mapFixedRange (by decide) (by decide) (by decide)
    (stackFits.binds 3 rfl 0 (by decide) (by decide)))) fun data => Spec.pure _ fun _ => id

/-- With pages enough the map is made. -/
theorem StackFits.leads (isSample : IsSample bootInfo pageCount) (nonempty : pageCount ≠ 0)
    (few : pageCount.toNat ≤ 256) :
    Spec (Heading supply (sampleTarget stackPointer) 33)
      (prepareBootIdentityMap bootInfo stackPointer) (fun _ _ => True) fun _ _ => False := by
  have low : Leads supply (sampleTarget stackPointer) 33 27
      (mapIdentityRangeExcluding 0 identityBootWindowBytes [] true true) :=
    .mapIdentityRange (by decide) (by decide) (stackFits.binds 0 rfl 0 (by decide) (by decide))
  have fewTables := leafTables_le (alignDown (stackPointer - stackWindowBytes / 2))
  have isStack := stackFits.binds 4 rfl 0 (Nat.add_zero _).symm (by decide : 0 + 512 ≤ 512)
  rw [Nat.mul_zero, Nat.add_zero] at isStack
  have stack : Leads supply (sampleTarget stackPointer) 27 21
      (mapIdentityRange (stackPointer - stackWindowBytes / 2)
        (saturatingAdd stackPointer (stackWindowBytes / 2)) true false) :=
    .mapIdentityRange (by rw [stackFits.window]; omega) (by rw [stackFits.window]; decide)
      (by rw [stackFits.window]; exact isStack)
  have window : Leads supply (sampleTarget stackPointer) 21 15
      (mapWindowRange highHalfDirectMapBase 0 highHalfBootWindowBytes true false) :=
    .mapWindowRange highHalfDirectMapBase 0 highHalfBootWindowBytes highHalfDirectMapBase 0 1024 (by decide) (by decide)
      (by decide) (by decide) (by decide) (by decide) (stackFits.binds 1 rfl 0 (by decide) (by decide))
  refine Spec.get_bind fun booted heading => ?_
  rw [heading.initialized, Bool.not_true, if_neg Bool.false_ne_true, isSample.holes]
  refine Spec.bind (Leads.onConflict low) fun lowPages => Spec.bind (Leads.onConflict stack) fun stackPages =>
    spec_orFail (show higherHalfPhys 0 = some highHalfDirectMapBase by decide)
      (Spec.bind (Leads.onConflict window) fun windowPages => ?_)
  dsimp only
  rw [isSample.ranges, isSample.regions, isSample.mode, isSample.image, sampleImage_mappings]
  refine Spec.bind (stackFits.reservedRanges _) fun report => Spec.bind
    (stackFits.usableRegions nonempty few report) fun report => ?_
  change Spec _ (mapKernelRanges _ _ >>= _) _ _
  refine Spec.bind (stackFits.kernelRanges report) fun report machine heading => ?_
  have synced : (discard syncPages).run machine = .ok () machine.synced :=
    bind_ok (syncPages_ok heading.initialized)
  rw [bind_ok synced]
  trivial

end

/-- With pages enough, and a stack that is in nobody's way, the map is made. -/
theorem IsSample.prepared (isSample : IsSample bootInfo pageCount) (nonempty : pageCount ≠ 0)
    (few : pageCount.toNat ≤ 256) (ready : Ready supply 33 booted)
    (empty : booted.pageMap = fun _ => none) (stackFits : StackFits stackPointer) :
    ∃ report machine, (prepareBootIdentityMap bootInfo stackPointer).run booted =
      .ok report machine := by
  have led := stackFits.leads isSample nonempty few booted ⟨ready, by simp [empty]⟩
  cases run : (prepareBootIdentityMap bootInfo stackPointer).run booted with
  | ok report machine => exact ⟨report, machine, rfl⟩
  | error e machine =>
    rw [run] at led
    exact led.elim

theorem isSample_sampleBoot : IsSample sampleBoot 16 :=
  ⟨rfl, rfl, rfl, rfl⟩

end

theorem Ready.init (valid : supply.Valid pages) (lasts : Lasts (n + 1) pages) (memory : ByteMemory)
    (cr3 : Nat) :
    ∃ root booted, init.run (Machine.cold pages memory cr3) = .ok (some root) booted ∧
      Ready supply n booted ∧ booted.pageMap = fun _ => none := by
  obtain ⟨root, answer⟩ := Option.isSome_iff_exists.mp lasts.1
  have run := @init_cold_some α _ pages memory cr3 root answer
  obtain ⟨coherent, empty, initialized, -⟩ := init_coherent valid run
  exact ⟨root, _, run, ⟨coherent, initialized, lasts.2⟩, empty⟩

/-- A source that gives these pages. -/
def answersOf (frames : List Nat) : PageAnswers where
  allocations := frames.map some
  deallocations := []

theorem answersOf_fresh (distinct : frames.Nodup) (areFrames : ∀ frame ∈ frames, IsFrame frame) :
    (answersOf frames).Fresh := by
  refine ⟨?_, fun page mem => ?_⟩
  · change ((frames.map some).filterMap id).Nodup
    rw [List.filterMap_map, Function.id_comp, List.filterMap_some]
    exact distinct
  · obtain ⟨frame, isFrame, same⟩ := List.mem_map.mp mem
    cases same
    exact areFrames page isFrame

theorem answersOf_lasts (frames : List Nat) : Lasts frames.length (answersOf frames) := by
  induction frames with
  | nil => exact trivial
  | cons frame frames ih => exact ⟨rfl, ih⟩

def sampleFrames (count : Nat) : List Nat :=
  (List.range count).map fun i => 0x10000000 + pageSize * i

theorem sampleFrames_fresh (small : count ≤ 2 ^ 20) :
    (answersOf (sampleFrames count)).Fresh := by
  refine answersOf_fresh ?_ fun frame mem => ?_
  · refine (List.nodup_map_iff fun i j same => ?_).mpr List.nodup_range
    simp only [pageSize] at same
    omega
  · obtain ⟨i, inRange, rfl⟩ := List.mem_map.mp mem
    have below := List.mem_range.mp inRange
    unfold IsFrame pageSize
    omega

theorem sampleFrames_lasts (count : Nat) : Lasts count (answersOf (sampleFrames count)) := by
  have lasts := answersOf_lasts (sampleFrames count)
  rw [sampleFrames, List.length_map, List.length_range] at lasts
  exact lasts

/-- The manager with a root and pages enough for the map. -/
theorem sample_started : ∃ (root : Nat) (booted : Machine PageAnswers),
    init.run (Machine.cold (answersOf (sampleFrames 7741)) (fun _ => 0) 0) =
        .ok (some root) booted ∧
      Ready PageAnswers.supply 7740 booted ∧ booted.pageMap = fun _ => none :=
  Ready.init (sampleFrames_fresh (by decide)) (sampleFrames_lasts 7741) (fun _ => 0) 0

theorem sampleBoot_bounded
    (known : Usable sampleBoot.toBootInfo address ∨ Reserved sampleBoot.toBootInfo address) :
    address < 2 ^ 47 := by
  rcases known with ⟨region, mem, -, -, below⟩ | ⟨range, mem, -, below⟩
  · rw [List.mem_singleton.mp mem] at below
    exact below.trans (by decide)
  · rw [List.mem_singleton.mp mem] at below
    exact below.trans (by decide)

end

end

end CodexOS.Vm
