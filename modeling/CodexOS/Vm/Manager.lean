import CodexOS.Lib.Effect
import CodexOS.Memory.PageAllocator
import CodexOS.Vm.Entries

/-! # The virtual memory manager

The manager keeps a copy of every page table it has made, finds the copies by the
indices that lead to them, and writes them to physical memory as a whole. It is
generic in where its pages come from.
-/

namespace CodexOS.Vm

open Word64 Memory

def demoVirtBase : Nat := 0x0000400000000000
def highHalfDirectMapBase : Nat := 0xffff800000000000
def identityBootWindowBytes : Nat := 4 * 1024 * 1024
def highHalfBootWindowBytes : Nat := 4 * 1024 * 1024
def stackWindowBytes : Nat := 2 * 1024 * 1024

inductive VmError where
  | firmwareServicesActive
  | notInitialized
  | invalidPageCount
  | unalignedVirtualAddress
  | unalignedPhysicalAddress
  | bootIdentityConflict
  | bootStackConflict
  | bootWindowConflict
  | reservedIdentityConflict
  | reservedWindowConflict
  | kernelImageConflict
  | kernelWritableExecutable
  | userProgramEmpty
  | userProgramTooLarge
  | userRegionConflict
  | userMappingConflict
  | userEntryInvalid
  | userWritableExecutable
  | userPageTrackingCapacity
  | activeAddressSpace
  | pageReclamationFailed
  | directMapUnavailable
  | reservedRangeCapacity
  | addressOverflow
  | alreadyMapped
  | outOfPhysicalPages
  deriving DecidableEq

/-- The `memory` module as its users see it. -/
class PageSource (α : Type) where
  allocatePage : α → Option Nat × α
  deallocatePage : Nat → α → Bool × α

instance : PageSource PhysicalPageAllocator where
  allocatePage := PhysicalPageAllocator.allocatePage
  deallocatePage page allocator := allocator.deallocatePage page

/-- A page source that is nothing but the answers it will give; it has no more pages once
    they are used up. -/
structure PageAnswers where
  allocations : List (Option Nat)
  deallocations : List Bool
  deriving DecidableEq

instance : PageSource PageAnswers where
  allocatePage answers :=
    (answers.allocations.headD none, { answers with allocations := answers.allocations.tail })
  deallocatePage _ answers :=
    (answers.deallocations.headD false,
      { answers with deallocations := answers.deallocations.tail })

structure Mapping where
  virtStart : Nat
  physStart : Nat
  pageCount : Nat
  writable : Bool
  executable : Bool
  deriving DecidableEq

structure PageTablePage where
  physAddr : Nat
  entries : Index → Nat

namespace PageTablePage

def new (physAddr : Nat) : PageTablePage where
  physAddr := physAddr
  entries := fun _ => 0

def zeroed : PageTablePage :=
  new 0

def setEntry (index : Index) (entry : Nat) (page : PageTablePage) : PageTablePage :=
  { page with entries := fun i => if i = index then entry else page.entries i }

end PageTablePage

/-- A table below the root; its key is the indices that lead to it. -/
structure Table where
  key : List Index
  page : PageTablePage

def Table.setEntry (index : Index) (entry : Nat) (table : Table) : Table :=
  { table with page := table.page.setEntry index entry }

structure VirtualMemoryManager where
  root : PageTablePage
  initialized : Bool
  committed : Bool
  active : Bool
  l3Tables : List Table
  l2Tables : List Table
  l1Tables : List Table
  mappings : List Mapping
  mappedPages : Nat

def VirtualMemoryManager.new : VirtualMemoryManager where
  root := .zeroed
  initialized := false
  committed := false
  active := false
  l3Tables := []
  l2Tables := []
  l1Tables := []
  mappings := []
  mappedPages := 0

/-- The manager, the pages it may take, physical memory and the register that names the
    root table in use. -/
structure Machine (α : Type) where
  manager : VirtualMemoryManager
  pages : α
  memory : ByteMemory
  cr3 : Nat

abbrev VmM (α : Type) := EStateM VmError (Machine α)

section

def mappingEnd (mapping : Mapping) : Nat :=
  saturatingAdd mapping.virtStart (saturatingMul mapping.pageCount pageSize)

def rangesOverlap (aStart aEnd bStart bEnd : Nat) : Bool :=
  aStart < bEnd && bStart < aEnd

def higherHalfPhys (phys : Nat) : Option Nat :=
  checkedAdd highHalfDirectMapBase phys

def remapConflict (error remapped : VmError) : VmError :=
  match error with
  | .alreadyMapped => remapped
  | error => error

end

namespace VirtualMemoryManager

variable {α : Type} [PageSource α]

def modifyManager (change : VirtualMemoryManager → VirtualMemoryManager) : VmM α Unit :=
  modify fun machine => { machine with manager := change machine.manager }

/-- A checked computation whose failure is reported as `error`. -/
def orFail {β : Type} (value : Option β) (error : VmError) : VmM α β :=
  match value with
  | some b => pure b
  | none => throw error

def allocatePage : VmM α (Option Nat) := fun machine =>
  let answer := PageSource.allocatePage machine.pages
  .ok answer.1 { machine with pages := answer.2 }

def takePage : VmM α Nat := do
  orFail (← allocatePage) .outOfPhysicalPages

def init : VmM α (Option Nat) := do
  let manager := (← get).manager
  if manager.initialized then return some manager.root.physAddr
  else
    match ← allocatePage with
    | none => return none
    | some root =>
      modifyManager fun manager =>
        { manager with
          root := .new root
          initialized := true
          committed := false
          active := false }
      return some root

section

/-- Where a table is in its list; a new one, which `create` enters into its parent and the
    list, is the last. -/
def getOrCreate (tables : VirtualMemoryManager → List Table) (key : List Index)
    (create : Nat → VirtualMemoryManager → VirtualMemoryManager) : VmM α Nat := do
  let manager := (← get).manager
  match (tables manager).findIdx? fun table => table.key = key with
  | some index => return index
  | none =>
    let phys ← takePage
    modifyManager (create phys)
    return (tables manager).length

def getOrCreateL3 (l4Index : Index) : VmM α Nat :=
  getOrCreate l3Tables [l4Index] fun phys manager =>
    { manager with
      root := manager.root.setEntry l4Index (makeTableEntry phys)
      committed := false
      l3Tables := manager.l3Tables ++ [{ key := [l4Index], page := .new phys }] }

def getOrCreateL2 (l4Index l3Index : Index) (parentL3Index : Nat) : VmM α Nat :=
  getOrCreate l2Tables [l4Index, l3Index] fun phys manager =>
    { manager with
      l3Tables := manager.l3Tables.modify parentL3Index (·.setEntry l3Index (makeTableEntry phys))
      committed := false
      l2Tables := manager.l2Tables ++ [{ key := [l4Index, l3Index], page := .new phys }] }

def getOrCreateL1 (l4Index l3Index l2Index : Index) (parentL2Index : Nat) : VmM α Nat :=
  getOrCreate l1Tables [l4Index, l3Index, l2Index] fun phys manager =>
    { manager with
      l2Tables := manager.l2Tables.modify parentL2Index (·.setEntry l2Index (makeTableEntry phys))
      committed := false
      l1Tables := manager.l1Tables ++ [{ key := [l4Index, l3Index, l2Index], page := .new phys }] }

/-- Enter a leaf in the table at `l1Index`, unless another one is there. -/
def enterLeaf (l1Index : Nat) (slot : Index) (entry : Nat) : VmM α Bool := do
  let existing := ((← get).manager.l1Tables[l1Index]?.map (·.page.entries slot)).getD 0
  if isPresent existing then
    if existing = entry then return false else throw .alreadyMapped
  else
    modifyManager fun manager =>
      { manager with
        l1Tables := manager.l1Tables.modify l1Index (·.setEntry slot entry)
        committed := false }
    return true

def ensureLeafMapping (virt phys : Nat) (writable executable : Bool) : VmM α Bool := do
  let indices := splitIndices virt
  let l3Index ← getOrCreateL3 indices.l4
  let l2Index ← getOrCreateL2 indices.l4 indices.l3 l3Index
  let l1Index ← getOrCreateL1 indices.l4 indices.l3 indices.l2 l2Index
  enterLeaf l1Index indices.l1 (makeLeafEntry phys writable executable)

end

section

def findTable (tables : List Table) (phys : Nat) : Option PageTablePage :=
  (tables.find? fun table => table.page.physAddr = phys).map Table.page

section

variable (manager : VirtualMemoryManager)

def findL3 (phys : Nat) : Option PageTablePage :=
  findTable manager.l3Tables phys

def findL2 (phys : Nat) : Option PageTablePage :=
  findTable manager.l2Tables phys

def findL1 (phys : Nat) : Option PageTablePage :=
  findTable manager.l1Tables phys

structure PageWalk where
  virt : Nat
  indices : Indices
  l4Entry : Option Nat
  l3Entry : Option Nat
  l2Entry : Option Nat
  l1Entry : Option Nat
  phys : Option Nat
  deriving DecidableEq

def walk (virt : Nat) : PageWalk :=
  let indices := splitIndices virt
  let stop (l4Entry l3Entry l2Entry : Option Nat) : PageWalk :=
    { virt, indices, l4Entry, l3Entry, l2Entry, l1Entry := none, phys := none }
  let l4Entry := manager.root.entries indices.l4
  if !isPresent l4Entry then stop none none none
  else
    match manager.findL3 (entryAddress l4Entry) with
    | none => stop (some l4Entry) none none
    | some l3Table =>
      let l3Entry := l3Table.entries indices.l3
      if !isPresent l3Entry then stop (some l4Entry) none none
      else
        match manager.findL2 (entryAddress l3Entry) with
        | none => stop (some l4Entry) (some l3Entry) none
        | some l2Table =>
          let l2Entry := l2Table.entries indices.l2
          if !isPresent l2Entry then stop (some l4Entry) (some l3Entry) none
          else
            match manager.findL1 (entryAddress l2Entry) with
            | none => stop (some l4Entry) (some l3Entry) (some l2Entry)
            | some l1Table =>
              let l1Entry := l1Table.entries indices.l1
              { virt
                indices
                l4Entry := some l4Entry
                l3Entry := some l3Entry
                l2Entry := some l2Entry
                l1Entry := if isPresent l1Entry then some l1Entry else none
                phys :=
                  if isPresent l1Entry then
                    some (saturatingAdd (entryAddress l1Entry) (virt % pageSize))
                  else none }

def translate (virt : Nat) : Option Nat :=
  (manager.walk virt).phys

end

end

section

/-- The pages that `sync_pages` writes, in its order. -/
def tablePages (manager : VirtualMemoryManager) : List PageTablePage :=
  manager.root :: (manager.l3Tables ++ manager.l2Tables ++ manager.l1Tables).map Table.page

/-- The table reaches its page in memory, through the identity map or, once the manager is
    active, through the direct map. -/
def writePageTable (memory : ByteMemory) (page : PageTablePage) : ByteMemory :=
  memory.storeWords page.physAddr (List.ofFn page.entries)

def syncPages : VmM α Nat := do
  let machine ← get
  if !machine.manager.initialized then throw .notInitialized
  else
    set { machine with
      memory := machine.manager.tablePages.foldl writePageTable machine.memory
      manager := { machine.manager with committed := true } }
    return machine.manager.root.physAddr

def syncIfChanged : VmM α Unit := do
  if !(← get).manager.committed then discard syncPages else return ()

def activate : VmM α Nat := do
  let manager := (← get).manager
  if !manager.initialized then throw .notInitialized
  else do
    syncIfChanged
    modify fun machine =>
      { machine with
        cr3 := machine.manager.root.physAddr
        manager := { machine.manager with active := true } }
    return manager.root.physAddr

def adoptActiveRoot (rootTablePhys : Nat) : VmM α Nat :=
  if rootTablePhys % pageSize ≠ 0 then throw .unalignedPhysicalAddress
  else do
    modifyManager fun _ =>
      { root := .new rootTablePhys
        initialized := true
        committed := true
        active := true
        l3Tables := []
        l2Tables := []
        l1Tables := []
        mappings := []
        mappedPages := 0 }
    return rootTablePhys

def adoptCurrentRoot : VmM α Nat := do
  adoptActiveRoot (← get).cr3

end

section

/-- Bookkeeping after the pages of a range are entered. -/
def recordMapping (mapping : Mapping) : VmM α Unit :=
  if mapping.pageCount ≠ 0 then
    modifyManager fun manager =>
      { manager with
        mappedPages := saturatingAdd manager.mappedPages mapping.pageCount
        mappings := manager.mappings ++ [mapping] }
  else pure ()

/-- Enter `count` pages from `virt` and `phys` on; how many of them are new. -/
def mapPages (writable executable : Bool) (virt phys : Nat) : Nat → VmM α Nat
  | 0 => return 0
  | count + 1 => do
    let isNew ← ensureLeafMapping virt phys writable executable
    let rest ← mapPages writable executable (virt + pageSize) (phys + pageSize) count
    return (if isNew then 1 else 0) + rest

/-- Enter fresh pages from `virt` on; the first of them, and how many are new. -/
def mapFreshPages (writable executable : Bool) (virt : Nat) : Nat → VmM α (Option Nat × Nat)
  | 0 => return (none, 0)
  | count + 1 => do
    let phys ← takePage
    let isNew ← ensureLeafMapping virt phys writable executable
    let rest ← mapFreshPages writable executable (virt + pageSize) count
    return (some phys, (if isNew then 1 else 0) + rest.2)

def mapRange (virtStart pageCount : Nat) (writable executable : Bool) : VmM α Mapping := do
  let manager := (← get).manager
  if !manager.initialized then throw .notInitialized
  else if pageCount = 0 then throw .invalidPageCount
  else if virtStart % pageSize ≠ 0 then throw .unalignedVirtualAddress
  else do
    let rangeBytes ← orFail (checkedMul pageCount pageSize) .addressOverflow
    let virtEnd ← orFail (checkedAdd virtStart rangeBytes) .addressOverflow
    if manager.mappings.any fun existing =>
        rangesOverlap virtStart virtEnd existing.virtStart (mappingEnd existing) then
      throw .alreadyMapped
    else do
      let (firstPhys, newlyMappedPages) ← mapFreshPages writable executable virtStart pageCount
      let mapping : Mapping :=
        { virtStart
          physStart := firstPhys.getD 0
          pageCount := newlyMappedPages
          writable
          executable }
      recordMapping mapping
      discard syncPages
      return mapping

def mapIdentityRange (start stop : Nat) (writable executable : Bool) : VmM α Nat := do
  if !(← get).manager.initialized then throw .notInitialized
  else
    let virtStart := alignDown start
    let virtEnd := alignUp stop
    if virtEnd ≤ virtStart then return 0
    else do
      let newlyMappedPages ← mapPages writable executable virtStart virtStart
        ((virtEnd - virtStart) / pageSize)
      recordMapping
        { virtStart, physStart := virtStart, pageCount := newlyMappedPages, writable, executable }
      return newlyMappedPages

/-- The part before a hole, if there is one. -/
def mapBeforeHole (current holeStart : Nat) (writable executable : Bool) : VmM α Nat :=
  if holeStart > current then mapIdentityRange current holeStart writable executable else return 0

/-- The loop of `map_identity_range_excluding` from `current` on, and what follows it. -/
def mapAroundHoles (alignedStart alignedEnd : Nat) (writable executable : Bool) (current : Nat) :
    List (Nat × Nat) → VmM α Nat
  | [] =>
    if current < alignedEnd then mapIdentityRange current alignedEnd writable executable
    else return 0
  | (holeStart, holeEnd) :: holes =>
    let clippedStart := alignDown (max holeStart alignedStart)
    let clippedEnd := alignUp (min holeEnd alignedEnd)
    if clippedEnd ≤ clippedStart then
      mapAroundHoles alignedStart alignedEnd writable executable current holes
    else do
      let pages ← mapBeforeHole current clippedStart writable executable
      let current := max current clippedEnd
      if current ≥ alignedEnd then return pages
      else
        let rest ← mapAroundHoles alignedStart alignedEnd writable executable current holes
        return saturatingAdd pages rest

def mapIdentityRangeExcluding (start stop : Nat) (holes : List (Nat × Nat))
    (writable executable : Bool) : VmM α Nat :=
  let alignedStart := alignDown start
  let alignedEnd := alignUp stop
  if alignedEnd ≤ alignedStart then return 0
  else mapAroundHoles alignedStart alignedEnd writable executable alignedStart holes

def mapFixedRange (virtStart physStart pageCount : Nat) (writable executable : Bool) :
    VmM α Nat := do
  if !(← get).manager.initialized then throw .notInitialized
  else if pageCount = 0 then return 0
  else if virtStart % pageSize ≠ 0 then throw .unalignedVirtualAddress
  else if physStart % pageSize ≠ 0 then throw .unalignedPhysicalAddress
  else do
    let rangeBytes ← orFail (checkedMul pageCount pageSize) .addressOverflow
    let _virtEnd ← orFail (checkedAdd virtStart rangeBytes) .addressOverflow
    let newlyMappedPages ← mapPages writable executable virtStart physStart pageCount
    recordMapping { virtStart, physStart, pageCount := newlyMappedPages, writable, executable }
    return newlyMappedPages

def mapWindowRange (virtStart physStart stop : Nat) (writable executable : Bool) : VmM α Nat :=
  let alignedPhysStart := alignDown physStart
  let alignedPhysEnd := alignUp stop
  if alignedPhysEnd ≤ alignedPhysStart then return 0
  else
    mapFixedRange (virtStart - (physStart - alignedPhysStart)) alignedPhysStart
      ((alignedPhysEnd - alignedPhysStart) / pageSize) writable executable

end

end VirtualMemoryManager

end CodexOS.Vm
