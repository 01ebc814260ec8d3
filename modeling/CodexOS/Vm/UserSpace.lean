import CodexOS.Vm.Manager

/-! # User address spaces

An address space for a program is a copy of the kernel's root table with one chain
of user tables below it. The pages it is made of are recorded, so that they can be
given back when building it fails or when it is destroyed. The kernel reaches
physical pages through the direct map, which does not cover all addresses.
-/

namespace CodexOS.Vm

open Word64 Memory Bytes

def userCodeBase : Nat := 0x0000200000000000
def userStackTop : Nat := userCodeBase + 0x200000
def userProgramLimit : Nat := userStackTop - pageSize
def maxUserOwnedPages : Nat := 128

structure UserSegment where
  virtualAddress : Nat
  data : Bytes
  memorySize : Nat
  writable : Bool
  executable : Bool
  deriving DecidableEq

/-- The filled part of the table of pages, whose length is the source's counter. -/
structure UserPageOwnership where
  pages : List Nat
  fits : pages.length ≤ maxUserOwnedPages

namespace UserPageOwnership

def new : UserPageOwnership where
  pages := []
  fits := Nat.zero_le _

def record (ownership : UserPageOwnership) (phys : Nat) : Option UserPageOwnership :=
  if room : ownership.pages.length < maxUserOwnedPages then
    some
      { pages := ownership.pages ++ [phys]
        fits := by
          rw [List.length_append]
          exact room }
  else none

end UserPageOwnership

structure UserAddressSpace where
  kernelRootPhys : Nat
  rootPhys : Nat
  codePhys : Nat
  stackPhys : Nat
  entry : Nat
  stackTop : Nat
  codeBytes : Nat
  kernelMappingSupervisorOnly : Bool
  codeUserReadExecute : Bool
  stackUserReadWrite : Bool
  owned : UserPageOwnership

section

def orError {β : Type} (value : Option β) (error : VmError) : Except VmError β :=
  match value with
  | some b => .ok b
  | none => .error error

theorem of_orError (ok : orError value error = .ok b) : value = some b := by
  cases value with
  | none => cases ok
  | some value =>
    cases ok
    rfl

def alignUpChecked (value : Nat) : Except VmError Nat :=
  orError ((checkedAdd value (pageSize - 1)).map alignDown) .addressOverflow

def UserSegment.memoryEnd (segment : UserSegment) : Except VmError Nat :=
  orError (checkedAdd segment.virtualAddress segment.memorySize) .addressOverflow

/-- The end of the part of a segment that the file has. -/
def UserSegment.dataEnd (segment : UserSegment) : Except VmError Nat :=
  orError (checkedAdd segment.virtualAddress segment.data.length) .addressOverflow

/-- The loop of `validate_user_program` over the segments before the current one. -/
def checkOverlaps (pageStart pageEnd : Nat) : List UserSegment → Except VmError Unit
  | [] => .ok ()
  | previous :: rest => do
    let previousPageEnd ← alignUpChecked (← previous.memoryEnd)
    if rangesOverlap pageStart pageEnd (alignDown previous.virtualAddress) previousPageEnd then
      .error .userMappingConflict
    else checkOverlaps pageStart pageEnd rest

def validateSegment (previous : List UserSegment) (segment : UserSegment) :
    Except VmError Unit :=
  if segment.memorySize = 0 then .error .userProgramEmpty
  else if segment.writable && segment.executable then .error .userWritableExecutable
  else if segment.data.length > segment.memorySize then .error .userProgramTooLarge
  else do
    let segmentEnd ← segment.memoryEnd
    if segment.virtualAddress < userCodeBase ∨ segmentEnd > userProgramLimit then
      .error .userRegionConflict
    else do
      let pageStart := alignDown segment.virtualAddress
      let pageEnd ← alignUpChecked segmentEnd
      if pageStart < userCodeBase ∨ pageEnd > userProgramLimit then .error .userRegionConflict
      else checkOverlaps pageStart pageEnd previous

/-- Whether the program can start in the file's part of this segment. -/
def startsWithin (entry : Nat) (segment : UserSegment) : Except VmError Bool :=
  if segment.executable && segment.virtualAddress ≤ entry then do
    return entry < (← segment.dataEnd)
  else return false

/-- The loop of `validate_user_program`, with the segments before the current one and whether one
    of them contains the entry. -/
def validateSegments (entry : Nat) :
    List UserSegment → Bool → List UserSegment → Except VmError Bool
  | _, entryExecutable, [] => .ok entryExecutable
  | previous, entryExecutable, segment :: rest => do
    validateSegment previous segment
    let here ← startsWithin entry segment
    validateSegments entry (previous ++ [segment]) (entryExecutable || here) rest

def validateUserProgram (entry : Nat) (segments : List UserSegment) : Except VmError Unit :=
  if segments.isEmpty then .error .userProgramEmpty
  else do
    let entryExecutable ← validateSegments entry [] false segments
    if !entryExecutable then .error .userEntryInvalid else .ok ()

end

/-- Where the direct map has a physical page, if it has it. -/
def physicalPageMut (phys : Nat) : Except VmError Nat :=
  orError ((higherHalfPhys phys).map fun _ => phys) .directMapUnavailable

def writeEntry (memory : ByteMemory) (table : Nat) (index : Index) (entry : Nat) : ByteMemory :=
  memory.storeWords (table + 8 * index) [entry]

def makeUserLeafEntry (phys : Nat) (writable executable : Bool) : Nat :=
  let entry := makeLeafEntry phys writable executable ||| entryUser
  if executable then entry else entry ||| entryNoExecute

section

variable {α : Type} [PageSource α]

open VirtualMemoryManager

def check {σ β : Type} (result : Except VmError β) : EStateM VmError σ β :=
  match result with
  | .ok b => pure b
  | .error error => throw error

theorem of_check (run : (check result : EStateM VmError σ β).run s = .ok b s') :
    result = .ok b ∧ s' = s := by
  cases result with
  | ok value =>
    cases run
    exact ⟨rfl, rfl⟩
  | error error => cases run

theorem of_check_bind {f : β → EStateM VmError σ γ} (run : (check result >>= f).run s = .ok c s') :
    ∃ b, result = .ok b ∧ (f b).run s = .ok c s' := by
  cases result with
  | ok b => exact ⟨b, rfl, run⟩
  | error error => cases run

def modifyMemory (change : ByteMemory → ByteMemory) : VmM α Unit :=
  modify fun machine => { machine with memory := change machine.memory }

def deallocatePage (phys : Nat) : VmM α Bool := fun machine =>
  let answer := PageSource.deallocatePage phys machine.pages
  .ok answer.1 { machine with pages := answer.2 }

def allocateZeroedPage : VmM α Nat := do
  let phys ← takePage
  let page ← check (physicalPageMut phys)
  modifyMemory fun memory => memory.store page (zeros pageSize)
  return phys

/-- The loop of `reclaim`; whether something failed. -/
def reclaimPages (failed : Bool) : List Nat → VmM α Bool
  | [] => return failed
  | phys :: rest => do
    let mapped := (physicalPageMut phys).isOk
    modifyMemory fun memory => if mapped then memory.store phys (zeros pageSize) else memory
    let freed ← deallocatePage phys
    reclaimPages (failed || !mapped || !freed) rest

def UserPageOwnership.reclaim (ownership : UserPageOwnership) : VmM α Unit := do
  let failed ← reclaimPages false ownership.pages.reverse
  if failed then throw .pageReclamationFailed else return ()

/-- One level of the walk of `raw_leaf_entry`. -/
def readUserTable (tablePhys : Nat) (index : Index) : VmM α Nat := do
  let table ← check (physicalPageMut tablePhys)
  let entry := readEntry (← get).memory table index
  if isPresent entry && has entry entryUser then return entryAddress entry
  else throw .userMappingConflict

def rawLeafEntry (rootPhys virt : Nat) : VmM α Nat := do
  let indices := splitIndices virt
  let l3Phys ← readUserTable rootPhys indices.l4
  let l2Phys ← readUserTable l3Phys indices.l3
  let l1Phys ← readUserTable l2Phys indices.l2
  let table ← check (physicalPageMut l1Phys)
  let leaf := readEntry (← get).memory table indices.l1
  if isPresent leaf then return leaf else throw .userMappingConflict

end

section

/-- The machine and the pages that were recorded so far. -/
structure Loading (α : Type) where
  machine : Machine α
  ownership : UserPageOwnership

abbrev LoadM (α : Type) := EStateM VmError (Loading α)

variable {α : Type} [PageSource α]

def onMachine {β : Type} (x : VmM α β) : LoadM α β := fun loading =>
  match x.run loading.machine with
  | .ok b machine => .ok b { loading with machine }
  | .error error machine => .error error { loading with machine }

/-- A page that was not recorded goes back. -/
def giveUpPage (phys : Nat) : VmM α Nat := do
  if ← deallocatePage phys then throw .userPageTrackingCapacity else throw .pageReclamationFailed

def recordPage (phys : Nat) : LoadM α Nat := do
  let loading ← get
  match loading.ownership.record phys with
  | some ownership =>
    set { loading with ownership }
    return phys
  | none => onMachine (giveUpPage phys)

def allocateOwnedZeroedPage : LoadM α Nat := do
  let phys ← onMachine allocateZeroedPage
  recordPage phys

/-- One level of the walk of `raw_map_user_page`. -/
def enterUserTable (tablePhys : Nat) (index : Index) : LoadM α Nat := do
  let table ← check (physicalPageMut tablePhys)
  let entry := readEntry (← get).machine.memory table index
  if !isPresent entry then do
    let child ← allocateOwnedZeroedPage
    onMachine (modifyMemory fun memory => writeEntry memory table index (makeUserTableEntry child))
    return entryAddress (makeUserTableEntry child)
  else if !has entry entryUser then throw .userRegionConflict
  else return entryAddress entry

def enterUserLeaf (tablePhys : Nat) (index : Index) (entry : Nat) : LoadM α Unit := do
  let table ← check (physicalPageMut tablePhys)
  if isPresent (readEntry (← get).machine.memory table index) then throw .userMappingConflict
  else onMachine (modifyMemory fun memory => writeEntry memory table index entry)

def rawMapUserPage (rootPhys virt phys : Nat) (writable executable : Bool) : LoadM α Unit := do
  let indices := splitIndices virt
  let l3Phys ← enterUserTable rootPhys indices.l4
  let l2Phys ← enterUserTable l3Phys indices.l3
  let l1Phys ← enterUserTable l2Phys indices.l2
  enterUserLeaf l1Phys indices.l1 (makeUserLeafEntry phys writable executable)

/-- Copy the part of the file that belongs into a page. -/
def copyData (segment : UserSegment) (dataEnd pageVirt pagePhys : Nat) : VmM α Unit :=
  let copyStart := max pageVirt segment.virtualAddress
  let copyEnd := min (saturatingAdd pageVirt pageSize) dataEnd
  if copyStart < copyEnd then do
    let page ← check (physicalPageMut pagePhys)
    modifyMemory fun memory => memory.store (page + (copyStart - pageVirt))
      (slice segment.data (copyStart - segment.virtualAddress) (copyEnd - copyStart))
  else pure ()

/-- The loop over the pages of a segment from `pageVirt` on; the first executable page. -/
def loadPages (rootPhys : Nat) (segment : UserSegment) (dataEnd pageVirt codePhys : Nat) :
    Nat → LoadM α Nat
  | 0 => return codePhys
  | count + 1 => do
    let pagePhys ← allocateOwnedZeroedPage
    onMachine (copyData segment dataEnd pageVirt pagePhys)
    rawMapUserPage rootPhys pageVirt pagePhys segment.writable segment.executable
    let next ← check (orError (checkedAdd pageVirt pageSize) .addressOverflow)
    loadPages rootPhys segment dataEnd next
      (if segment.executable && codePhys = 0 then pagePhys else codePhys) count

/-- The loop over the segments; the first executable page and the number of bytes copied. -/
def loadSegments (rootPhys codePhys loadedBytes : Nat) :
    List UserSegment → LoadM α (Nat × Nat)
  | [] => return (codePhys, loadedBytes)
  | segment :: rest => do
    let segmentEnd ← check segment.memoryEnd
    let pageStart := alignDown segment.virtualAddress
    let pageEnd ← check (alignUpChecked segmentEnd)
    let dataEnd ← check segment.dataEnd
    let codePhys ← loadPages rootPhys segment dataEnd pageStart codePhys
      ((pageEnd - pageStart) / pageSize)
    let loadedBytes ← check (orError (checkedAdd loadedBytes segment.data.length) .addressOverflow)
    loadSegments rootPhys codePhys loadedBytes rest

/-- A copy of the kernel's root, in which the user part must be free. -/
def copyKernelRoot (kernelRootPhys rootPhys : Nat) : VmM α Unit := do
  let source ← check (physicalPageMut kernelRootPhys)
  let page ← check (physicalPageMut rootPhys)
  modifyMemory fun memory => memory.store page (memory.load source pageSize)
  let root ← check (physicalPageMut rootPhys)
  if isPresent (readEntry (← get).memory root (splitIndices userCodeBase).l4) then
    throw .userRegionConflict
  else return ()

/-- What `create_user_address_space_from_segments` returns, with what it reads back from the
    tables. -/
def describeSpace (kernelRootPhys rootPhys codePhys stackPhys entry codeBytes : Nat) :
    LoadM α UserAddressSpace := do
  let codeEntry ← onMachine (rawLeafEntry rootPhys entry)
  let stackEntry ← onMachine (rawLeafEntry rootPhys (userStackTop - pageSize))
  let root ← check (physicalPageMut rootPhys)
  let loading ← get
  let kernelL4Entry := readEntry loading.machine.memory root (splitIndices 0x200000).l4
  return {
    kernelRootPhys
    rootPhys
    codePhys
    stackPhys
    entry
    stackTop := userStackTop - 16
    codeBytes
    kernelMappingSupervisorOnly := !has kernelL4Entry entryUser
    codeUserReadExecute := isPresent codeEntry && has codeEntry entryUser &&
      !has codeEntry entryWritable && !has codeEntry entryNoExecute
    stackUserReadWrite := isPresent stackEntry && has stackEntry entryUser &&
      has stackEntry entryWritable && has stackEntry entryNoExecute
    owned := loading.ownership }

/-- The closure of `create_user_address_space_from_segments`. -/
def buildUserSpace (kernelRootPhys entry : Nat) (segments : List UserSegment) :
    LoadM α UserAddressSpace := do
  let rootPhys ← allocateOwnedZeroedPage
  onMachine (copyKernelRoot kernelRootPhys rootPhys)
  let (codePhys, loadedBytes) ← loadSegments rootPhys 0 0 segments
  let stackPhys ← allocateOwnedZeroedPage
  rawMapUserPage rootPhys (userStackTop - pageSize) stackPhys true false
  describeSpace kernelRootPhys rootPhys codePhys stackPhys entry loadedBytes

/-- Build the space, or give back what was taken for it. -/
def buildOrReclaim (kernelRootPhys entry : Nat) (segments : List UserSegment) :
    VmM α UserAddressSpace := fun machine =>
  match (buildUserSpace kernelRootPhys entry segments).run { machine, ownership := .new } with
  | .ok space loading => .ok space loading.machine
  | .error error loading =>
    match loading.ownership.reclaim.run loading.machine with
    | .ok () machine => .error error machine
    | .error error machine => .error error machine

def createUserAddressSpaceFromSegments (entry : Nat) (segments : List UserSegment) :
    VmM α UserAddressSpace := do
  check (validateUserProgram entry segments)
  buildOrReclaim (← get).cr3 entry segments

def createUserAddressSpace (code : Bytes) : VmM α UserAddressSpace :=
  if code.isEmpty then throw .userProgramEmpty
  else if code.length > pageSize then throw .userProgramTooLarge
  else
    createUserAddressSpaceFromSegments userCodeBase
      [{ virtualAddress := userCodeBase
         data := code
         memorySize := code.length
         writable := false
         executable := true }]

def destroyUserAddressSpace (space : UserAddressSpace) : VmM α Unit := do
  if (← get).cr3 = space.rootPhys then throw .activeAddressSpace
  else space.owned.reclaim

end

end CodexOS.Vm
