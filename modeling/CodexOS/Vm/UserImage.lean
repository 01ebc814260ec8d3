import CodexOS.Vm.UserElf
import CodexOS.Vm.UserProgram

/-! # A program's address space is its file

What a program can reach in the address space that was built for its ELF file: the
pages of the file's segments, each a page of its own with the bytes of the file and
the rights of the segment, and the stack. The rest of the tables is the kernel's, and
below an entry of the root without the user bit there is nothing for the program.
-/

namespace CodexOS.Vm

open Effect Word64 Memory Bytes VirtualMemoryManager UserElf

/-- The segments that `from_elf` passes on. -/
def segmentsOf (image : UserElfImage) : List UserSegment :=
  image.segments.map fun segment => {
    virtualAddress := segment.virtualAddress
    data := segment.data
    memorySize := segment.memorySize
    writable := segment.writable
    executable := segment.executable }

/-- An address whose upper bits are all the same. -/
def Canonical (virt : Nat) : Prop :=
  virt < 2 ^ 47 ∨ 2 ^ 64 - 2 ^ 47 ≤ virt ∧ virt < 2 ^ 64

/-- The program can use the address: every entry on the way to it has the user bit. -/
def Reaches (memory : ByteMemory) (root virt : Nat) (access : Access) : Prop :=
  hardwareWalk memory root virt = some access ∧ access.user = true

/-! ## The kernel's part -/

section

variable {memory : ByteMemory} {virt table : Nat} {above : List Nat} {entry : Nat}
  {levels : List (Index × Nat)} {access : Access}

/-- A walk through an entry without the user bit does not give the user access. -/
theorem walkFrom_supervisor (mem : entry ∈ above) (noUser : has entry entryUser = false)
    (found : walkFrom memory virt above table levels = some access) : access.user = false := by
  induction levels generalizing above table with
  | nil => cases found
  | cons level below ih =>
    obtain ⟨index, bits⟩ := level
    have still : entry ∈ above ++ [readEntry memory table index] :=
      List.mem_append_left _ mem
    cases present : isPresent (readEntry memory table index) with
    | false =>
      rw [walkFrom_absent present] at found
      cases found
    | true =>
      cases page : mapsPage bits (readEntry memory table index) with
      | false =>
        rw [walkFrom_table present page] at found
        exact ih still found
      | true =>
        rw [walkFrom_page present page] at found
        cases found
        refine Bool.eq_false_iff.mpr fun everywhere => ?_
        have here := List.all_eq_true.mp everywhere entry still
        rw [noUser] at here
        cases here

theorem hardwareWalk_supervisor {root : Nat} (frame : IsFrame root)
    (noUser : has (readEntry memory root (splitIndices virt).l4) entryUser = false)
    (found : hardwareWalk memory root virt = some access) : access.user = false := by
  have isRoot : entryAddress root = root := frame.and_mask
  unfold hardwareWalk walkLevels at found
  rw [isRoot] at found
  cases present : isPresent (readEntry memory root (splitIndices virt).l4) with
  | false =>
    rw [walkFrom_absent present] at found
    cases found
  | true =>
    rw [walkFrom_table present rfl] at found
    exact walkFrom_supervisor (List.mem_append_right _ (List.mem_singleton.mpr rfl)) noUser found

/-- The user bit of an entry is in its first byte. -/
theorem has_user_readEntry (memory : ByteMemory) (table : Nat) (index : Index) :
    has (readEntry memory table index) entryUser =
      decide ((memory (table + 8 * index)).toNat / 4 % 2 = 1) := by
  have isFirst : ∃ rest, readEntry memory table index =
      (memory (table + 8 * index)).toNat + 256 * rest := ⟨_, rfl⟩
  obtain ⟨rest, isFirst⟩ := isFirst
  have bit (value : Nat) : has value entryUser = decide (value / 4 % 2 = 1) := by
    have isBit : value &&& entryUser = (value.testBit 2).toNat * 2 ^ 2 := Nat.and_two_pow value 2
    unfold has
    rw [isBit, Nat.testBit_eq_decide_div_mod_eq]
    by_cases set : value / 4 % 2 = 1
    · simp [set]
    · simp [set]
  rw [bit, isFirst]
  congr 2
  omega

theorem copiedEntry_supervisor {α : Type} {machine : Machine α} {root : Nat} {index : Index}
    (noUser : has (readEntry machine.memory machine.cr3 index) entryUser = false) :
    has (copiedEntry machine root index) entryUser = false := by
  have bound : 8 * (index : Nat) < pageSize := by
    have := index.isLt
    unfold pageSize
    omega
  unfold copiedEntry
  rw [has_user_readEntry, ByteMemory.store, if_pos (Nat.le_add_right _ _), Nat.add_sub_cancel_left,
    ByteMemory.load, List.getElem?_map, List.getElem?_range bound, Option.map_some,
    Option.getD_some]
  rw [has_user_readEntry] at noUser
  -- The byte is the kernel's, or it was cleared with the new page.
  by_cases cleared : root ≤ machine.cr3 + 8 * index ∧ machine.cr3 + 8 * index < root + pageSize
  · have zero := isZero_store machine.memory root (machine.cr3 + 8 * index - root) (by omega)
    rw [show root + (machine.cr3 + 8 * index - root) = machine.cr3 + 8 * index by omega] at zero
    rw [zero]
    rfl
  · rw [ByteMemory.store_of_outside, noUser]
    rw [length_zeros]
    omega

end

/-! ## Headers and segments -/

def loadedSegment (file : Bytes) (header : LoadHeader) : UserSegment where
  virtualAddress := header.virtualAddress
  data := slice file header.fileOffset header.fileSize
  memorySize := header.memorySize
  writable := header.writable
  executable := header.executable

/-- The byte of a program at an address in the pages of a header. -/
def loadedByte (file : Bytes) (header : LoadHeader) (virt : Nat) : UInt8 :=
  if header.virtualAddress ≤ virt ∧ virt < header.virtualAddress + header.fileSize then
    byteAt file (header.fileOffset + (virt - header.virtualAddress))
  else 0

section

variable {file : Bytes} {header : LoadHeader} {segment : UserSegment} {virt : Nat}

theorem byteAt_loadedSegment (file : Bytes) (header : LoadHeader) (virt : Nat) :
    (loadedSegment file header).byteAt virt = loadedByte file header virt := by
  unfold UserSegment.byteAt loadedByte loadedSegment byteAt
  dsimp only
  rw [getElem?_slice]
  by_cases started : header.virtualAddress ≤ virt
  · rw [if_pos started]
    by_cases within : virt - header.virtualAddress < header.fileSize
    · rw [if_pos within, if_pos ⟨started, by omega⟩, List.getD_eq_getElem?_getD]
    · rw [if_neg within, if_neg (by omega), Option.getD_none]
  · rw [if_neg started, if_neg (by omega)]

theorem segmentsOf_parse (parsed : parse file = .ok image) :
    segmentsOf image = (loadHeaders file).map (loadedSegment file) := by
  obtain ⟨-, isSegments, -⟩ := of_parse parsed
  unfold segmentsOf
  rw [isSegments, List.map_map]
  rfl

theorem covers_alignDown (segment : UserSegment) (virt : Nat) :
    segment.Covers (alignDown virt) ↔ segment.Covers virt := by
  unfold UserSegment.Covers UserSegment.pageStart UserSegment.pageEnd alignDown pageSize
  omega

theorem UserSegment.Placed.covers (placed : segment.Placed) (low : segment.virtualAddress ≤ virt)
    (high : virt < segment.virtualAddress + segment.data.length) : segment.Covers virt := by
  have data := placed.data
  unfold UserSegment.Covers UserSegment.pageStart UserSegment.pageEnd alignDown pageSize
  omega

theorem userPageAt_split (low : userCodeBase ≤ virt) (high : virt < userStackTop) :
    userPageAt (splitIndices virt).l1 = alignDown virt := by
  unfold userStackTop at high
  unfold userPageAt
  unfold userCodeBase at low high ⊢
  unfold alignDown pageSize
  have index : ((splitIndices virt).l1 : Nat) = virt / 2 ^ 12 % 512 := rfl
  rw [index]
  omega

end

/-! ## What the program reaches -/

/-- The address is in the page of the stack. -/
def InStack (virt : Nat) : Prop :=
  userStackTop - pageSize ≤ virt ∧ virt < userStackTop

section

variable {α : Type} [PageSource α] {supply : Supply α} {kernel : Index → Nat} {layout : Layout}
  {machine machine' : Machine α} {ownership : UserPageOwnership} {root virt : Nat}
  {access : Access} {segments : List UserSegment} {segment : UserSegment} {index : Index}
  {page : UserPage}

/-- The part of the addresses that the last table of the chain maps. -/
theorem window_of_indices (canonical : Canonical virt) (isL4 : (splitIndices virt).l4 = slot 0)
    (isL3 : (splitIndices virt).l3 = slot 1) (isL2 : (splitIndices virt).l2 = slot 2) :
    userCodeBase ≤ virt ∧ virt < userStackTop := by
  have l4 : virt / 2 ^ 39 % 512 = 64 := congrArg Fin.val isL4
  have l3 : virt / 2 ^ 30 % 512 = 0 := congrArg Fin.val isL3
  have l2 : virt / 2 ^ 21 % 512 = 0 := congrArg Fin.val isL2
  unfold Canonical at canonical
  unfold userStackTop userCodeBase
  omega

/-- A program reaches the leaves of its own tables and nothing else. -/
theorem Building.reaches_iff (building : Building supply kernel layout { machine, ownership })
    (isRoot : layout.tables[0]? = some root) (full : layout.tables.length = 4)
    (noUser : ∀ index, has (kernel index) entryUser = false) (canonical : Canonical virt) :
    Reaches machine.memory root virt access ↔
      (userCodeBase ≤ virt ∧ virt < userStackTop) ∧
        ∃ page, layout.leaves (splitIndices virt).l1 = some page ∧ access = page.access virt := by
  constructor
  · rintro ⟨found, user⟩
    by_cases isUser : (splitIndices virt).l4 = slot 0
    · rw [building.hardwareWalk_user isRoot full isUser] at found
      split at found
      next below =>
        obtain ⟨page, isPage, rfl⟩ := Option.map_eq_some_iff.mp found
        exact ⟨window_of_indices canonical isUser below.1 below.2, page, isPage, rfl⟩
      next => cases found
    · -- Another entry of the root is the kernel's.
      have entry := building.laid.entries isRoot (splitIndices virt).l4
      unfold Layout.EntryAt at entry
      rw [if_neg (by decide), if_neg isUser, if_pos rfl] at entry
      have frame := building.owning.frames root
        (building.owned.tables root (List.mem_of_getElem? isRoot))
      have supervisor := hardwareWalk_supervisor frame (by rw [entry]; exact noUser _) found
      rw [user] at supervisor
      cases supervisor
  · rintro ⟨⟨low, high⟩, page, isPage, rfl⟩
    obtain ⟨isL4, isL3, isL2⟩ := splitIndices_user low high
    refine ⟨?_, rfl⟩
    rw [building.hardwareWalk_user isRoot full isL4, if_pos ⟨isL3, isL2⟩, isPage, Option.map_some]

theorem Complete.cases (complete : Complete segments layout)
    (found : layout.leaves index = some page) :
    index = stackIndex ∨ ∃ segment ∈ segments, segment.Covers (userPageAt index) := by
  by_contra neither
  obtain ⟨notStack, uncovered⟩ := not_or.mp neither
  rw [complete.outside index notStack fun segment mem covers => uncovered ⟨segment, mem, covers⟩]
    at found
  cases found

theorem inStack_iff (low : userCodeBase ≤ virt) (high : virt < userStackTop) :
    InStack virt ↔ (splitIndices virt).l1 = stackIndex := by
  have isPage := userPageAt_split low high
  have isStack : userPageAt stackIndex = userStackTop - pageSize := by decide
  have isTop : userStackTop = 0x200000200000 := by decide
  constructor
  · rintro ⟨above, below⟩
    apply userPageAt_inj
    rw [isPage, isStack]
    unfold alignDown pageSize at *
    omega
  · intro isIndex
    rw [isIndex, isStack] at isPage
    unfold InStack
    unfold alignDown pageSize at *
    omega

theorem UserSegment.Placed.window (placed : segment.Placed) (covers : segment.Covers virt) :
    userCodeBase ≤ virt ∧ virt < userStackTop - pageSize := by
  have low := placed.pageLow
  have high := placed.pageHigh
  have isLimit : userProgramLimit = userStackTop - pageSize := rfl
  exact ⟨low.trans covers.1, covers.2.trans_le (isLimit ▸ high)⟩

theorem alignDown_access (frame : IsFrame page.phys) (virt : Nat) :
    alignDown (page.access virt).phys = page.phys := by
  obtain ⟨aligned, -⟩ := frame
  unfold UserPage.access
  dsimp only
  unfold alignDown pageSize at *
  omega

/-- A space whose leaves are the pages of its segments, below a kernel that gives the program
    nothing. -/
structure Finished (supply : Supply α) (kernel : Index → Nat) (layout : Layout)
    (segments : List UserSegment) (machine : Machine α) (ownership : UserPageOwnership)
    (root : Nat) : Prop where
  building : Building supply kernel layout { machine, ownership }
  isRoot : layout.tables[0]? = some root
  complete : Complete segments layout
  placed : ∀ segment ∈ segments, segment.Placed
  noUser : ∀ index, has (kernel index) entryUser = false

namespace Finished

variable (finished : Finished supply kernel layout segments machine ownership root)
include finished

/-- An address that is reached is in the page of a leaf. -/
theorem reaches_iff (canonical : Canonical virt) :
    Reaches machine.memory root virt access ↔
      (userCodeBase ≤ virt ∧ virt < userStackTop) ∧
        ∃ page, layout.leaves (splitIndices virt).l1 = some page ∧ access = page.access virt := by
  obtain ⟨stack, isStack⟩ := finished.complete.stack
  have full := (finished.building.owned.leaves isStack).2.2
  exact finished.building.reaches_iff finished.isRoot full finished.noUser canonical

theorem leaf_of_covers (mem : segment ∈ segments) (covers : segment.Covers virt) :
    (userCodeBase ≤ virt ∧ virt < userStackTop) ∧
      ∃ phys, layout.leaves (splitIndices virt).l1 = some (segment.page phys (alignDown virt)) := by
  obtain ⟨low, high⟩ := (finished.placed segment mem).window covers
  have below : virt < userStackTop := high.trans (by decide)
  have isPage := userPageAt_split low below
  have inside := finished.complete.inside segment mem (splitIndices virt).l1
    (by rwa [isPage, covers_alignDown])
  rw [isPage] at inside
  exact ⟨⟨low, below⟩, inside⟩

omit [PageSource α] in
omit finished in
theorem canonical_of_window (window : userCodeBase ≤ virt ∧ virt < userStackTop) :
    Canonical virt := by
  have isTop : userStackTop < 2 ^ 47 := by decide
  exact .inl (window.2.trans isTop)

theorem reaches_segment (mem : segment ∈ segments) (covers : segment.Covers virt) :
    Reaches machine.memory root virt access ↔
      ∃ phys, layout.leaves (splitIndices virt).l1 = some (segment.page phys (alignDown virt)) ∧
        access = (segment.page phys (alignDown virt)).access virt := by
  obtain ⟨window, phys, isLeaf⟩ := finished.leaf_of_covers mem covers
  rw [finished.reaches_iff (canonical_of_window window)]
  constructor
  · rintro ⟨-, page, found, rfl⟩
    rw [isLeaf] at found
    obtain rfl := Option.some.inj found
    exact ⟨phys, isLeaf, rfl⟩
  · rintro ⟨phys', found, rfl⟩
    exact ⟨window, _, found, rfl⟩

theorem reaches_stack (inStack : InStack virt) :
    Reaches machine.memory root virt access ↔
      ∃ phys, layout.leaves stackIndex = some (stackPage phys) ∧
        access = (stackPage phys).access virt := by
  have low : userCodeBase ≤ virt := inStack.1.trans' (by decide)
  have isIndex := (inStack_iff low inStack.2).mp inStack
  obtain ⟨phys, isLeaf⟩ := finished.complete.stack
  rw [finished.reaches_iff (canonical_of_window ⟨low, inStack.2⟩), isIndex]
  constructor
  · rintro ⟨-, page, found, rfl⟩
    rw [isLeaf] at found
    obtain rfl := Option.some.inj found
    exact ⟨phys, isLeaf, rfl⟩
  · rintro ⟨phys', found, rfl⟩
    exact ⟨⟨low, inStack.2⟩, _, found, rfl⟩

/-- What is reached is the stack and the segments. -/
theorem reached_iff (canonical : Canonical virt) :
    (∃ access, Reaches machine.memory root virt access) ↔
      InStack virt ∨ ∃ segment ∈ segments, segment.Covers virt := by
  constructor
  · rintro ⟨access, reached⟩
    obtain ⟨⟨low, high⟩, page, found, -⟩ := (finished.reaches_iff canonical).mp reached
    rcases finished.complete.cases found with inStack | ⟨segment, mem, covers⟩
    · exact .inl ((inStack_iff low high).mpr inStack)
    · rw [userPageAt_split low high, covers_alignDown] at covers
      exact .inr ⟨segment, mem, covers⟩
  · rintro (inStack | ⟨segment, mem, covers⟩)
    · obtain ⟨phys, isLeaf⟩ := finished.complete.stack
      exact ⟨_, (finished.reaches_stack inStack).mpr ⟨phys, isLeaf, rfl⟩⟩
    · obtain ⟨-, phys, isLeaf⟩ := finished.leaf_of_covers mem covers
      exact ⟨_, (finished.reaches_segment mem covers).mpr ⟨phys, isLeaf, rfl⟩⟩

theorem frame_of_leaf (found : layout.leaves index = some page) : IsFrame page.phys :=
  finished.building.owning.frames page.phys (finished.building.owned.leaves found).1

theorem reached_owned (canonical : Canonical virt)
    (reached : Reaches machine.memory root virt access) :
    alignDown access.phys ∈ ownership.pages := by
  obtain ⟨-, page, found, rfl⟩ := (finished.reaches_iff canonical).mp reached
  rw [alignDown_access (finished.frame_of_leaf found)]
  exact (finished.building.owned.leaves found).1

theorem reached_single (canonical : Canonical virt) (canonical' : Canonical virt')
    (reached : Reaches machine.memory root virt access)
    (reached' : Reaches machine.memory root virt' access')
    (same : alignDown access.phys = alignDown access'.phys) : alignDown virt = alignDown virt' := by
  obtain ⟨⟨low, high⟩, page, found, rfl⟩ := (finished.reaches_iff canonical).mp reached
  obtain ⟨⟨low', high'⟩, page', found', rfl⟩ := (finished.reaches_iff canonical').mp reached'
  rw [alignDown_access (finished.frame_of_leaf found),
    alignDown_access (finished.frame_of_leaf found')] at same
  have sameIndex := finished.building.owned.single found found' same
  rw [← userPageAt_split low high, ← userPageAt_split low' high', sameIndex]

/-- The bytes of the pages of a segment are the segment's. -/
theorem reached_bytes (mem : segment ∈ segments) (covers : segment.Covers virt)
    (reached : Reaches machine.memory root virt access) :
    machine.memory access.phys = segment.byteAt virt := by
  obtain ⟨phys, isLeaf, rfl⟩ := (finished.reaches_segment mem covers).mp reached
  have inPage : virt % pageSize < pageSize := Nat.mod_lt _ (by decide)
  have contents := finished.building.laid.contents isLeaf (virt % pageSize) inPage
  have whole : alignDown virt + virt % pageSize = virt := Nat.sub_add_cancel (Nat.mod_le _ _)
  unfold UserSegment.page at contents
  dsimp only at contents
  rw [whole] at contents
  exact contents

end Finished

/-- The supply, when only what is given out from now on counts as used. -/
def Supply.avoiding (supply : Supply α) (old : Nat → Prop) : Supply α where
  Valid pages := supply.Valid pages ∧ ∀ page, old page → supply.Used pages page
  Used pages page := supply.Used pages page ∧ ¬old page
  fresh := by
    rintro pages page ⟨valid, inUse⟩ answer
    obtain ⟨frame, unused, used⟩ := supply.fresh valid answer
    exact ⟨frame, fun other => unused other.1, used, fun isOld => unused (inUse page isOld)⟩
  valid := by
    rintro pages ⟨valid, inUse⟩
    exact ⟨supply.valid valid, fun page isOld => supply.keeps valid (inUse page isOld)⟩
  keeps := fun ⟨valid, _⟩ ⟨used, new⟩ => ⟨supply.keeps valid used, new⟩

/-- A program reaches only pages that nobody had when its space was made, and that count as used from
    then on. So no two live programs share a page. -/
theorem reaches_only_new_pages {space : UserAddressSpace} {entry : Nat}
    (fresh : supply.Valid machine.pages)
    (noUser : ∀ index, has (readEntry machine.memory machine.cr3 index) entryUser = false)
    (created : (createUserAddressSpaceFromSegments entry segments).run machine =
      .ok space machine') :
    ∀ virt access, Canonical virt → Reaches machine'.memory space.rootPhys virt access →
      ¬supply.Used machine.pages (alignDown access.phys) ∧
        supply.Used machine'.pages (alignDown access.phys) := by
  have valid : (supply.avoiding (supply.Used machine.pages)).Valid machine.pages :=
    ⟨fresh, fun _ => id⟩
  obtain ⟨accepted, -, layout, building, isRoot, complete⟩ := built_of_create valid created
  have finished : Finished _ _ layout segments machine' space.owned space.rootPhys :=
    ⟨building, isRoot, complete, accepted.placed, fun index => copiedEntry_supervisor (noUser index)⟩
  intro virt access canonical reached
  obtain ⟨used, new⟩ := building.owning.used _ (finished.reached_owned canonical reached)
  exact ⟨new, used⟩

/-! ## The image of a file -/

/-- What a program reaches is the image of its file. -/
structure IsImage (file : Bytes) (space : UserAddressSpace) (memory : ByteMemory) : Prop where
  pages : ∀ virt, Canonical virt →
    ((∃ access, Reaches memory space.rootPhys virt access) ↔
      InStack virt ∨ ∃ header ∈ loadHeaders file, (loadedSegment file header).Covers virt)
  apart : (loadHeaders file).Pairwise fun header other => ∀ virt,
    (loadedSegment file header).Covers virt → ¬(loadedSegment file other).Covers virt
  stackApart : ∀ header ∈ loadHeaders file, ∀ virt,
    (loadedSegment file header).Covers virt → ¬InStack virt
  owned : ∀ virt access, Canonical virt → Reaches memory space.rootPhys virt access →
    alignDown access.phys ∈ space.owned.pages
  single : ∀ virt virt' access access', Canonical virt → Canonical virt' →
    Reaches memory space.rootPhys virt access → Reaches memory space.rootPhys virt' access' →
    alignDown access.phys = alignDown access'.phys → alignDown virt = alignDown virt'
  rights : ∀ header ∈ loadHeaders file, ∀ virt access, (loadedSegment file header).Covers virt →
    Reaches memory space.rootPhys virt access →
    access.writable = header.writable ∧ access.executable = header.executable ∧
      ¬(access.writable = true ∧ access.executable = true)
  stack : ∀ virt access, InStack virt → Reaches memory space.rootPhys virt access →
    access.writable = true ∧ access.executable = false
  bytes : ∀ header ∈ loadHeaders file, ∀ virt access, (loadedSegment file header).Covers virt →
    Reaches memory space.rootPhys virt access → memory access.phys = loadedByte file header virt
  entry : space.entry = field 8 file 24
  starts : ∃ header ∈ loadHeaders file, header.executable = true ∧
    (loadedSegment file header).Covers space.entry ∧ header.virtualAddress ≤ space.entry ∧
    space.entry < header.virtualAddress + header.fileSize

theorem starts_in_file {file : Bytes} {entry : Nat}
    (inFile : ∀ header ∈ loadHeaders file, header.InFile file)
    (accepted : Accepted entry ((loadHeaders file).map (loadedSegment file))) :
    ∃ header ∈ loadHeaders file, header.executable = true ∧
      (loadedSegment file header).Covers entry ∧ header.virtualAddress ≤ entry ∧
      entry < header.virtualAddress + header.fileSize := by
  obtain ⟨segment, mem, executable, low, high⟩ := accepted.starts
  have placed := accepted.placed segment mem
  obtain ⟨header, isHeader, rfl⟩ := List.mem_map.mp mem
  refine ⟨header, isHeader, executable, placed.covers low high, low, ?_⟩
  have isLength : (loadedSegment file header).data.length = header.fileSize :=
    length_slice (inFile header isHeader)
  rwa [isLength] at high

/-- The address space that is returned for a file is the image of the file. -/
theorem user_space_is_image {file : Bytes} {image : UserElfImage} {space : UserAddressSpace}
    (fresh : supply.Valid machine.pages)
    (noUser : ∀ index, has (readEntry machine.memory machine.cr3 index) entryUser = false)
    (parsed : parse file = .ok image)
    (created : (createUserAddressSpaceFromSegments image.entry (segmentsOf image)).run machine =
      .ok space machine') :
    IsImage file space machine'.memory := by
  rw [segmentsOf_parse parsed] at created
  obtain ⟨isEntry, -, inFile⟩ := of_parse parsed
  obtain ⟨accepted, sameEntry, layout, building, isRoot, complete⟩ := built_of_create fresh created
  have finished : Finished supply _ layout _ machine' space.owned space.rootPhys :=
    ⟨building, isRoot, complete, accepted.placed, fun index => copiedEntry_supervisor (noUser index)⟩
  have isSegment {header} (mem : header ∈ loadHeaders file) :
      loadedSegment file header ∈ (loadHeaders file).map (loadedSegment file) :=
    List.mem_map_of_mem mem
  constructor
  case pages =>
    intro virt canonical
    simp only [finished.reached_iff canonical, List.mem_map, exists_exists_and_eq_and]
  case apart => exact List.pairwise_map.mp accepted.apart
  case stackApart =>
    intro header mem virt covers inStack
    have := (accepted.placed _ (isSegment mem)).window covers
    have := inStack.1
    omega
  case owned => exact fun virt access => finished.reached_owned
  case single => exact fun virt virt' access access' => finished.reached_single
  case rights =>
    intro header mem virt access covers reached
    obtain ⟨phys, -, rfl⟩ := (finished.reaches_segment (isSegment mem) covers).mp reached
    exact ⟨rfl, rfl, (accepted.placed _ (isSegment mem)).rights⟩
  case stack =>
    intro virt access inStack reached
    obtain ⟨phys, -, rfl⟩ := (finished.reaches_stack inStack).mp reached
    exact ⟨rfl, rfl⟩
  case bytes =>
    intro header mem virt access covers reached
    rw [finished.reached_bytes (isSegment mem) covers reached, byteAt_loadedSegment]
  case entry => rw [sameEntry, isEntry]
  case starts =>
    rw [sameEntry]
    exact starts_in_file inFile accepted

end

/-- A file with one segment of one byte, at the start of the user part. -/
def tinyFile : Bytes :=
  elfMagic ++ [elfClass64, elfDataLe, elfVersionCurrentU8] ++ zeros 9 ++
    le 2 etExec ++ le 2 emX8664 ++ le 4 elfVersionCurrentU32 ++ le 8 userCodeBase ++ le 8 64 ++
    zeros 12 ++ le 2 64 ++ le 2 56 ++ le 2 1 ++ zeros 6 ++
    le 4 ptLoad ++ le 4 5 ++ le 8 120 ++ le 8 userCodeBase ++ le 8 userCodeBase ++ le 8 1 ++
    le 8 1 ++ le 8 0 ++ [0x90]

theorem user_space_is_image_tiny : ∃ image space machine, parse tinyFile = .ok image ∧
    (createUserAddressSpaceFromSegments image.entry (segmentsOf image)).run guardMachine =
      .ok space machine ∧
    IsImage tinyFile space machine.memory := by
  have noUser (index : Index) :
      has (readEntry guardMachine.memory guardMachine.cr3 index) entryUser = false := by
    rw [has_user_readEntry]
    exact (by decide : decide ((0 : UInt8).toNat / 4 % 2 = 1) = false)
  have parsed : parse tinyFile = .ok {
      entry := userCodeBase
      segments := [{ virtualAddress := userCodeBase, data := [0x90], memorySize := 1,
                     writable := false, executable := true }] } := by
    decide +kernel
  have returns : (outcome (createUserAddressSpaceFromSegments userCodeBase
      (tinyProgram userCodeBase)) guardMachine).isOk = true := by
    decide +kernel
  cases created : (createUserAddressSpaceFromSegments userCodeBase
      (tinyProgram userCodeBase)).run guardMachine with
  | ok space machine =>
    exact ⟨_, space, machine, parsed, created,
      user_space_is_image guardMachine_fresh noUser parsed created⟩
  | error stop machine =>
    rw [outcome_error created] at returns
    exact absurd returns Bool.false_ne_true

theorem reaches_only_new_pages_tiny : ∃ space machine,
    (createUserAddressSpaceFromSegments userCodeBase (tinyProgram userCodeBase)).run guardMachine =
      .ok space machine ∧
    ∀ virt access, Canonical virt → Reaches machine.memory space.rootPhys virt access →
      some (alignDown access.phys) ∈ guardMachine.pages.allocations := by
  have noUser : ∀ index, has (readEntry guardMachine.memory guardMachine.cr3 index) entryUser =
      false := by
    decide +kernel
  have returns : (outcome (createUserAddressSpaceFromSegments userCodeBase
      (tinyProgram userCodeBase)) guardMachine).isOk = true := by
    decide +kernel
  cases created : (createUserAddressSpaceFromSegments userCodeBase
      (tinyProgram userCodeBase)).run guardMachine with
  | ok space machine =>
    refine ⟨space, machine, rfl, fun virt access canonical reached => not_not.mp ?_⟩
    exact (reaches_only_new_pages guardMachine_fresh noUser created virt access canonical reached).1
  | error stop machine =>
    rw [outcome_error created] at returns
    exact absurd returns Bool.false_ne_true

end CodexOS.Vm
